/-! Access chains such as `.User.Orders[0].Total`. -/
namespace TemplateLint

inductive PathRoot where
  | dot
  | root
  | var (name : String)
deriving DecidableEq, Repr, Inhabited

inductive Segment where
  | field (name : String)
  /-- The key is kept as written between the brackets. -/
  | index (key : String)
deriving DecidableEq, Repr, Inhabited

structure Path where
  root : PathRoot
  segments : List Segment
deriving DecidableEq, Repr, Inhabited

namespace Segment

def word : Segment → String
  | field name => name
  | index key => key

def chars : Segment → List Char
  | field name => '.' :: name.toList
  | index key => '[' :: key.toList ++ [']']

end Segment

namespace Path

def dot : Path := ⟨.dot, []⟩

def leading? (p : Path) : Option String :=
  match p.root with
  | .var name => some name
  | .dot | .root => p.segments.head?.map Segment.word

def take (p : Path) (n : Nat) : Path := ⟨p.root, p.segments.take n⟩

def chars (p : Path) : List Char :=
  match p.root, p.segments with
  | .dot, [] => ['.']
  | .dot, segments => segments.flatMap Segment.chars
  | .root, segments => '$' :: segments.flatMap Segment.chars
  | .var name, segments => '$' :: name.toList ++ segments.flatMap Segment.chars

protected def toString (p : Path) : String := String.ofList p.chars

end Path
end TemplateLint
