import TemplateLint.Text.Basic

/-! Lines and columns. Both count from one; a column counts characters, an offset counts bytes. -/
namespace TemplateLint
open Text

structure Position where
  line : Nat
  col : Nat
deriving DecidableEq, Repr, Inhabited

namespace Position

protected def toString (p : Position) : String := s!"{p.line}:{p.col}"

def next (p : Position) (c : Char) : Position :=
  if c = '\n' then ⟨p.line + 1, 1⟩ else ⟨p.line, p.col + 1⟩

/-- Position of the byte `offset` past `p`. An offset past the end counts as the end, and one
inside a character as the start of its line. -/
def advance (p : Position) (offset : Nat) : List Char → Position
  | [] => p
  | c :: cs =>
    if offset = 0 then p
    else if offset < c.utf8Size then ⟨p.line, 1⟩
    else advance (p.next c) (offset - c.utf8Size) cs

def ofOffset (source : List Char) (offset : Nat) : Position :=
  advance ⟨1, 1⟩ offset source

def distance? (target p : Position) : List Char → Option Nat
  | [] => if p = target then some 0 else none
  | c :: cs =>
    if p = target then some 0
    else (distance? target (p.next c) cs).map (c.utf8Size + ·)

def toOffset? (source : List Char) (target : Position) : Option Nat :=
  distance? target ⟨1, 1⟩ source

end Position

/-- Number of lines; a final line break starts one more. -/
def lineCount (source : List Char) : Nat := source.count '\n' + 1

end TemplateLint
