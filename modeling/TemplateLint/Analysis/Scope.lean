import TemplateLint.NameMap
import TemplateLint.Resolve

/-! Scopes: what dot, `$` and the variables mean at a place of a template. -/
namespace TemplateLint

inductive FrameKind where
  | root
  | range
  | with_
  | if_
  | define
  | block
deriving DecidableEq, Repr

structure Frame where
  kind : FrameKind
  dot : TypeRef
  locals : NameMap TypeRef := .empty
  /-- Variables of the frames around a detached one cannot be seen from it. -/
  detached : Bool := false
  /-- Dot of the frame around it, to which an `else` goes back. -/
  outer : Option TypeRef := none

/-- The permanent root and a stack of frames. There always is a top frame: the bottom one is never
taken away. -/
structure ScopeStack where
  root : TypeNode
  top : Frame
  below : List Frame := []

namespace ScopeStack

def start (root : TypeNode) (dot : TypeRef := .root) : ScopeStack :=
  { root, top := { kind := .root, dot } }

def frames (s : ScopeStack) : List Frame := s.top :: s.below

def depth (s : ScopeStack) : Nat := s.frames.length

def dotIsRoot (s : ScopeStack) : Bool :=
  match s.top.dot with
  | .root => true
  | .own _ => false

def pushFrame (s : ScopeStack) (f : Frame) : ScopeStack :=
  { s with top := f, below := s.top :: s.below }

/-- Enters a construct. `range` and `with` remember the dot around them. -/
def push (s : ScopeStack) (kind : FrameKind) (dot : TypeRef) : ScopeStack :=
  s.pushFrame { kind, dot, outer := if kind = .range ∨ kind = .with_ then some s.top.dot else none }

def pushDetached (s : ScopeStack) (kind : FrameKind) (dot : TypeRef) : ScopeStack :=
  s.pushFrame { kind, dot, detached := true }

def pop? (s : ScopeStack) : Option (Frame × ScopeStack) :=
  match s.below with
  | [] => none
  | f :: fs => some (s.top, { s with top := f, below := fs })

def pop (s : ScopeStack) : ScopeStack :=
  match s.pop? with
  | some (_, rest) => rest
  | none => s

/-- Switches the innermost frame to its `else`, where dot is the one around it again. -/
def enterElse (s : ScopeStack) : ScopeStack :=
  match s.top.outer with
  | some dot => { s with top := { s.top with dot } }
  | none => s

def bind (s : ScopeStack) (name : String) (ref : TypeRef) : ScopeStack :=
  { s with top := { s.top with locals := s.top.locals.insert name ref } }

def bindAll (s : ScopeStack) (names : List String) (ref : TypeRef) : ScopeStack :=
  names.foldl (fun s name => s.bind name ref) s

/-- The frames up to and including the first detached one. -/
def visibleOf : List Frame → List Frame
  | [] => []
  | f :: fs => if f.detached then [f] else f :: visibleOf fs

def visible (s : ScopeStack) : List Frame := visibleOf s.frames

def lookup? (s : ScopeStack) (name : String) : Option TypeRef :=
  s.visible.findSome? (·.locals.get? name)

def isVisible (s : ScopeStack) (name : String) : Bool := (s.lookup? name).isSome

def visibleLocals (s : ScopeStack) : NameMap TypeRef :=
  s.visible.foldr (fun f locals => locals.insertAll f.locals.entries) .empty

def env (s : ScopeStack) : Env := ⟨s.root, s.top.dot, s.lookup?⟩

def resolve (s : ScopeStack) (p : Path) : Except ResolveError TypeRef := s.env.resolve p

end ScopeStack
end TemplateLint
