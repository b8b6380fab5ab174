import TemplateLint.Expr.Token
import TemplateLint.Text.Basic

/-! Expressions: what stands in an action, as a tree whose nodes know their place in the text. -/
namespace TemplateLint

inductive Expr where
  | path (span : Span) (path : Path)
  | literal (span : Span) (value : Literal)
  /-- A call of a named function; a name alone is a call without arguments. -/
  | call (span : Span) (func : String) (args : List Expr)
  | method (span : Span) (receiver : Path) (name : String) (args : List Expr)
  | chain (span : Span) (base : Expr) (segments : List Segment)
  /-- Stages, each of which gets the result of the one before as its first argument. -/
  | pipeline (span : Span) (stages : List Expr)
deriving Repr, Inhabited

namespace Expr

def span : Expr → Span
  | path s _ | literal s _ | call s _ _ | method s _ _ _ | chain s _ _ | pipeline s _ => s

def withSpan (s : Span) : Expr → Expr
  | path _ p => path s p
  | literal _ v => literal s v
  | call _ f args => call s f args
  | method _ r m args => method s r m args
  | chain _ b segments => chain s b segments
  | pipeline _ stages => pipeline s stages

def asPath? : Expr → Option Path
  | path _ p => some p
  | _ => none

/-- The expression and all its parts, each before its own parts, in the order of the text. -/
def parts : Expr → List Expr
  | path s p => [path s p]
  | literal s v => [literal s v]
  | call s f args => call s f args :: partsOfAll args
  | method s r m args => method s r m args :: partsOfAll args
  | chain s b segments => chain s b segments :: parts b
  | pipeline s stages => pipeline s stages :: partsOfAll stages
where
  partsOfAll : List Expr → List Expr
    | [] => []
    | e :: es => parts e ++ partsOfAll es

/-- The path that an expression itself refers to: a path, or the receiver of a method. A method
of the bare dot refers to none. -/
def ownPath? : Expr → Option (Path × Span)
  | path s p => some (p, s)
  | method s r _ _ =>
    if r = .dot then none else some (r, ⟨s.start, s.start + Text.byteLength r.chars⟩)
  | _ => none

def paths (e : Expr) : List (Path × Span) := e.parts.filterMap ownPath?

def ownCall? : Expr → Option (String × Span)
  | call s f _ => some (f, s)
  | _ => none

def calls (e : Expr) : List (String × Span) := e.parts.filterMap ownCall?

def at? (e : Expr) (offset : Nat) : Option Expr :=
  (e.parts.filter fun part => part.span.contains offset).getLast?

end Expr
end TemplateLint
