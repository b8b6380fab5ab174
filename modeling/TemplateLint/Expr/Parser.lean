import TemplateLint.Expr.Basic
import TemplateLint.Expr.Lexer

/-! Reading expressions. The reader takes one token after the other; an open parenthesis puts the
pipeline around it aside until the parenthesis is closed. -/
namespace TemplateLint
open Text

namespace Expr

inductive Operand where
  | path (span : Span) (path : Path)
  | function (span : Span) (name : String)
  | literal (span : Span) (value : Literal)
  | paren (span : Span) (inner : Expr) (segments : List Segment)
deriving Repr

namespace Operand

def span : Operand → Span
  | path s _ | function s _ | literal s _ | paren s _ _ => s

/-- Parentheses belong to the place of what they enclose. -/
def expr : Operand → Expr
  | path s p => .path s p
  | function s name => .call s name []
  | literal s v => .literal s v
  | paren s inner [] => inner.withSpan s
  | paren s inner segments => .chain s inner segments

def extend? (o : Operand) (segment : Segment) (stop : Nat) : Except Malformed (Option Operand) :=
  match o with
  | path s p => .ok (some (path ⟨s.start, stop⟩ ⟨p.root, p.segments ++ [segment]⟩))
  | paren s inner segments => .ok (some (paren ⟨s.start, stop⟩ inner (segments ++ [segment])))
  | function s name => .error ⟨.fieldOnFunction name, s.start⟩
  | literal _ _ => .ok none

def ofToken (t : Token) : Except Malformed Operand :=
  match t.kind with
  | .field name => .ok (path t.span ⟨.dot, [.field name]⟩)
  | .dot => .ok (path t.span .dot)
  | .variable name => .ok (path t.span ⟨if name = "" then .root else .var name, []⟩)
  | .ident name => .ok (function t.span name)
  | .literal value => .ok (literal t.span value)
  | kind => .error ⟨.unexpected kind, t.span.start⟩

end Operand

/-- A pipeline that is being read: its finished stages and the operands of its last command, the
latest first. -/
structure Level where
  stages : List Expr := []
  operands : List Operand := []
deriving Repr

def apply (first : Operand) (args : List Expr) (span : Span) : Except Malformed Expr :=
  match first, first.expr with
  | .function _ name, _ => .ok (.call span name args)
  | _, .path s p =>
    match p.segments.getLast? with
    | some (.field name) => .ok (.method span (p.take (p.segments.length - 1)) name args)
    | some (.index _) => .error ⟨.nonMethod p, s.start⟩
    | none => .error ⟨.nonFunction, s.start⟩
  | _, e => .error ⟨.nonFunction, e.span.start⟩

namespace Level

def command (level : Level) (offset : Nat) : Except Malformed Expr :=
  match level.operands.reverse with
  | [] => .error ⟨.missingValue, offset⟩
  | [first] => .ok first.expr
  | first :: second :: rest =>
    let last := (second :: rest).getLast (by simp)
    apply first ((second :: rest).map Operand.expr) ⟨first.span.start, last.span.stop⟩

/-- Only the first stage may be a value that cannot be called. -/
def isExecutable : Expr → Bool
  | .call .. | .method .. | .path .. => true
  | _ => false

def endStage (level : Level) (offset : Nat) : Except Malformed Level := do
  let stage ← level.command offset
  if !level.stages.isEmpty && !isExecutable stage then
    throw ⟨.nonExecutable, stage.span.start⟩
  return { stages := stage :: level.stages }

def finish (level : Level) (offset : Nat) : Except Malformed Expr := do
  let level ← level.endStage offset
  match level.stages.reverse with
  | first :: second :: rest =>
    let last := (second :: rest).getLast (by simp)
    return .pipeline ⟨first.span.start, last.span.stop⟩ (first :: second :: rest)
  | [stage] => return stage
  | [] => throw ⟨.missingValue, offset⟩

def push (level : Level) (o : Operand) : Level := { level with operands := o :: level.operands }

def operand (level : Level) (t : Token) : Except Malformed Level := do
  let segment? : Option Segment := match t.kind with
    | .field name => some (.field name)
    | .index key => some (.index key)
    | _ => none
  match segment?, level.operands with
  | some segment, last :: before =>
    if last.span.stop = t.span.start then
      match ← last.extend? segment t.span.stop with
      | some longer => return { level with operands := longer :: before }
      | none => return level.push (← Operand.ofToken t)
    else return level.push (← Operand.ofToken t)
  | _, _ => return level.push (← Operand.ofToken t)

end Level

/-- The reader between two tokens: the innermost pipeline, and around each open parenthesis the
pipeline put aside for it. -/
structure Reading where
  level : Level := {}
  outer : List (Span × Level) := []
deriving Repr

namespace Reading

def step (r : Reading) (t : Token) : Except Malformed Reading :=
  match t.kind with
  | .leftParen => .ok ⟨{}, (t.span, r.level) :: r.outer⟩
  | .pipe => do return { r with level := ← r.level.endStage t.span.start }
  | .rightParen => do
    let inner ← r.level.finish t.span.start
    match r.outer with
    | (start, level) :: outer =>
      return ⟨level.push (.paren ⟨start.start, t.span.stop⟩ inner []), outer⟩
    | [] => throw ⟨.unexpected .rightParen, t.span.start⟩
  | _ => do return { r with level := ← r.level.operand t }

def finish (r : Reading) (offset : Nat) : Except Malformed Expr := do
  let expr ← r.level.finish offset
  match r.outer with
  | [] => return expr
  | (start, _) :: _ => throw ⟨.unclosedParen, start.start⟩

end Reading

def ofTokens (tokens : List Token) (offset : Nat) : Except Malformed Expr := do
  if tokens.isEmpty then throw ⟨.emptyExpression, 0⟩
  (← tokens.foldlM Reading.step {}).finish offset

def ofChars (cs : List Char) : Except Malformed Expr := do
  ofTokens (← tokenize 0 cs) (byteLength cs)

def parse (text : String) : Except Malformed Expr := ofChars text.toList

end Expr
end TemplateLint
