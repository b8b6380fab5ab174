import TemplateLint.Infer
import TemplateLint.Template.Node

/-! What an analysis finds: diagnostics, and the edges between templates. -/
namespace TemplateLint
open Text

inductive Severity where
  | error
  | warning
deriving DecidableEq, Repr

def Severity.word : Severity → String
  | .error => "error"
  | .warning => "warning"

inductive DiagnosticKind where
  | undefinedVariable
  | undefinedField
  | notIterable
  | malformedExpression
  | unresolvedTemplateCall
  | unknownFunction
deriving DecidableEq, Repr

def DiagnosticKind.word : DiagnosticKind → String
  | .undefinedVariable => "undefined_variable"
  | .undefinedField => "undefined_field"
  | .notIterable => "not_iterable"
  | .malformedExpression => "malformed_expression"
  | .unresolvedTemplateCall => "unresolved_template_call"
  | .unknownFunction => "unknown_function"

inductive Problem where
  | issue (error : ParseError) (raw : String)
  | malformed (error : Expr.Malformed) (expr : String)
  | path (error : ResolveError) (path : Path)
  /-- The first segment of a path is no variable of the template. -/
  | missing (path : Path)
  | part (error : ResolveError) (expr : String)
  | index (on key : String) (expr : String)
  | assigned (name : String)
  | notIterable (expr label : String)
  | function (name : String)
deriving Repr

def trimmed (text : String) : String := String.ofList (trim text.toList)

namespace Problem

def kind : Problem → DiagnosticKind
  | issue .. | malformed .. => .malformedExpression
  | path (.undefinedVariable _) _ | missing _ | assigned _ => .undefinedVariable
  | path .. | part .. | index .. => .undefinedField
  | notIterable .. => .notIterable
  | function _ => .unknownFunction

def severity : Problem → Severity
  | issue (.unsupportedElse _) _ | function _ => .warning
  | _ => .error

def message : Problem → String
  | issue error _ => error.message
  | malformed error _ => error.message
  | path error _ | part error _ => error.message
  | missing p =>
    let ident := p.leading?.getD ""
    s!"undefined variable `{ident}`"
  | index on key _ => (ExprError.notIndexable on key).message
  | assigned name => s!"undefined variable `${name}`"
  | notIterable expr label => s!"cannot range over `{expr}` of type `{label}`"
  | function name => s!"function `{name}` is not in the function table"

def subject : Problem → String
  | issue _ raw => trimmed raw
  | malformed _ expr | index _ _ expr => trimmed expr
  | path _ p | missing p => p.toString
  | part (.undefinedField field _ _) _ => "." ++ field
  | part _ expr => trimmed expr
  | assigned name => "$" ++ name
  | notIterable expr _ => expr
  | function name => name

end Problem

structure Diagnostic where
  kind : DiagnosticKind
  message : String
  file : String
  line : Nat
  col : Nat
  severity : Severity
  subject : String
  raw : String
deriving DecidableEq, Repr

namespace Diagnostic

def of (file : String) (pos : Position) (raw : String) (p : Problem) : Diagnostic :=
  { kind := p.kind, message := p.message, file, line := pos.line, col := pos.col
    severity := p.severity, subject := p.subject, raw }

def pos (d : Diagnostic) : Position := ⟨d.line, d.col⟩

def isError (d : Diagnostic) : Bool := d.severity = .error

protected def toString (d : Diagnostic) : String :=
  let severity := d.severity.word
  s!"{d.file}:{d.line}:{d.col}: {severity}: {d.message}"

def le (a b : Diagnostic) : Bool := a.line < b.line || (a.line == b.line && a.col ≤ b.col)

end Diagnostic

inductive EdgeKind where
  | define
  | block
  | template
deriving DecidableEq, Repr

def EdgeKind.word : EdgeKind → String
  | .define => "define"
  | .block => "block"
  | .template => "template"

structure Edge where
  file : String
  name : String
  kind : EdgeKind
  /-- The pipeline that becomes its dot. -/
  context : String
  contextType : Option String
  line : Nat
  col : Nat
deriving DecidableEq, Repr

structure Findings where
  diagnostics : List Diagnostic := []
  edges : List Edge := []
  checked : Nat := 0
deriving DecidableEq, Repr

namespace Findings

instance : Append Findings where
  append a b := ⟨a.diagnostics ++ b.diagnostics, a.edges ++ b.edges, a.checked + b.checked⟩

def errors (f : Findings) : List Diagnostic := f.diagnostics.filter Diagnostic.isError

def hasErrors (f : Findings) : Bool := f.diagnostics.any Diagnostic.isError

/-- Diagnostics in the order of their places; those of one place keep their order. -/
def sorted (f : Findings) : Findings :=
  { f with diagnostics := f.diagnostics.mergeSort Diagnostic.le }

end Findings
end TemplateLint
