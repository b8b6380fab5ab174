import TemplateLint.Path.Basic
import TemplateLint.Source.Position
import TemplateLint.Source.Span
import TemplateLint.Template.Declaration
import TemplateLint.Template.Piece

/-! The nodes of a template. A template is a flat sequence of nodes; constructs refer to the nodes
that open and close them by index. -/
namespace TemplateLint

inductive BlockKind where
  | range
  | with_
  | if_
  | elseIf
  | else_
  | define
  | block
  | template
deriving DecidableEq, Repr

namespace BlockKind

def keyword : BlockKind → String
  | range => "range"
  | with_ => "with"
  | if_ => "if"
  | elseIf => "else if"
  | else_ => "else"
  | define => "define"
  | block => "block"
  | template => "template"

def hasBody : BlockKind → Bool
  | range | with_ | if_ | define | block => true
  | elseIf | else_ | template => false

def isBranch : BlockKind → Bool
  | elseIf | else_ => true
  | _ => false

def acceptsElse : BlockKind → Bool
  | range | with_ | if_ => true
  | _ => false

end BlockKind

inductive ParseError where
  | fault (cause : Fault)
  | emptyAction
  | missingPipeline (keyword : String)
  | missingTemplateName (keyword : String)
  | unexpectedElse (clause : String)
  | duplicateElse
  | unsupportedElse (clause : String)
  | unexpectedEnd
  | trailingTokens (keyword : String)
  | unclosedBlock (keyword : String)
deriving DecidableEq, Repr

def Fault.message : Fault → String
  | .unterminatedAction => "unterminated action"
  | .unterminatedString => "unterminated quoted string in action"
  | .unclosedComment => "unclosed comment"
  | .commentWithoutDelimiter => "comment ends before closing delimiter"

def ParseError.message : ParseError → String
  | .fault cause => cause.message
  | .emptyAction => "empty action"
  | .missingPipeline keyword => s!"missing value for `{keyword}`"
  | .missingTemplateName keyword => s!"missing template name for `{keyword}`"
  | .unexpectedElse clause => s!"unexpected `{clause}` outside of if/with/range"
  | .duplicateElse => "`else` after `else` in the same construct"
  | .unsupportedElse clause => s!"unsupported else clause `else {clause}`"
  | .unexpectedEnd => "unexpected `end`"
  | .trailingTokens keyword => s!"unexpected tokens after `{keyword}`"
  | .unclosedBlock keyword => s!"`{keyword}` is never closed"

structure Action where
  expr : String
  decl : Option Declaration
  path : Option Path
  trimLeft : Bool
  trimRight : Bool
deriving DecidableEq, Repr

structure BlockOpen where
  kind : BlockKind
  args : String
  name : Option String := none
  expr : String := ""
  decl : Option Declaration := none
  path : Option Path := none
  /-- For a branch, the node that opened its construct. -/
  group : Option Nat := none
  /-- For a construct with a body, the node that closes it. -/
  close : Option Nat := none
deriving DecidableEq, Repr

inductive LoopKeyword where
  | break_
  | continue_
deriving DecidableEq, Repr

inductive NodeBody where
  | text
  | comment (text : String)
  | action (action : Action)
  | blockOpen (block : BlockOpen)
  | blockClose (opener : Option Nat)
  | loopControl (keyword : LoopKeyword)
  | malformed (error : ParseError)
deriving DecidableEq, Repr

structure Node where
  raw : String
  span : Span
  pos : Position
  body : NodeBody
deriving DecidableEq, Repr

def Node.isText (n : Node) : Bool := n.body = .text

/-- A problem of one node that does not keep the others from being read. -/
structure ParseIssue where
  error : ParseError
  raw : String
  span : Span
  pos : Position
deriving DecidableEq, Repr

structure Template where
  nodes : List Node
  issues : List ParseIssue
deriving DecidableEq, Repr

namespace Template

def reconstruct (t : Template) : String := String.join (t.nodes.map Node.raw)

/-- The first node that is not text and touches the offset, with its index. -/
def nodeAt? (t : Template) (offset : Nat) : Option (Nat × Node) :=
  (t.nodes.zipIdx.find? fun (n, _) => !n.isText && n.span.contains offset).map fun (n, i) => (i, n)

def definitions (t : Template) : List String :=
  t.nodes.filterMap fun n =>
    match n.body with
    | .blockOpen b => if b.kind = .define ∨ b.kind = .block then b.name else none
    | _ => none

end Template
end TemplateLint
