import TemplateLint.Decimal.Shortest
import TemplateLint.Path.Basic
import TemplateLint.Source.Span
import TemplateLint.Text.Quoted

/-! Tokens of an expression, and what can be wrong with its text. -/
namespace TemplateLint

inductive Literal where
  | int (v : Int)
  | float (v : Float)
  | imaginary (v : Float)
  | str (v : String)
  | char (v : Char)
  | bool (v : Bool)
  | nil
deriving Repr

protected def Literal.toString : Literal → String
  | .int v => toString v
  | .float v => floatText v
  | .imaginary v => floatText v ++ "i"
  | .str v => Text.quoted v
  | .char v => Text.quotedChar v
  | .bool v => if v then "true" else "false"
  | .nil => "nil"

inductive TokenKind where
  | field (name : String)
  | dot
  /-- `$name`; the name is empty for the root. -/
  | variable (name : String)
  | ident (name : String)
  | literal (value : Literal)
  | index (key : String)
  | leftParen
  | rightParen
  | pipe
deriving Repr

structure Token where
  kind : TokenKind
  span : Span
deriving Repr

def TokenKind.describe : TokenKind → String
  | .field name => s!"field `.{name}`"
  | .dot => "`.`"
  | .variable name => s!"variable `${name}`"
  | .ident name => s!"identifier `{name}`"
  | .literal value =>
    let text := value.toString
    match value with
    | .int _ | .float _ | .imaginary _ => s!"number `{text}`"
    | .str _ => s!"string {text}"
    | .char _ => s!"character {text}"
    | .bool _ | .nil => s!"`{text}`"
  | .index key => s!"index `[{key}]`"
  | .leftParen => "`(`"
  | .rightParen => "`)`"
  | .pipe => "`|`"

namespace Expr

inductive Cause where
  | declaration
  | unexpectedChar (c : Char)
  | emptyIndex
  | unclosedIndex
  | badNumber (text : String)
  | unterminatedEscape
  | unknownEscape (c : Char)
  | badOctal
  | badHex
  | invalidEscape
  | unterminatedString
  | unterminatedRaw
  | emptyChar
  | unterminatedChar
  | emptyExpression
  | missingValue
  | nonExecutable
  | nonFunction
  | nonMethod (path : Path)
  | fieldOnFunction (name : String)
  | unclosedParen
  | unexpected (kind : TokenKind)
deriving Repr

def Cause.message : Cause → String
  | .declaration => "variable declarations are only allowed at the start of an action"
  | .unexpectedChar c => s!"unexpected character `{c}`"
  | .emptyIndex => "empty index"
  | .unclosedIndex => "unclosed index"
  | .badNumber text => s!"bad number syntax `{text}`"
  | .unterminatedEscape => "unterminated escape"
  | .unknownEscape c => s!"unknown escape `\\{c}`"
  | .badOctal => "bad octal escape"
  | .badHex => "bad hex escape"
  | .invalidEscape => "escape is not a valid character"
  | .unterminatedString => "unterminated quoted string"
  | .unterminatedRaw => "unterminated raw string"
  | .emptyChar => "empty character constant"
  | .unterminatedChar => "unterminated character constant"
  | .emptyExpression => "empty expression"
  | .missingValue => "missing value for command"
  | .nonExecutable => "non executable command in pipeline stage"
  | .nonFunction => "can't give argument to non-function"
  | .nonMethod path =>
    let text := path.toString
    s!"can't give argument to non-function `{text}`"
  | .fieldOnFunction name => s!"unexpected field access on function `{name}`"
  | .unclosedParen => "unclosed left paren"
  | .unexpected kind =>
    let text := kind.describe
    s!"unexpected {text}"

structure Malformed where
  cause : Cause
  offset : Nat
deriving Repr

def Malformed.message (e : Malformed) : String :=
  let detail := e.cause.message
  s!"malformed expression at offset {e.offset}: {detail}"

end Expr
end TemplateLint
