import TemplateLint.Text.Basic

/-! String literals that name templates. -/
namespace TemplateLint.NameLiteral
open Text

def unescape (c : Char) : Char :=
  match c with
  | 'n' => '\n'
  | 't' => '\t'
  | 'r' => '\r'
  | '0' => '\x00'
  | c => c

def readQuoted? : List Char → Option (List Char × List Char)
  | [] => none
  | '"' :: rest => some ([], rest)
  | ['\\'] => none
  | '\\' :: c :: rest => (readQuoted? rest).map fun parts => (unescape c :: parts.1, parts.2)
  | c :: rest => (readQuoted? rest).map fun parts => (c :: parts.1, parts.2)

/-- The literal at the front of the text, blanks before it apart: its value and what follows. A
raw literal knows no escapes. -/
def read? (cs : List Char) : Option (List Char × List Char) :=
  match trimStart cs with
  | '`' :: rest => cut? ['`'] rest
  | '"' :: rest => readQuoted? rest
  | _ => none

end TemplateLint.NameLiteral
