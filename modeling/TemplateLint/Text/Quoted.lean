import TemplateLint.Text.Hidden

/-! Quoted text for messages: a quote, the text with escapes, a quote. -/
namespace TemplateLint.Text

def numberEscape (c : Char) : List Char :=
  ['\\', 'u', '\x7b'] ++ Nat.toDigits 16 c.toNat ++ ['\x7d']

/-- How `c` is written between two `quote`s: only that quote is escaped, not the other one. -/
def escape (quote c : Char) : List Char :=
  if c = quote then ['\\', c] else
  match c with
  | '\x00' => ['\\', '0']
  | '\t' => ['\\', 't']
  | '\r' => ['\\', 'r']
  | '\n' => ['\\', 'n']
  | '\\' => ['\\', '\\']
  | _ => if isHidden c then numberEscape c else [c]

def quoted (text : String) : String :=
  String.ofList ('"' :: text.toList.flatMap (escape '"') ++ ['"'])

def quotedChar (c : Char) : String :=
  String.ofList ('\'' :: escape '\'' c ++ ['\''])

end TemplateLint.Text
