import TemplateLint.Json.Basic

/-! Writing JSON text, on one line or indented by two spaces a level. -/
namespace TemplateLint.Json

def escapeChar (c : Char) : List Char :=
  match c with
  | '"' => ['\\', '"']
  | '\\' => ['\\', '\\']
  | '\x08' => ['\\', 'b']
  | '\x0c' => ['\\', 'f']
  | '\n' => ['\\', 'n']
  | '\r' => ['\\', 'r']
  | '\t' => ['\\', 't']
  | c =>
    if c.toNat < 0x20 then
      ['\\', 'u', '0', '0', Nat.digitChar (c.toNat / 16), Nat.digitChar (c.toNat % 16)]
    else [c]

def quote (text : String) : String :=
  String.ofList ('"' :: text.toList.flatMap escapeChar ++ ['"'])

def compress : Json → String
  | null => "null"
  | bool b => if b then "true" else "false"
  | number literal => literal
  | string text => quote text
  | array items => "[" ++ compressItems items ++ "]"
  | object members => "\x7b" ++ compressMembers members ++ "\x7d"
  | unreadable => "null"
where
  compressItems : List Json → String
    | [] => ""
    | [item] => compress item
    | item :: items => compress item ++ "," ++ compressItems items
  compressMembers : List (String × Json) → String
    | [] => ""
    | [(key, value)] => quote key ++ ":" ++ compress value
    | (key, value) :: members =>
      quote key ++ ":" ++ compress value ++ "," ++ compressMembers members

def indent (depth : Nat) : String := String.ofList (List.replicate (2 * depth) ' ')

/-- The value over several lines; an empty array or object stays on its line. -/
def pretty (depth : Nat) : Json → String
  | array [] => "[]"
  | object [] => "\x7b\x7d"
  | array items => "[\n" ++ prettyItems items ++ "\n" ++ indent depth ++ "]"
  | object members => "\x7b\n" ++ prettyMembers members ++ "\n" ++ indent depth ++ "\x7d"
  | value => compress value
where
  prettyItems : List Json → String
    | [] => ""
    | [item] => indent (depth + 1) ++ pretty (depth + 1) item
    | item :: items =>
      indent (depth + 1) ++ pretty (depth + 1) item ++ ",\n" ++ prettyItems items
  prettyMembers : List (String × Json) → String
    | [] => ""
    | [(key, value)] => indent (depth + 1) ++ quote key ++ ": " ++ pretty (depth + 1) value
    | (key, value) :: members =>
      indent (depth + 1) ++ quote key ++ ": " ++ pretty (depth + 1) value ++ ",\n" ++
        prettyMembers members

end TemplateLint.Json
