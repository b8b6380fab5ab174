import TemplateLint.Json.Basic

/-! Reading JSON text. The reader is strict: no comments, no trailing commas, no raw control
characters in strings, nothing after the value. -/
namespace TemplateLint.Json

def isSpace (c : Char) : Bool := c == ' ' || c == '\t' || c == '\n' || c == '\r'

def skipSpace (cs : List Char) : List Char := cs.dropWhile isSpace

/-- What a string is made of: a character, or half of a surrogate pair. -/
inductive CodeUnit where
  | char (c : Char)
  | half (n : Nat)
deriving Repr

def hexValue? (c : Char) : Option Nat :=
  if c.isDigit then some (c.toNat - '0'.toNat)
  else if 'a' ≤ c ∧ c ≤ 'f' then some (c.toNat - 'a'.toNat + 10)
  else if 'A' ≤ c ∧ c ≤ 'F' then some (c.toNat - 'A'.toNat + 10)
  else none

namespace CodeUnit

def ofNat (n : Nat) : CodeUnit :=
  if 0xd800 ≤ n ∧ n < 0xe000 then half n else char (Char.ofNat n)

def ofHex? (a b c d : Char) : Option CodeUnit := do
  return ofNat ((((← hexValue? a) * 16 + (← hexValue? b)) * 16 + (← hexValue? c)) * 16 +
    (← hexValue? d))

def ofEscape? : Char → Option CodeUnit
  | '"' => some (char '"')
  | '\\' => some (char '\\')
  | '/' => some (char '/')
  | 'b' => some (char '\x08')
  | 'f' => some (char '\x0c')
  | 'n' => some (char '\n')
  | 'r' => some (char '\r')
  | 't' => some (char '\t')
  | _ => none

def readAll? : List Char → Option (List CodeUnit × List Char)
  | [] => none
  | '"' :: rest => some ([], rest)
  | '\\' :: 'u' :: a :: b :: c :: d :: rest => do
    let unit ← ofHex? a b c d
    let (units, rest) ← readAll? rest
    return (unit :: units, rest)
  | '\\' :: c :: rest => do
    let unit ← ofEscape? c
    let (units, rest) ← readAll? rest
    return (unit :: units, rest)
  | c :: rest => do
    if c.toNat < 0x20 || c == '\\' then none
    let (units, rest) ← readAll? rest
    return (char c :: units, rest)

/-- The text that the units spell; `none` if half of a surrogate pair stands alone. -/
def pair? : List CodeUnit → Option (List Char)
  | [] => some []
  | char c :: units => (pair? units).map (c :: ·)
  | half high :: half low :: units =>
    if high < 0xdc00 ∧ 0xdc00 ≤ low then
      (pair? units).map (Char.ofNat (0x10000 + (high - 0xd800) * 0x400 + (low - 0xdc00)) :: ·)
    else none
  | half _ :: _ => none

end CodeUnit

def readString? (cs : List Char) : Option (Option String × List Char) := do
  let (units, rest) ← CodeUnit.readAll? cs
  return ((CodeUnit.pair? units).map String.ofList, rest)

def readDigits? (cs : List Char) : Option (List Char × List Char) :=
  let digits := cs.takeWhile Char.isDigit
  if digits = [] then none else some (digits, cs.dropWhile Char.isDigit)

def readInteger? : List Char → Option (List Char × List Char)
  | '0' :: rest => if rest.head?.any Char.isDigit then none else some (['0'], rest)
  | cs => readDigits? cs

def readFraction? : List Char → Option (List Char × List Char)
  | '.' :: rest => (readDigits? rest).map fun (digits, rest) => ('.' :: digits, rest)
  | cs => some ([], cs)

def readExponent? : List Char → Option (List Char × List Char)
  | e :: rest =>
    if e = 'e' ∨ e = 'E' then
      match rest with
      | s :: rest' =>
        if s = '+' ∨ s = '-' then
          (readDigits? rest').map fun (digits, rest) => (e :: s :: digits, rest)
        else (readDigits? rest).map fun (digits, rest) => (e :: digits, rest)
      | [] => none
    else some ([], e :: rest)
  | [] => some ([], [])

def readNumber? (cs : List Char) : Option (Json × List Char) := do
  let (sign, rest) := match cs with
    | '-' :: rest => (['-'], rest)
    | _ => ([], cs)
  let (integer, rest) ← readInteger? rest
  let (fraction, rest) ← readFraction? rest
  let (exponent, rest) ← readExponent? rest
  return (number (String.ofList (sign ++ integer ++ fraction ++ exponent)), rest)

/-- An object stands for a value if all its keys are texts. -/
def ofMembers (members : List (Option String × Json)) : Json :=
  match members.mapM fun (key, value) => key.map (·, value) with
  | some members => object members
  | none => unreadable

mutual
/-- The value at the front of the text and what follows it. The fuel bounds the nesting of calls. -/
def readValue? : Nat → List Char → Option (Json × List Char)
  | 0, _ => none
  | fuel + 1, cs =>
    match skipSpace cs with
    | 'n' :: 'u' :: 'l' :: 'l' :: rest => some (null, rest)
    | 't' :: 'r' :: 'u' :: 'e' :: rest => some (bool true, rest)
    | 'f' :: 'a' :: 'l' :: 's' :: 'e' :: rest => some (bool false, rest)
    | '"' :: rest => (readString? rest).map fun (text, rest) =>
      (text.elim unreadable string, rest)
    | '[' :: rest =>
      match skipSpace rest with
      | ']' :: rest => some (array [], rest)
      | _ => (readItems? fuel rest).map fun (items, rest) => (array items, rest)
    | '\x7b' :: rest =>
      match skipSpace rest with
      | '\x7d' :: rest => some (object [], rest)
      | _ => (readMembers? fuel rest).map fun (members, rest) => (ofMembers members, rest)
    | cs => readNumber? cs

def readItems? : Nat → List Char → Option (List Json × List Char)
  | 0, _ => none
  | fuel + 1, cs => do
    let (item, rest) ← readValue? fuel cs
    match skipSpace rest with
    | ',' :: rest => (readItems? fuel rest).map fun (items, rest) => (item :: items, rest)
    | ']' :: rest => some ([item], rest)
    | _ => none

def readMembers? : Nat → List Char → Option (List (Option String × Json) × List Char)
  | 0, _ => none
  | fuel + 1, cs =>
    match skipSpace cs with
    | '"' :: rest => do
      let (key, rest) ← readString? rest
      match skipSpace rest with
      | ':' :: rest =>
        let (value, rest) ← readValue? fuel rest
        match skipSpace rest with
        | ',' :: rest =>
          (readMembers? fuel rest).map fun (members, rest) => ((key, value) :: members, rest)
        | '\x7d' :: rest => some ([(key, value)], rest)
        | _ => none
      | _ => none
    | _ => none
end

def parse? (text : String) : Option Json := do
  let cs := text.toList
  let (value, rest) ← readValue? (2 * cs.length + 2) cs
  if skipSpace rest = [] then some value else none

end TemplateLint.Json
