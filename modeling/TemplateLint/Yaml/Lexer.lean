import TemplateLint.Yaml.Scalar

/-! Cutting a YAML stream into tokens. Indentation becomes tokens that open and close block
collections, and a text that turns out to be a key gets its token in front of it afterwards. -/
namespace TemplateLint.Yaml

structure Cursor where
  rest : List Char
  index : Nat := 0
  line : Nat := 0
  column : Nat := 0

namespace Cursor

def next (c : Cursor) : Cursor :=
  match c.rest with
  | [] => c
  | d :: rest =>
    if isBreak d then ⟨rest, c.index + 1, c.line + 1, 0⟩
    else ⟨rest, c.index + 1, c.line, c.column + 1⟩

def moveTo (c : Cursor) (rest : List Char) : Cursor :=
  (List.range (c.rest.length - rest.length)).foldl (fun c _ => c.next) c

end Cursor

/-- Where something stands that may turn out to be a key. -/
structure KeyPlace where
  /-- The number of the token that it begins with. -/
  token : Nat
  index : Nat
  line : Nat
  column : Nat
  required : Bool

/-- A key is on one line and not longer than this. -/
def keyLength : Nat := 1024

structure Lexer where
  cursor : Cursor
  tokens : Array Token := #[]
  indents : List Nat := []
  /-- What may turn out to be a key of the innermost flow collection, or of the block around. -/
  key : Option KeyPlace := none
  outerKeys : List (Option KeyPlace) := []
  keyAllowed : Bool := true

namespace Lexer

def inFlow (l : Lexer) : Bool := l.outerKeys ≠ []

def rest (l : Lexer) : List Char := l.cursor.rest

def push (l : Lexer) (t : Token) : Lexer := { l with tokens := l.tokens.push t }

def skip (l : Lexer) (n : Nat) : Lexer := { l with cursor := l.cursor.moveTo (l.rest.drop n) }

def indicator (l : Lexer) (t : Token) : Lexer := (l.skip 1).push t

def dropKey (l : Lexer) : Option Lexer :=
  if l.key.any (·.required) then none else some { l with key := none }

def dropStale (l : Lexer) : Option Lexer :=
  let stale (k : KeyPlace) : Bool :=
    k.line < l.cursor.line || k.index + keyLength < l.cursor.index
  let required : Option KeyPlace → Bool := fun k => k.any fun k => stale k && k.required
  if required l.key || l.outerKeys.any required then none
  else
    let fresh : Option KeyPlace → Option KeyPlace := (·.filter (!stale ·))
    some { l with key := fresh l.key, outerKeys := l.outerKeys.map fresh }

def noteKey (l : Lexer) : Option Lexer :=
  if l.keyAllowed then
    l.dropKey.map fun l =>
      { l with key := some {
          token := l.tokens.size, index := l.cursor.index, line := l.cursor.line
          column := l.cursor.column
          required := !l.inFlow && l.indents.head? == some l.cursor.column } }
  else some l

def indentTo (l : Lexer) (column at_ : Nat) (t : Token) : Lexer :=
  if l.inFlow || l.indents.head?.any (column ≤ ·) then l
  else
    { l with
      indents := column :: l.indents
      tokens := l.tokens.insertIdxIfInBounds at_ t }

def unindentTo (l : Lexer) (column : Option Nat) : Lexer :=
  if l.inFlow then l
  else
    let deeper (n : Nat) : Bool := column.all (· < n)
    { l with
      tokens := l.tokens ++ ((l.indents.takeWhile deeper).map fun _ => Token.blockEnd)
      indents := l.indents.dropWhile deeper }

/-! ### Between tokens -/

/-- Skips padding, comments and line breaks. A line may begin with a byte order mark, which takes a
column as every character does. Outside flow collections tabs are padding only where no key may
begin. -/
def toNextToken (inFlow : Bool) : Bool → Bool → List Char → Bool × List Char
  | keyAllowed, _, [] => (keyAllowed, [])
  | keyAllowed, lineStart, c :: cs =>
    if lineStart ∧ c = '\ufeff' then toNextToken inFlow keyAllowed false cs
    else if c = ' ' ∨ (c = '\t' ∧ (inFlow ∨ !keyAllowed)) then
      toNextToken inFlow keyAllowed false cs
    else if c = '#' then comment keyAllowed cs
    else if isBreak c then toNextToken inFlow (keyAllowed || !inFlow) true cs
    else (keyAllowed, c :: cs)
where
  comment (keyAllowed : Bool) : List Char → Bool × List Char
    | [] => (keyAllowed, [])
    | c :: cs =>
      if isBreak c then toNextToken inFlow (keyAllowed || !inFlow) true cs
      else comment keyAllowed cs

def skipGap (l : Lexer) : Lexer :=
  let (keyAllowed, rest) := toNextToken l.inFlow l.keyAllowed (l.cursor.column = 0) l.rest
  { l with cursor := l.cursor.moveTo rest, keyAllowed }

/-! ### Collections -/

def openFlow (l : Lexer) (t : Token) : Option Lexer := do
  let l ← l.noteKey
  return { l with key := none, outerKeys := l.key :: l.outerKeys, keyAllowed := true }.indicator t

def closeFlow (l : Lexer) (t : Token) : Option Lexer := do
  let l ← l.dropKey
  let l := match l.outerKeys with
    | [] => l
    | key :: outerKeys => { l with key, outerKeys }
  return { l with keyAllowed := false }.indicator t

def flowEntry (l : Lexer) : Option Lexer := do
  return { ← l.dropKey with keyAllowed := true }.indicator .flowEntry

def blockEntry (l : Lexer) : Option Lexer := do
  if !l.inFlow && !l.keyAllowed then none
  let l := l.indentTo l.cursor.column l.tokens.size .blockSequenceStart
  return { ← l.dropKey with keyAllowed := true }.indicator .blockEntry

def explicitKey (l : Lexer) : Option Lexer := do
  if !l.inFlow && !l.keyAllowed then none
  let l := l.indentTo l.cursor.column l.tokens.size .blockMappingStart
  return { ← l.dropKey with keyAllowed := !l.inFlow }.indicator .key

def value (l : Lexer) : Option Lexer :=
  match l.key with
  | some k =>
    let l := { l with tokens := l.tokens.insertIdxIfInBounds k.token .key }
    let l := l.indentTo k.column k.token .blockMappingStart
    some <| { l with key := none, keyAllowed := false }.indicator .value
  | none =>
    if !l.inFlow && !l.keyAllowed then none
    else
      let l := l.indentTo l.cursor.column l.tokens.size .blockMappingStart
      some <| { l with keyAllowed := !l.inFlow }.indicator .value

/-! ### Names and tags -/

def isWordChar (c : Char) : Bool := c.isAlphanum || c == '_' || c == '-'

def name? (cs : List Char) : Option (List Char × List Char) :=
  let name := cs.takeWhile isWordChar
  let rest := cs.dropWhile isWordChar
  let ends := atGap rest || rest.head?.any ['?', ':', ',', ']', '}', '%', '@', '`'].contains
  if name = [] ∨ !ends then none else some (name, rest)

def leadingByte? (n : Nat) : Option (Nat × Nat) :=
  if n < 0x80 then some (1, n)
  else if n < 0xc0 then none
  else if n < 0xe0 then some (2, n - 0xc0)
  else if n < 0xf0 then some (3, n - 0xe0)
  else if n < 0xf8 then some (4, n - 0xf0)
  else none

def percentByte? : List Char → Option (Nat × List Char)
  | '%' :: cs => hexNumber? 2 0 cs
  | _ => none

def furtherBytes? : Nat → Nat → List Char → Option (Nat × List Char)
  | 0, n, cs => some (n, cs)
  | k + 1, n, cs => do
    let (b, cs) ← percentByte? cs
    if 0x80 ≤ b ∧ b < 0xc0 then furtherBytes? k (n * 0x40 + (b - 0x80)) cs else none

/-- Reads what is written as the bytes of a character. The first byte says how many there are; what
they spell need not be a character, and one that is spelled with too many bytes is none. -/
def percentChar? (cs : List Char) : Option (Option Char × List Char) := do
  let (b, cs) ← percentByte? cs
  let (width, n) ← leadingByte? b
  let (n, cs) ← furtherBytes? (width - 1) n cs
  return ((charOf? n).filter (·.utf8Size = width), cs)

def isTagChar (verbatim : Bool) (c : Char) : Bool :=
  isWordChar c || ";/?:@&=+$.%!~*'()".toList.contains c ||
    (verbatim && (c == ',' || c == '[' || c == ']'))

def tagText? (verbatim : Bool) (text : TagText) (cs : List Char) : Option (TagText × List Char) :=
  match cs with
  | [] => some (text, [])
  | c :: rest =>
    if !isTagChar verbatim c then some (text, cs)
    else if c = '%' then
      match percentChar? cs with
      | none => none
      | some (d, after) =>
        if after.length < rest.length then tagText? verbatim (text ++ [d]) after else none
    else tagText? verbatim (text ++ [some c]) rest
termination_by cs.length
decreasing_by all_goals simp_all <;> omega

/-- A tag ends at a null character, whatever is written after it. -/
def upToNull (text : TagText) : TagText := text.takeWhile (· != some '\x00')

def handle? : List Char → Option (List Char × List Char)
  | '!' :: cs =>
    let word := cs.takeWhile isWordChar
    match cs.dropWhile isWordChar with
    | '!' :: rest => some ('!' :: word ++ ['!'], rest)
    | rest => some ('!' :: word, rest)
  | _ => none

/-- Reads a tag: its handle and what follows that. A tag without a handle is one by itself. -/
def tag? (cs : List Char) : Option ((List Char × TagText) × List Char) := do
  match cs with
  | '!' :: '<' :: cs =>
    let (text, rest) ← tagText? true [] cs
    match text, rest with
    | _ :: _, '>' :: rest => return (([], upToNull text), rest)
    | _, _ => none
  | cs =>
    let (handle, rest) ← handle? cs
    if 1 < handle.length ∧ handle.getLast? = some '!' then
      let (text, rest) ← tagText? false [] rest
      if text = [] then none
      return ((handle, upToNull text), rest)
    else
      let (text, rest) ← tagText? false (handle.tail.map some) rest
      let text := upToNull text
      return (if text = [] then ([], [some '!']) else (['!'], text), rest)

/-! ### Directives -/

def versionNumber? (cs : List Char) : Option (Nat × List Char) :=
  let digits := cs.takeWhile Char.isDigit
  if digits = [] ∨ 9 < digits.length then none
  else some (digits.foldl (fun n c => n * 10 + (c.toNat - '0'.toNat)) 0, cs.drop digits.length)

def directiveValue? (name cs : List Char) : Option (Token × List Char) := do
  let cs := cs.dropWhile isPad
  if name = "YAML".toList then
    let (major, cs) ← versionNumber? cs
    match cs with
    | '.' :: cs =>
      let (minor, cs) ← versionNumber? cs
      return (.version major minor, cs)
    | _ => none
  else if name = "TAG".toList then
    let (handle, cs) ← handle? cs
    if handle ≠ ['!'] ∧ ¬(1 < handle.length ∧ handle.getLast? = some '!') then none
    if !cs.head?.any isPad then none
    let (stem, cs) ← tagText? true [] (cs.dropWhile isPad)
    if stem = [] ∨ !atGap cs then none
    return (.tagHandle (String.ofList handle) (upToNull stem), cs)
  else none

def directive? (cs : List Char) : Option (Token × List Char) := do
  let name := cs.takeWhile isWordChar
  let cs := cs.dropWhile isWordChar
  if name = [] ∨ !atGap cs then none
  let (token, cs) ← directiveValue? name cs
  let cs := cs.dropWhile isPad
  let cs := if cs.head? = some '#' then cs.dropWhile (!isBreak ·) else cs
  if !atBreak cs then none
  return (token, cs.tail)

/-! ### Steps -/

def take (l : Lexer) (t : Token) (rest : List Char) : Lexer :=
  { l with cursor := l.cursor.moveTo rest }.push t

def property (l : Lexer) (read : List Char → Option (Token × List Char)) : Option Lexer := do
  let l ← l.noteKey
  let (t, rest) ← read l.rest
  return { l with keyAllowed := false }.take t rest

def quotedScalar (l : Lexer) (double : Bool) : Option Lexer :=
  l.property fun cs => (quoted? double cs.tail).map fun (text, rest) =>
    (.scalar (if double then .doubleQuoted else .singleQuoted) (String.ofList text), rest)

def plainScalar (l : Lexer) : Option Lexer := do
  let l ← l.noteKey
  let p ← plain? l.inFlow (l.indents.head?.elim 0 (· + 1)) l.rest
  return { l with keyAllowed := p.ended }.take (.scalar .plain (String.ofList p.text)) p.rest

def blockScalar (l : Lexer) (folded : Bool) : Option Lexer := do
  let l ← l.dropKey
  let (text, rest) ← block? folded l.indents.head? l.rest.tail
  return { l with keyAllowed := true }.take
    (.scalar (if folded then .folded else .literal) (String.ofList text)) rest

def divider (l : Lexer) (t : Token) : Option Lexer := do
  let l ← (l.unindentTo none).dropKey
  return ({ l with keyAllowed := false }.skip 3).push t

def directiveLine (l : Lexer) : Option Lexer := do
  let l ← (l.unindentTo none).dropKey
  let (t, rest) ← directive? l.rest.tail
  return { l with keyAllowed := false }.take t rest

def anchorOf (make : String → Token) (cs : List Char) : Option (Token × List Char) :=
  (name? cs.tail).map fun (name, rest) => (make (String.ofList name), rest)

def tagOf (inFlow : Bool) (cs : List Char) : Option (Token × List Char) := do
  let ((handle, suffix), rest) ← tag? cs
  if !atGap rest && !(inFlow && rest.head? == some ',') then none
  return (.tag (String.ofList handle) suffix, rest)

def beginsPlain (inFlow : Bool) (c : Char) (after : List Char) : Bool :=
  if c = '-' then !after.head?.any isPad
  else if c = ':' ∨ c = '?' then !inFlow && !atGap after
  else !isGap c && !",[]{}#&*!|>'\"%@`".toList.contains c

/-- Reads the next token, and those that indentation brings with it; `none` if there is none that
could begin here. -/
def token? (l : Lexer) : Option Lexer :=
  match l.rest with
  | [] => some l
  | c :: cs =>
    if l.cursor.column = 0 ∧ c = '%' then l.directiveLine
    else if l.cursor.column = 0 ∧ atDivider (c :: cs) then
      l.divider (if c = '-' then .documentStart else .documentEnd)
    else if c = '[' then l.openFlow .flowSequenceStart
    else if c = '{' then l.openFlow .flowMappingStart
    else if c = ']' then l.closeFlow .flowSequenceEnd
    else if c = '}' then l.closeFlow .flowMappingEnd
    else if c = ',' then l.flowEntry
    else if c = '-' ∧ atGap cs then l.blockEntry
    else if c = '?' ∧ (l.inFlow ∨ atGap cs) then l.explicitKey
    else if c = ':' ∧ (l.inFlow ∨ atGap cs) then l.value
    else if c = '*' then l.property (anchorOf .reference)
    else if c = '&' then l.property (anchorOf .anchor)
    else if c = '!' then l.property (tagOf l.inFlow)
    else if c = '|' ∧ !l.inFlow then l.blockScalar false
    else if c = '>' ∧ !l.inFlow then l.blockScalar true
    else if c = '\'' then l.quotedScalar false
    else if c = '"' then l.quotedScalar true
    else if beginsPlain l.inFlow c cs then l.plainScalar
    else none

def run? (l : Lexer) : Option (List Token) :=
  match l.skipGap.dropStale with
  | none => none
  | some next =>
    if next.rest = [] then ((next.unindentTo none).dropKey).map (·.tokens.toList)
    else
      match (next.unindentTo (some next.cursor.column)).token? with
      | none => none
      | some next => if next.rest.length < l.rest.length then next.run? else none
termination_by l.rest.length

end Lexer

def Token.scan? (cs : List Char) : Option (List Token) :=
  if cs.all isAllowed then
    Lexer.run? { cursor := { rest := unifyBreaks cs } }
  else none

end TemplateLint.Yaml
