import TemplateLint.Expr.Number
import TemplateLint.Expr.Token
import TemplateLint.Text.Basic
import TemplateLint.Text.Quoting

/-! Cutting the text of an expression into tokens. Every reader is told the byte offset of its
text and gives back what follows the token; that rest is never longer than what it was given. -/
namespace TemplateLint.Expr
open Text

def simpleEscape? (quote c : Char) : Option Char :=
  if c = quote then some c else
  match c with
  | 'n' => some '\n'
  | 't' => some '\t'
  | 'r' => some '\r'
  | 'a' => some '\x07'
  | 'b' => some '\x08'
  | 'f' => some '\x0c'
  | 'v' => some '\x0b'
  | '\\' => some '\\'
  | _ => none

def hexWidth? : Char → Option Nat
  | 'x' => some 2
  | 'u' => some 4
  | 'U' => some 8
  | _ => none

def isOctal (c : Char) : Bool := '0' ≤ c && c ≤ '7'

def charOfNat? (n : Nat) : Option Char :=
  if n.isValidChar then some (Char.ofNat n) else none

def readHex (offset width : Nat) (cs : List Char) : Except Malformed (Char × List Char) :=
  if cs.length < width then .error ⟨.badHex, offset⟩ else
  match Number.natural? 16 ((cs.take width).map Char.toLower) with
  | none => .error ⟨.badHex, offset⟩
  | some n =>
    match charOfNat? n with
    | some c => .ok (c, cs.drop width)
    | none => .error ⟨.invalidEscape, offset⟩

def readOctal (offset : Nat) (first : Char) : List Char → Except Malformed (Char × List Char)
  | second :: third :: rest =>
    match Number.natural? 8 [first, second, third] with
    | some n => .ok (Char.ofNat n, rest)
    | none => .error ⟨.badOctal, offset⟩
  | _ => .error ⟨.badOctal, offset⟩

def readEscape (quote : Char) (offset : Nat) : List Char → Except Malformed (Char × List Char)
  | [] => .error ⟨.unterminatedEscape, offset⟩
  | c :: cs =>
    match simpleEscape? quote c with
    | some value => .ok (value, cs)
    | none =>
      match hexWidth? c with
      | some width => readHex offset width cs
      | none => if isOctal c then readOctal offset c cs else .error ⟨.unknownEscape c, offset⟩

theorem length_of_readHex {offset width : Nat} {c : Char} {cs rest : List Char}
    (h : readHex offset width cs = .ok (c, rest)) : rest.length + width = cs.length := by
  unfold readHex at h
  repeat' split at h
  all_goals cases h
  rw [List.length_drop]
  omega

theorem length_of_readOctal {offset : Nat} {first c : Char} {cs rest : List Char}
    (h : readOctal offset first cs = .ok (c, rest)) : rest.length + 2 = cs.length := by
  unfold readOctal at h
  repeat' split at h
  all_goals cases h
  rfl

theorem length_lt_of_readEscape {quote c : Char} {offset : Nat} {cs rest : List Char}
    (h : readEscape quote offset cs = .ok (c, rest)) : rest.length < cs.length := by
  unfold readEscape at h
  split at h
  · simp at h
  · simp only [List.length_cons, Nat.lt_succ_iff]
    split at h
    · cases h; exact Nat.le_refl _
    · split at h
      · exact Nat.le.intro (length_of_readHex h)
      · split at h
        · exact Nat.le.intro (length_of_readOctal h)
        · simp at h

/-- The value of a string up to its closing quote, and what follows. `start` is the offset of the
opening quote. A string ends on the line where it starts. -/
def readString (start offset : Nat) (cs : List Char) :
    Except Malformed (List Char × List Char) :=
  match cs with
  | [] => .error ⟨.unterminatedString, start⟩
  | c :: rest =>
    if c = '\n' then .error ⟨.unterminatedString, start⟩
    else if c = '"' then .ok ([], rest)
    else if c = '\\' then
      match h : readEscape '"' (offset + 1) rest with
      | .error e => .error e
      | .ok (value, tail) =>
        have := length_lt_of_readEscape h
        match readString start (offset + 1 + (byteLength rest - byteLength tail)) tail with
        | .error e => .error e
        | .ok (values, tail) => .ok (value :: values, tail)
    else
      match readString start (offset + c.utf8Size) rest with
      | .error e => .error e
      | .ok (values, tail) => .ok (c :: values, tail)
termination_by cs.length

theorem length_le_of_readString {start offset : Nat} {cs value rest : List Char}
    (h : readString start offset cs = .ok (value, rest)) : rest.length ≤ cs.length := by
  fun_induction readString start offset cs generalizing value rest with
  | case1 => simp at h
  | case2 => simp at h
  | case3 => cases h; simp
  | case4 => simp at h
  | case5 => simp at h
  | case6 =>
    rename_i hs _ _ ih
    cases h
    have := ih hs
    simp only [List.length_cons]
    omega
  | case7 => simp at h
  | case8 =>
    rename_i hs ih
    cases h
    have := ih hs
    simp only [List.length_cons]
    omega

def readChar (start : Nat) : List Char → Except Malformed (Char × List Char)
  | [] => .error ⟨.emptyChar, start⟩
  | c :: cs =>
    if c = '\'' then .error ⟨.emptyChar, start⟩ else
    let value := if c = '\\' then readEscape '\'' (start + 2) cs else .ok (c, cs)
    match value with
    | .error e => .error e
    | .ok (value, '\'' :: rest) => .ok (value, rest)
    | .ok _ => .error ⟨.unterminatedChar, start⟩

theorem length_le_of_readChar {start : Nat} {c : Char} {cs rest : List Char}
    (h : readChar start cs = .ok (c, rest)) : rest.length ≤ cs.length := by
  unfold readChar at h
  split at h
  · simp at h
  · next d ds =>
    split at h
    · simp at h
    · dsimp only at h
      split at h
      · simp at h
      · next value tail hv =>
        cases h
        split at hv
        · have := length_lt_of_readEscape hv
          simp only [List.length_cons] at this ⊢
          omega
        · cases hv; simp only [List.length_cons]; omega
      · simp at h

/-- Index keys may be quoted in three ways; a raw quote knows no escapes. -/
def indexRule : BracketRule where
  isQuote c := c == '"' || c == '`' || c == '\''
  hasEscapes q := q != '`'

def readIndex (start : Nat) (cs : List Char) : Except Malformed (TokenKind × List Char) :=
  match cutBracket? indexRule .outside cs with
  | none => .error ⟨.unclosedIndex, start⟩
  | some (key, rest) =>
    if trim key = [] then .error ⟨.emptyIndex, start⟩
    else .ok (.index (String.ofList (trim key)), rest)

theorem length_le_of_readIndex {start : Nat} {cs rest : List Char} {kind : TokenKind}
    (h : readIndex start cs = .ok (kind, rest)) : rest.length ≤ cs.length := by
  unfold readIndex at h
  split at h
  · simp at h
  · next key tail hk =>
    split at h
    · simp at h
    · cases h
      simp only [eq_of_cutBracket? hk, List.length_append, List.length_cons]
      omega

/-- Whether `c` goes on with a number after `prev`: a sign does so after an exponent's letter. -/
def isNumberChar (hex : Bool) (prev c : Char) : Bool :=
  c.isAlphanum || c == '_' || c == '.' ||
    ((c == '+' || c == '-') &&
      (prev == 'p' || prev == 'P' || (!hex && (prev == 'e' || prev == 'E'))))

def takeNumber (hex : Bool) (prev : Char) : List Char → List Char × List Char
  | [] => ([], [])
  | c :: cs =>
    if isNumberChar hex prev c then
      (c :: (takeNumber hex c cs).1, (takeNumber hex c cs).2)
    else ([], c :: cs)

theorem takeNumber_append (hex : Bool) (prev : Char) (cs : List Char) :
    (takeNumber hex prev cs).1 ++ (takeNumber hex prev cs).2 = cs := by
  induction cs generalizing prev with
  | nil => rfl
  | cons c cs ih => by_cases h : isNumberChar hex prev c <;> simp [takeNumber, h, ih]

def isHex : List Char → Bool
  | '0' :: 'x' :: _ | '0' :: 'X' :: _ => true
  | _ => false

def numberText : List Char → List Char × List Char
  | [] => ([], [])
  | c :: cs =>
    if c = '+' ∨ c = '-' then
      (c :: (takeNumber (isHex cs) ' ' cs).1, (takeNumber (isHex cs) ' ' cs).2)
    else takeNumber (isHex (c :: cs)) ' ' (c :: cs)

theorem numberText_append (cs : List Char) : (numberText cs).1 ++ (numberText cs).2 = cs := by
  unfold numberText
  split
  · rfl
  · split <;> simp [takeNumber_append]

def literalOfNumber : Number.Value → Literal
  | .int v => .int v
  | .float v => .float v
  | .imaginary v => .imaginary v

def readNumber (start : Nat) (cs : List Char) : Except Malformed (TokenKind × List Char) :=
  match Number.value? (numberText cs).1 with
  | some value => .ok (.literal (literalOfNumber value), (numberText cs).2)
  | none => .error ⟨.badNumber (String.ofList (numberText cs).1), start⟩

def wordKind (name : List Char) : TokenKind :=
  match String.ofList name with
  | "true" => .literal (.bool true)
  | "false" => .literal (.bool false)
  | "nil" => .literal .nil
  | name => .ident name

def startsNumber (c : Char) (cs : List Char) : Bool :=
  c.isDigit || (c == '.' && cs.head?.any Char.isDigit) ||
    ((c == '+' || c == '-') && cs.head?.any fun d => d.isDigit || d == '.')

def readToken (start : Nat) (c : Char) (cs : List Char) :
    Except Malformed (TokenKind × List Char) :=
  if startsNumber c cs then readNumber start (c :: cs)
  else if isNameStart c then .ok (wordKind (c :: cs.takeWhile isNameChar), cs.dropWhile isNameChar)
  else match c with
  | '(' => .ok (.leftParen, cs)
  | ')' => .ok (.rightParen, cs)
  | '|' => .ok (.pipe, cs)
  | '[' => readIndex start cs
  | '.' =>
    if cs.takeWhile isNameChar = [] then .ok (.dot, cs)
    else .ok (.field (String.ofList (cs.takeWhile isNameChar)), cs.dropWhile isNameChar)
  | '$' => .ok (.variable (String.ofList (cs.takeWhile isNameChar)), cs.dropWhile isNameChar)
  | '"' =>
    match readString start (start + 1) cs with
    | .ok (value, rest) => .ok (.literal (.str (String.ofList value)), rest)
    | .error e => .error e
  | '`' =>
    match cut? ['`'] cs with
    | some (value, rest) => .ok (.literal (.str (String.ofList value)), rest)
    | none => .error ⟨.unterminatedRaw, start⟩
  | '\'' =>
    match readChar start cs with
    | .ok (value, rest) => .ok (.literal (.char value), rest)
    | .error e => .error e
  | ':' | '=' | ',' => .error ⟨.declaration, start⟩
  | _ => .error ⟨.unexpectedChar c, start⟩

theorem length_dropWhile_le (p : Char → Bool) (cs : List Char) :
    (cs.dropWhile p).length ≤ cs.length :=
  (List.dropWhile_suffix p).length_le

theorem takeNumber_cons {hex : Bool} {prev c : Char} (cs : List Char)
    (h : isNumberChar hex prev c = true) :
    (takeNumber hex prev (c :: cs)).2 = (takeNumber hex c cs).2 := by
  simp [takeNumber, h]

theorem length_takeNumber_le (hex : Bool) (prev : Char) (cs : List Char) :
    (takeNumber hex prev cs).2.length ≤ cs.length := by
  have h := congrArg List.length (takeNumber_append hex prev cs)
  simp only [List.length_append] at h
  omega

theorem length_numberText_le {c : Char} {cs : List Char} (h : startsNumber c cs = true) :
    (numberText (c :: cs)).2.length ≤ cs.length := by
  simp only [numberText]
  split
  · exact length_takeNumber_le ..
  · next hs =>
    have hc : isNumberChar (isHex (c :: cs)) ' ' c = true := by
      simp only [startsNumber, isNumberChar, Char.isAlphanum, Bool.or_eq_true, Bool.and_eq_true,
        beq_iff_eq] at h ⊢
      rcases h with (h | h) | h
      · simp [h]
      · simp [h.1]
      · exact absurd h.1 hs
    rw [takeNumber_cons cs hc]
    exact length_takeNumber_le ..

theorem length_le_of_readNumber {start : Nat} {c : Char} {cs rest : List Char} {kind : TokenKind}
    (hstarts : startsNumber c cs = true) (h : readNumber start (c :: cs) = .ok (kind, rest)) :
    rest.length ≤ cs.length := by
  unfold readNumber at h
  split at h
  · cases h
    exact length_numberText_le hstarts
  · cases h

/-- How a token is read, by its kind. -/
inductive TokenRead (start : Nat) : Char → List Char → TokenKind → List Char → Prop where
  | number {c : Char} {cs rest : List Char} {kind : TokenKind} (starts : startsNumber c cs = true)
      (read : readNumber start (c :: cs) = .ok (kind, rest)) : TokenRead start c cs kind rest
  | word {c : Char} {cs : List Char} (plain : startsNumber c cs = false)
      (name : isNameStart c = true) :
      TokenRead start c cs (wordKind (c :: cs.takeWhile isNameChar)) (cs.dropWhile isNameChar)
  | leftParen (cs : List Char) : TokenRead start '(' cs .leftParen cs
  | rightParen (cs : List Char) : TokenRead start ')' cs .rightParen cs
  | pipe (cs : List Char) : TokenRead start '|' cs .pipe cs
  | index {cs rest : List Char} {kind : TokenKind} (read : readIndex start cs = .ok (kind, rest)) :
      TokenRead start '[' cs kind rest
  | dot {cs : List Char} (plain : startsNumber '.' cs = false)
      (alone : cs.takeWhile isNameChar = []) : TokenRead start '.' cs .dot cs
  | field {cs : List Char} (plain : startsNumber '.' cs = false)
      (named : cs.takeWhile isNameChar ≠ []) :
      TokenRead start '.' cs (.field (String.ofList (cs.takeWhile isNameChar)))
        (cs.dropWhile isNameChar)
  | dollar (cs : List Char) :
      TokenRead start '$' cs (.variable (String.ofList (cs.takeWhile isNameChar)))
        (cs.dropWhile isNameChar)
  | string {cs value rest : List Char} (read : readString start (start + 1) cs = .ok (value, rest)) :
      TokenRead start '"' cs (.literal (.str (String.ofList value))) rest
  | raw {cs value rest : List Char} (cut : cut? ['`'] cs = some (value, rest)) :
      TokenRead start '`' cs (.literal (.str (String.ofList value))) rest
  | char {cs rest : List Char} {value : Char} (read : readChar start cs = .ok (value, rest)) :
      TokenRead start '\'' cs (.literal (.char value)) rest

theorem tokenRead_of_readToken {start : Nat} {c : Char} {cs rest : List Char} {kind : TokenKind}
    (h : readToken start c cs = .ok (kind, rest)) : TokenRead start c cs kind rest := by
  unfold readToken at h
  split at h
  · next hstarts => exact .number hstarts h
  · next hplain =>
    rw [Bool.not_eq_true] at hplain
    split at h
    · next hname =>
      cases h
      exact .word hplain hname
    · split at h
      · cases h; exact .leftParen cs
      · cases h; exact .rightParen cs
      · cases h; exact .pipe cs
      · exact .index h
      · split at h
        · next halone => cases h; exact .dot hplain halone
        · next hnamed => cases h; exact .field hplain hnamed
      · cases h; exact .dollar cs
      · split at h
        · next hread => cases h; exact .string hread
        · cases h
      · split at h
        · next hcut => cases h; exact .raw hcut
        · cases h
      · split at h
        · next hread => cases h; exact .char hread
        · cases h
      all_goals cases h

theorem TokenRead.readToken_eq {start : Nat} {c : Char} {cs rest : List Char} {kind : TokenKind}
    (h : TokenRead start c cs kind rest) : readToken start c cs = .ok (kind, rest) := by
  unfold readToken
  cases h with
  | number hstarts hread => rw [if_pos hstarts, hread]
  | word hplain hname => rw [if_neg (by simp [hplain]), if_pos hname]
  | leftParen | rightParen | pipe | dollar =>
    rw [if_neg (by simp [startsNumber]), if_neg (by decide +kernel)]
    rfl
  | dot hplain halone =>
    rw [if_neg (by simp [hplain]), if_neg (by decide +kernel)]
    exact if_pos halone
  | field hplain hnamed =>
    rw [if_neg (by simp [hplain]), if_neg (by decide +kernel)]
    exact if_neg hnamed
  | index hread | string hread | raw hread | char hread =>
    rw [if_neg (by simp [startsNumber]), if_neg (by decide +kernel)]
    simp only [hread]

theorem length_le_of_readToken {start : Nat} {c : Char} {cs rest : List Char} {kind : TokenKind}
    (h : readToken start c cs = .ok (kind, rest)) : rest.length ≤ cs.length := by
  cases tokenRead_of_readToken h with
  | number hstarts hread => exact length_le_of_readNumber hstarts hread
  | word | field | dollar => exact length_dropWhile_le ..
  | leftParen | rightParen | pipe | dot => exact Nat.le_refl _
  | index hread => exact length_le_of_readIndex hread
  | string hread => exact length_le_of_readString hread
  | raw hcut =>
    simp only [(eq_of_cut? hcut).2, List.length_append]
    omega
  | char hread => exact length_le_of_readChar hread

def tokenize (offset : Nat) (cs : List Char) : Except Malformed (List Token) :=
  match cs with
  | [] => .ok []
  | c :: rest =>
    if isBlank c then tokenize (offset + c.utf8Size) rest
    else match h : readToken offset c rest with
      | .error e => .error e
      | .ok (kind, tail) =>
        have := length_le_of_readToken h
        let stop := offset + (byteLength (c :: rest) - byteLength tail)
        match tokenize stop tail with
        | .error e => .error e
        | .ok tokens => .ok (⟨kind, ⟨offset, stop⟩⟩ :: tokens)
termination_by cs.length

end TemplateLint.Expr
