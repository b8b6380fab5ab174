import TemplateLint.Source.Span
import TemplateLint.Text.Basic
import TemplateLint.Text.Quoting

/-! Template source as a sequence of pieces: plain text, actions between delimiters, and
stretches that begin like an action and cannot be read as one. The pieces concatenate to the
source, whatever the delimiters are. -/
namespace TemplateLint
open Text

structure Delimiters where
  left : String := "\x7b\x7b"
  right : String := "\x7d\x7d"
deriving DecidableEq, Repr, Inhabited

namespace Delimiters

def wrap (d : Delimiters) (text : String) : String := d.left ++ text ++ d.right

def actions (d : Delimiters) (texts : List String) : String := String.join (texts.map d.wrap)

end Delimiters

inductive Fault where
  | unterminatedAction
  | unterminatedString
  | unclosedComment
  | commentWithoutDelimiter
deriving DecidableEq, Repr

/-- An action cut in three: its trim markers belong to the delimiters. -/
structure ActionText where
  opening : List Char
  inner : List Char
  closing : List Char
  trimLeft : Bool
  trimRight : Bool
  comment : Bool
deriving DecidableEq, Repr

inductive Piece where
  | text (chars : List Char)
  | action (parts : ActionText)
  | malformed (fault : Fault) (chars : List Char)
deriving DecidableEq, Repr

namespace ActionText

def raw (a : ActionText) : List Char := a.opening ++ a.inner ++ a.closing

end ActionText

namespace Piece

def raw : Piece → List Char
  | text cs => cs
  | action a => a.raw
  | malformed _ cs => cs

def isTrimSpace (c : Char) : Bool := c == ' ' || c == '\t' || c == '\r' || c == '\n'

def openMarker : List Char → List Char × List Char
  | '-' :: c :: cs => if isTrimSpace c then (['-'], c :: cs) else ([], '-' :: c :: cs)
  | cs => ([], cs)

def endsTrimmed (inner : List Char) : Bool :=
  match inner.reverse with
  | '-' :: c :: _ => isTrimSpace c
  | _ => false

/-- Cuts the text at the first right delimiter that is not inside a literal. A raw literal knows
no escapes; the other two end at the latest with their line, which leaves the action without end. -/
def cutClose? (right : List Char) : Quoting → List Char → Option (List Char × List Char)
  | _, [] => none
  | .outside, c :: cs =>
    if c = '"' ∨ c = '\'' ∨ c = '`' then
      (cutClose? right (.inside c) cs).map fun parts => (c :: parts.1, parts.2)
    else match strip? right (c :: cs) with
      | some rest => some ([], rest)
      | none => (cutClose? right .outside cs).map fun parts => (c :: parts.1, parts.2)
  | .escaped q, c :: cs =>
    (cutClose? right (.inside q) cs).map fun parts => (c :: parts.1, parts.2)
  | .inside q, c :: cs =>
    if c = q then (cutClose? right .outside cs).map fun parts => (c :: parts.1, parts.2)
    else if q = '`' then (cutClose? right (.inside q) cs).map fun parts => (c :: parts.1, parts.2)
    else if c = '\\' then (cutClose? right (.escaped q) cs).map fun parts => (c :: parts.1, parts.2)
    else if c = '\n' then none
    else (cutClose? right (.inside q) cs).map fun parts => (c :: parts.1, parts.2)

/-- Reads a comment. `lead` is what stands between the opening and the comment's text, the slash
and star included. The trim marker after a comment is set off by exactly one space. -/
def readComment (right opening lead rest : List Char) (trimLeft : Bool) : Piece × List Char :=
  match cut? ['*', '/'] rest with
  | none => (malformed .unclosedComment (opening ++ lead ++ rest), [])
  | some (body, after) =>
    let inner := lead ++ body ++ ['*', '/']
    match strip? (' ' :: '-' :: right) after with
    | some tail => (action ⟨opening, inner, ' ' :: '-' :: right, trimLeft, true, true⟩, tail)
    | none =>
      match strip? right after with
      | some tail => (action ⟨opening, inner, right, trimLeft, false, true⟩, tail)
      | none => (malformed .commentWithoutDelimiter (opening ++ inner), after)

def readPlain (right opening body : List Char) (trimLeft : Bool) : Piece × List Char :=
  match cutClose? right .outside body with
  | some (inner, tail) =>
    if endsTrimmed inner then
      (action ⟨opening, inner.dropLast, '-' :: right, trimLeft, true, false⟩, tail)
    else (action ⟨opening, inner, right, trimLeft, false, false⟩, tail)
  | none =>
    match cut? right body with
    | some (inner, tail) => (malformed .unterminatedString (opening ++ inner ++ right), tail)
    | none => (malformed .unterminatedAction (opening ++ body), [])

/-- Reads what a left delimiter starts; `rest` is the source after that delimiter. Only an opening
with a trim marker may have spaces between it and a comment. -/
def read (left right rest : List Char) : Piece × List Char :=
  let (marker, body) := openMarker rest
  let blanks := if marker = [] then [] else body.takeWhile isTrimSpace
  match strip? (blanks ++ ['/', '*']) body with
  | some comment =>
    readComment right (left ++ marker) (blanks ++ ['/', '*']) comment (marker ≠ [])
  | none => readPlain right (left ++ marker) body (marker ≠ [])

theorem openMarker_append (cs : List Char) : (openMarker cs).1 ++ (openMarker cs).2 = cs := by
  unfold openMarker
  split
  · split <;> rfl
  · rfl

theorem eq_of_cutClose? {right inner tail : List Char} {q : Quoting} {cs : List Char}
    (h : cutClose? right q cs = some (inner, tail)) : cs = inner ++ right ++ tail := by
  induction cs generalizing q inner with
  | nil => simp [cutClose?] at h
  | cons c cs ih =>
    have step {q' : Quoting}
        (h : (cutClose? right q' cs).map (fun parts => (c :: parts.1, parts.2)) =
          some (inner, tail)) : c :: cs = inner ++ right ++ tail := by
      obtain ⟨parts, hp, he⟩ := Option.map_eq_some_iff.1 h
      cases he
      simp [ih hp]
    cases q with
    | outside =>
      simp only [cutClose?] at h
      split at h
      · exact step h
      · split at h
        · next rest hs => cases h; simpa using strip?_eq_some_iff.1 hs
        · exact step h
    | escaped q => exact step h
    | inside q =>
      simp only [cutClose?] at h
      repeat' split at h
      all_goals first | exact step h | simp at h

theorem eq_of_endsTrimmed {inner : List Char} (h : endsTrimmed inner = true) :
    inner.dropLast ++ ['-'] = inner := by
  unfold endsTrimmed at h
  split at h
  · next c cs hr =>
    have : inner = (('-' :: c :: cs).reverse) := by rw [← hr, List.reverse_reverse]
    simp [this]
  · simp at h

theorem readComment_append (right opening lead rest : List Char) (trimLeft : Bool) :
    (readComment right opening lead rest trimLeft).1.raw ++
      (readComment right opening lead rest trimLeft).2 = opening ++ lead ++ rest := by
  unfold readComment
  split
  · simp [raw]
  · next body after hc =>
    have hr := (eq_of_cut? hc).2
    split
    · next tail hs => simp [raw, ActionText.raw, hr, strip?_eq_some_iff.1 hs]
    · split
      · next tail hs => simp [raw, ActionText.raw, hr, strip?_eq_some_iff.1 hs]
      · simp [raw, hr]

theorem readPlain_append (right opening body : List Char) (trimLeft : Bool) :
    (readPlain right opening body trimLeft).1.raw ++ (readPlain right opening body trimLeft).2 =
      opening ++ body := by
  unfold readPlain
  split
  · next inner tail hc =>
    have hb := eq_of_cutClose? hc
    split
    · next ht =>
      have he := eq_of_endsTrimmed ht
      simp only [raw, ActionText.raw, hb]
      conv => rhs; rw [← he]
      simp
    · simp [raw, ActionText.raw, hb]
  · split
    · next inner tail hc => simp [raw, (eq_of_cut? hc).2]
    · simp [raw]

theorem read_append (left right rest : List Char) :
    (read left right rest).1.raw ++ (read left right rest).2 = left ++ rest := by
  unfold read
  have hm := openMarker_append rest
  generalize openMarker rest = parts at hm
  obtain ⟨marker, body⟩ := parts
  dsimp only at hm ⊢
  split
  · next comment hs =>
    rw [readComment_append, ← hm]
    conv => rhs; rw [strip?_eq_some_iff.1 hs]
    simp
  · rw [readPlain_append, ← hm]; simp

theorem readComment_starts (right opening lead rest : List Char) (trimLeft : Bool) :
    opening <+: (readComment right opening lead rest trimLeft).1.raw := by
  unfold readComment
  repeat' split
  all_goals simp [raw, ActionText.raw, List.append_assoc]

theorem readPlain_starts (right opening body : List Char) (trimLeft : Bool) :
    opening <+: (readPlain right opening body trimLeft).1.raw := by
  unfold readPlain
  repeat' split
  all_goals simp [raw, ActionText.raw, List.append_assoc]

theorem read_starts (left right rest : List Char) : left <+: (read left right rest).1.raw := by
  have h := List.prefix_append left (openMarker rest).1
  unfold read
  dsimp only
  split
  · exact h.trans (readComment_starts ..)
  · exact h.trans (readPlain_starts ..)

theorem length_read_le (left right rest : List Char) :
    (read left right rest).2.length ≤ rest.length := by
  have h := congrArg List.length (read_append left right rest)
  have hl := (read_starts left right rest).length_le
  simp only [List.length_append] at h
  omega

def ofText (cs : List Char) : List Piece := if cs = [] then [] else [text cs]

/-- Cuts the source into pieces: each left delimiter that no earlier action covers starts one. -/
def scan (left right source : List Char) : List Piece :=
  match _h : cut? left source with
  | none => ofText source
  | some (before, after) =>
    ofText before ++ (read left right after).1 :: scan left right (read left right after).2
termination_by source.length
decreasing_by
  obtain ⟨hl, hs⟩ := eq_of_cut? _h
  have hr := length_read_le left right after
  have hp := List.length_pos_iff.2 hl
  simp only [hs, List.length_append]
  omega

end Piece
end TemplateLint
