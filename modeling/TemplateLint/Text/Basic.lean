import TemplateLint.Text.Ranges
import TemplateLint.Text.Letter
import TemplateLint.Text.Numeral

/-! Text as a list of characters: sizes in UTF-8 bytes, blanks, names, and the two ways of
looking for a piece of text, at the front and anywhere. -/
namespace TemplateLint.Text

/-- Size of the UTF-8 encoding. Every offset of this library counts these bytes. -/
def byteLength (cs : List Char) : Nat := cs.foldr (fun c n => c.utf8Size + n) 0

@[simp] theorem byteLength_nil : byteLength [] = 0 := rfl

@[simp] theorem byteLength_cons (c : Char) (cs : List Char) :
    byteLength (c :: cs) = c.utf8Size + byteLength cs := rfl

@[simp] theorem byteLength_append (as bs : List Char) :
    byteLength (as ++ bs) = byteLength as + byteLength bs := by
  induction as with
  | nil => simp
  | cons c as ih => simp [ih, Nat.add_assoc]

theorem byteLength_eq_zero {cs : List Char} : byteLength cs = 0 ↔ cs = [] := by
  cases cs with
  | nil => simp
  | cons c cs => have := c.utf8Size_pos; simp; omega

def isBlank (c : Char) : Bool :=
  inRanges [(0x9, 0xd), (0x20, 0x20), (0x85, 0x85), (0xa0, 0xa0), (0x1680, 0x1680),
    (0x2000, 0x200a), (0x2028, 0x2029), (0x202f, 0x202f), (0x205f, 0x205f), (0x3000, 0x3000)] c

def isNameStart (c : Char) : Bool := c == '_' || isLetter c

def isNameChar (c : Char) : Bool := c == '_' || isLetter c || isNumeral c

def trimStart (cs : List Char) : List Char := cs.dropWhile isBlank

def trimEnd (cs : List Char) : List Char := (cs.reverse.dropWhile isBlank).reverse

def trim (cs : List Char) : List Char := trimEnd (trimStart cs)

def strip? : List Char → List Char → Option (List Char)
  | [], cs => some cs
  | _ :: _, [] => none
  | p :: pat, c :: cs => if p = c then strip? pat cs else none

theorem strip?_eq_some_iff {pat cs rest : List Char} :
    strip? pat cs = some rest ↔ cs = pat ++ rest := by
  induction pat generalizing cs with
  | nil => simp [strip?]
  | cons p pat ih =>
    cases cs with
    | nil => simp [strip?]
    | cons c cs =>
      simp only [strip?]
      split
      · next h => simp [ih, h]
      · next h => simp [Ne.symm h]

/-- What stands before and after the first occurrence of `pat`; the empty pattern is never found. -/
def cut? (pat : List Char) : List Char → Option (List Char × List Char)
  | [] => none
  | c :: cs =>
    if pat = [] then none else
    match strip? pat (c :: cs) with
    | some rest => some ([], rest)
    | none => (cut? pat cs).map fun parts => (c :: parts.1, parts.2)

theorem eq_of_cut? {pat cs before after : List Char} (h : cut? pat cs = some (before, after)) :
    pat ≠ [] ∧ cs = before ++ pat ++ after := by
  induction cs generalizing before with
  | nil => simp [cut?] at h
  | cons c cs ih =>
    simp only [cut?] at h
    split at h
    · simp at h
    · next hp =>
      refine ⟨hp, ?_⟩
      split at h
      · next rest hs =>
        cases h
        simpa using strip?_eq_some_iff.1 hs
      · obtain ⟨parts, hc, hb⟩ := Option.map_eq_some_iff.1 h
        cases hb
        simp [(ih hc).2]

def takeName : List Char → List Char × List Char
  | [] => ([], [])
  | c :: cs =>
    if isNameStart c then (c :: cs.takeWhile isNameChar, cs.dropWhile isNameChar)
    else ([], c :: cs)

theorem takeName_append (cs : List Char) : (takeName cs).1 ++ (takeName cs).2 = cs := by
  cases cs with
  | nil => rfl
  | cons c cs => by_cases h : isNameStart c <;> simp [takeName, h]

end TemplateLint.Text
