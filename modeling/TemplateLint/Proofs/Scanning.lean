import TemplateLint.Text.Basic
import TemplateLint.Text.Quoting
import Mathlib.Data.List.TakeWhile

/-! Scans over text: blanks around it, names in it, and brackets that close a key. -/
namespace TemplateLint.Text

section

variable {c : Char} {cs pre post : List Char}

def blankCodes : List Nat :=
  [9, 10, 11, 12, 13, 32, 133, 160, 5760, 8192, 8193, 8194, 8195, 8196, 8197, 8198, 8199, 8200,
    8201, 8202, 8232, 8233, 8239, 8287, 12288]

/-- There are few blanks, so that what is said of all of them can be looked up. -/
theorem of_isBlank {P : Char → Prop} (hall : ∀ n ∈ blankCodes, P (Char.ofNat n))
    (h : isBlank c = true) : P c := by
  have hcode : c.toNat ∈ blankCodes := by
    simp only [isBlank, inRanges, List.any_cons, List.any_nil, Bool.or_false, Bool.or_eq_true,
      Bool.and_eq_true, decide_eq_true_eq] at h
    simp only [blankCodes, List.mem_cons, List.not_mem_nil, or_false]
    omega
  have := hall c.toNat hcode
  rwa [Char.ofNat_toNat] at this

theorem isNameChar_of_isBlank (h : isBlank c = true) : isNameChar c = false :=
  of_isBlank (P := fun c => isNameChar c = false) (by decide +kernel) h

theorem isNameChar_of_isNameStart (h : isNameStart c = true) : isNameChar c = true := by
  unfold isNameStart at h
  unfold isNameChar
  rw [h, Bool.true_or]

theorem of_isDigit {P : Char → Prop} (hall : ∀ n < 10, P (Char.ofNat (48 + n)))
    (h : c.isDigit = true) : P c := by
  obtain ⟨hlow, hhigh⟩ := Char.isDigit_iff_toNat.1 h
  change 48 ≤ c.toNat at hlow
  change c.toNat ≤ 57 at hhigh
  have hc := hall (c.toNat - 48) (by omega)
  rwa [Nat.add_sub_cancel' hlow, Char.ofNat_toNat] at hc

theorem isBlank_of_isDigit (h : c.isDigit = true) : isBlank c = false :=
  of_isDigit (P := fun c => isBlank c = false) (by decide +kernel) h

theorem isDigit_of_isNameStart (h : isNameStart c = true) : c.isDigit = false := by
  cases hdigit : c.isDigit with
  | false => rfl
  | true =>
    have hnone : isNameStart c = false :=
      of_isDigit (P := fun c => isNameStart c = false) (by decide +kernel) hdigit
    cases h.symm.trans hnone

theorem exists_trim (cs : List Char) :
    ∃ pre post, (∀ c ∈ pre, isBlank c = true) ∧ (∀ c ∈ post, isBlank c = true) ∧
      cs = pre ++ (trim cs ++ post) := by
  refine ⟨cs.takeWhile isBlank, ((trimStart cs).reverse.takeWhile isBlank).reverse, ?_, ?_, ?_⟩
  · intro c hc
    exact List.mem_takeWhile_imp hc
  · intro c hc
    exact List.mem_takeWhile_imp (List.mem_reverse.1 hc)
  · unfold trim trimEnd
    rw [← List.reverse_append, List.takeWhile_append_dropWhile, List.reverse_reverse]
    exact List.takeWhile_append_dropWhile.symm

theorem trimEnd_append_blank (hpost : ∀ c ∈ post, isBlank c = true) :
    trimEnd (cs ++ post) = trimEnd cs := by
  have hreverse : ∀ c ∈ post.reverse, isBlank c = true := by simpa using hpost
  unfold trimEnd
  rw [List.reverse_append, List.dropWhile_append_of_pos hreverse]

theorem trim_surround (hpre : ∀ c ∈ pre, isBlank c = true) (hpost : ∀ c ∈ post, isBlank c = true) :
    trim (pre ++ (cs ++ post)) = trim cs := by
  have hblank : post.dropWhile isBlank = [] := List.dropWhile_eq_nil_iff.2 hpost
  unfold trim trimStart
  rw [List.dropWhile_append_of_pos hpre, List.dropWhile_append, hblank]
  split
  · next hcs => rw [List.isEmpty_iff.1 hcs]
  · exact trimEnd_append_blank hpost

theorem trim_trim (cs : List Char) : trim (trim cs) = trim cs := by
  obtain ⟨pre, post, hpre, hpost, hcs⟩ := exists_trim cs
  have h : trim (pre ++ (trim cs ++ post)) = trim (trim cs) := trim_surround hpre hpost
  rw [← hcs] at h
  exact h.symm

theorem trim_eq_self (hfirst : ∀ c ∈ cs.head?, isBlank c = false)
    (hlast : ∀ c ∈ cs.getLast?, isBlank c = false) : trim cs = cs := by
  have hdrop {cs : List Char} (h : ∀ c ∈ cs.head?, isBlank c = false) :
      cs.dropWhile isBlank = cs := by
    cases cs with
    | nil => rfl
    | cons c cs => simp [h c rfl]
  unfold trim trimEnd trimStart
  rw [hdrop hfirst, hdrop (by simpa using hlast), List.reverse_reverse]

theorem isBlank_head?_trim (cs : List Char) : ∀ c ∈ (trim cs).head?, isBlank c = false := by
  have hstarts : trim cs <+: trimStart cs := by
    have hsuffix := List.dropWhile_suffix isBlank (l := (trimStart cs).reverse)
    rwa [← List.reverse_prefix, List.reverse_reverse] at hsuffix
  intro c hc
  obtain ⟨rest, hrest⟩ := hstarts
  have hhead : (trimStart cs).head? = some c := by
    rw [← hrest, List.head?_append, Option.mem_def.1 hc]
    rfl
  have hdropped := List.head?_dropWhile_not isBlank cs
  rw [trimStart] at hhead
  simpa [hhead] using hdropped

theorem takeWhile_append_of_stop (hstop : ∀ c ∈ post.head?, isNameChar c = false) :
    (cs ++ post).takeWhile isNameChar = cs.takeWhile isNameChar := by
  induction cs with
  | nil =>
    cases post with
    | nil => rfl
    | cons c post => simp [hstop c rfl]
  | cons c cs ih => simp only [List.cons_append, List.takeWhile_cons, ih]

theorem dropWhile_append_of_stop (hstop : ∀ c ∈ post.head?, isNameChar c = false) :
    (cs ++ post).dropWhile isNameChar = cs.dropWhile isNameChar ++ post := by
  have h := List.takeWhile_append_dropWhile (p := isNameChar) (l := cs ++ post)
  rw [takeWhile_append_of_stop hstop] at h
  refine List.append_cancel_left (h.trans ?_)
  rw [← List.append_assoc, List.takeWhile_append_dropWhile]

theorem isNameChar_of_mem_head? (hpost : ∀ c ∈ post, isBlank c = true) :
    ∀ c ∈ post.head?, isNameChar c = false := by
  intro c hc
  exact isNameChar_of_isBlank (hpost c (List.mem_of_mem_head? hc))

theorem takeWhile_append_blank (hpost : ∀ c ∈ post, isBlank c = true) :
    (cs ++ post).takeWhile isNameChar = cs.takeWhile isNameChar :=
  takeWhile_append_of_stop (isNameChar_of_mem_head? hpost)

theorem dropWhile_append_blank (hpost : ∀ c ∈ post, isBlank c = true) :
    (cs ++ post).dropWhile isNameChar = cs.dropWhile isNameChar ++ post :=
  dropWhile_append_of_stop (isNameChar_of_mem_head? hpost)

theorem takeWhile_of_takeName {name rest : List Char} (h : takeName cs = (name, rest))
    (hname : name ≠ []) : cs.takeWhile isNameChar = name ∧ cs.dropWhile isNameChar = rest := by
  cases cs with
  | nil =>
    cases h
    contradiction
  | cons c cs =>
    rw [takeName] at h
    split at h
    · next hstart =>
      cases h
      simp [isNameChar_of_isNameStart hstart]
    · cases h
      contradiction

end

section

variable {rule : BracketRule} {q : Quoting} {cs key rest : List Char}

def BracketRule.next? (rule : BracketRule) : Quoting → Char → Option Quoting
  | .outside, c =>
    if rule.isQuote c then some (.inside c) else if c = ']' then none else some .outside
  | .inside q, c =>
    if c = '\\' ∧ rule.hasEscapes q then some (.escaped q)
    else if c = q then some .outside
    else some (.inside q)
  | .escaped q, _ => some (.inside q)

/-- A bracket after the key closes it. -/
def BracketRule.Closes (rule : BracketRule) (key : List Char) : Prop :=
  key.foldlM rule.next? .outside = some .outside

theorem cutBracket?_cons (rule : BracketRule) (q : Quoting) (c : Char) (cs : List Char) :
    cutBracket? rule q (c :: cs) = match rule.next? q c with
      | none => some ([], cs)
      | some q => (cutBracket? rule q cs).map fun parts => (c :: parts.1, parts.2) := by
  cases q with
  | outside =>
    simp only [cutBracket?, BracketRule.next?]
    split
    · rfl
    · split <;> rfl
  | inside q =>
    simp only [cutBracket?, BracketRule.next?]
    split
    · rfl
    · split <;> rfl
  | escaped q => rfl

theorem next?_eq_none {c : Char} (h : rule.next? q c = none) : q = .outside := by
  cases q with
  | outside => rfl
  | inside q =>
    simp only [BracketRule.next?] at h
    repeat' split at h
    all_goals cases h
  | escaped q => cases h

theorem foldlM_of_cutBracket? (h : cutBracket? rule q cs = some (key, rest)) :
    key.foldlM rule.next? q = some .outside := by
  induction cs generalizing q key with
  | nil => cases h
  | cons c cs ih =>
    rw [cutBracket?_cons] at h
    split at h
    · next hnext =>
      cases h
      rw [next?_eq_none hnext]
      rfl
    · next q' hnext =>
      obtain ⟨⟨key', rest'⟩, hcut, heq⟩ := Option.map_eq_some_iff.1 h
      cases heq
      rw [List.foldlM_cons, hnext]
      exact ih hcut

structure BracketRule.Proper (rule : BracketRule) : Prop where
  bracket : rule.isQuote ']' = false
  blank : ∀ c, isBlank c = true → rule.isQuote c = false

theorem cutBracket?_append (hrule : rule.Proper) (h : key.foldlM rule.next? q = some .outside)
    (rest : List Char) : cutBracket? rule q (key ++ ']' :: rest) = some (key, rest) := by
  induction key generalizing q with
  | nil =>
    cases h
    simp [cutBracket?, hrule.bracket]
  | cons c key ih =>
    rw [List.foldlM_cons] at h
    obtain ⟨q', hnext, h⟩ := Option.bind_eq_some_iff.1 h
    rw [List.cons_append, cutBracket?_cons, hnext]
    dsimp only
    rw [ih h]
    rfl

def BracketRule.Reaches (rule : BracketRule) : Quoting → Prop
  | .outside => True
  | .inside q | .escaped q => rule.isQuote q = true

theorem BracketRule.Reaches.next? (h : rule.Reaches q) {q' : Quoting} {c : Char}
    (hnext : rule.next? q c = some q') : rule.Reaches q' := by
  cases q with
  | outside =>
    simp only [BracketRule.next?] at hnext
    split at hnext
    · next hquote =>
      cases hnext
      exact hquote
    · split at hnext
      · cases hnext
      · cases hnext
        trivial
  | inside q =>
    simp only [BracketRule.next?] at hnext
    repeat' split at hnext
    all_goals cases hnext
    · exact h
    · trivial
    · exact h
  | escaped q =>
    cases hnext
    exact h

theorem BracketRule.Reaches.foldlM (h : rule.Reaches q) {q' : Quoting}
    (hkey : key.foldlM rule.next? q = some q') : rule.Reaches q' := by
  induction key generalizing q with
  | nil =>
    cases hkey
    exact h
  | cons c key ih =>
    rw [List.foldlM_cons] at hkey
    obtain ⟨mid, hnext, hkey⟩ := Option.bind_eq_some_iff.1 hkey
    exact ih (h.next? hnext) hkey

theorem next?_blank (hrule : rule.Proper) (h : rule.Reaches q) {c : Char}
    (hc : isBlank c = true) : ∃ q', rule.next? q c = some q' ∧ (q' = .outside ↔ q = .outside) := by
  have hbracket : c ≠ ']' := of_isBlank (P := (· ≠ ']')) (by decide +kernel) hc
  have hquote := hrule.blank c hc
  cases q with
  | outside => exact ⟨.outside, by simp [BracketRule.next?, hquote, hbracket], by simp⟩
  | inside q =>
    have hslash : c ≠ '\\' := of_isBlank (P := (· ≠ '\\')) (by decide +kernel) hc
    have hq : c ≠ q := by
      rintro rfl
      cases hquote.symm.trans h
    exact ⟨.inside q, by simp [BracketRule.next?, hslash, hq], by simp⟩
  | escaped q => exact ⟨.inside q, rfl, by simp⟩

theorem foldlM_blank (hrule : rule.Proper) (h : rule.Reaches q)
    (hcs : ∀ c ∈ cs, isBlank c = true) :
    cs.foldlM rule.next? q = some .outside ↔ q = .outside := by
  induction cs generalizing q with
  | nil => simp
  | cons c cs ih =>
    rw [List.forall_mem_cons] at hcs
    obtain ⟨q', hnext, hiff⟩ := next?_blank hrule h hcs.1
    rw [List.foldlM_cons, hnext, ← hiff]
    exact ih (h.next? hnext) hcs.2

theorem closes_trim (hrule : rule.Proper) : rule.Closes (trim key) ↔ rule.Closes key := by
  obtain ⟨pre, post, hpre, hpost, hkey⟩ := exists_trim key
  have houtside : rule.Reaches .outside := trivial
  have hstart := (foldlM_blank hrule houtside hpre).2 rfl
  have hraw : rule.Closes key ↔ (trim key ++ post).foldlM rule.next? .outside = some .outside := by
    unfold BracketRule.Closes
    conv => lhs; rw [hkey, List.foldlM_append, hstart]
    rfl
  rw [hraw, List.foldlM_append, Option.bind_eq_bind, Option.bind_eq_some_iff]
  constructor
  · intro h
    exact ⟨.outside, h, (foldlM_blank hrule houtside hpost).2 rfl⟩
  · rintro ⟨q, hq, h⟩
    rw [(foldlM_blank hrule (houtside.foldlM hq) hpost).1 h] at hq
    exact hq

end

end TemplateLint.Text
