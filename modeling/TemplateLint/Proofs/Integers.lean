import Mathlib.Data.Nat.Digits.Defs
import TemplateLint.Proofs.Lexemes
import TemplateLint.Proofs.Slices

/-! Integer literals. An integer of 64 bits can be written with and without a sign, in five bases,
in small and capital letters and with underscores, and its value is kept. The sign is read apart
from the digits, so that the least of these integers, whose digits alone are too large, is no
integer in any of its spellings. -/
namespace TemplateLint
open Text

namespace Number

inductive Base where
  | decimal
  | hexadecimal
  | octal
  | binary
  | zeroOctal
deriving DecidableEq, Repr

namespace Base

def radix : Base → Nat
  | decimal => 10
  | hexadecimal => 16
  | octal | zeroOctal => 8
  | binary => 2

def marker : Base → List Char
  | decimal => []
  | hexadecimal => ['0', 'x']
  | octal => ['0', 'o']
  | binary => ['0', 'b']
  | zeroOctal => ['0']

theorem radix_le (base : Base) : base.radix ≤ 16 := by
  cases base <;> decide

end Base

/-- The text is the marker of the base and these digits, the first of which counts most; letters may
be capital. Decimal digits start with a zero only if that is all. -/
structure IsWritten (base : Base) (digits : List Nat) (cs : List Char) : Prop where
  nonempty : digits ≠ []
  bounded : ∀ d ∈ digits, d < base.radix
  chars : cs.map Char.toLower = base.marker ++ digits.map Nat.digitChar
  leading : base = .decimal → digits.head? = some 0 → digits = [0]

/-- The text spells the integer: it has a minus sign exactly if the integer is negative, and
underscores may stand anywhere behind the first digit. -/
def IsSpelling (v : Int) (text : List Char) : Prop :=
  ∃ sign body base digits, text = sign ++ body ∧
    (if v < 0 then sign = ['-'] else sign = [] ∨ sign = ['+']) ∧
    body.head? ≠ some '_' ∧ IsWritten base digits (body.filter (· != '_')) ∧
    Nat.ofDigits base.radix digits.reverse = v.natAbs

section

variable {radix n : Nat} {digits : List Nat}

theorem digitValue?_digitChar {d : Nat} (hradix : radix ≤ 16) (hd : d < radix) :
    digitValue? radix d.digitChar = some d := by
  have hall : ∀ radix < 17, ∀ d < radix, digitValue? radix d.digitChar = some d := by
    decide +kernel
  exact hall radix (by omega) d hd

theorem foldlM_digitChar (hradix : radix ≤ 16) (h : ∀ d ∈ digits, d < radix) (start : Nat) :
    (digits.map Nat.digitChar).foldlM (fun n c => (digitValue? radix c).map (n * radix + ·)) start =
      some (digits.foldl (fun n d => d + radix * n) start) := by
  induction digits generalizing start with
  | nil => rfl
  | cons d digits ih =>
    rw [List.forall_mem_cons] at h
    have hnext : start * radix + d = d + radix * start := by
      rw [Nat.mul_comm, Nat.add_comm]
    simp only [List.map_cons, List.foldlM_cons, digitValue?_digitChar hradix h.1, Option.map_some,
      List.foldl_cons, hnext]
    exact ih h.2 _

theorem natural?_digitChar (hradix : radix ≤ 16) (hne : digits ≠ [])
    (h : ∀ d ∈ digits, d < radix) :
    natural? radix (digits.map Nat.digitChar) = some (Nat.ofDigits radix digits.reverse) := by
  unfold natural?
  rw [if_neg (by simpa using hne), foldlM_digitChar hradix h, Nat.ofDigits_eq_foldr,
    List.foldr_reverse]
  rfl

theorem integer?_eq_some_iff {cs : List Char} :
    integer? radix cs = some n ↔ natural? radix cs = some n ∧ n < 9223372036854775808 := by
  unfold integer?
  rw [Option.filter_eq_some_iff]
  simp

end

section

variable {c : Char} {cs : List Char} {n : Nat} {v : Int}

theorem int?_of_ne_zero (h : c ≠ '0') : int? (c :: cs) = integer? 10 (c :: cs) := by
  unfold int?
  split <;> simp_all

theorem int?_zero (hletter : c ≠ 'x' ∧ c ≠ 'o' ∧ c ≠ 'b')
    (hdigits : (c :: cs).all Char.isDigit = true) :
    int? ('0' :: c :: cs) = integer? 8 (c :: cs) := by
  unfold int?
  split <;> simp_all

theorem digitChar_eq_zero_iff : ∀ d < 16, d.digitChar = '0' ↔ d = 0 := by
  decide +kernel

theorem isDigit_digitChar : ∀ d < 10, d.digitChar.isDigit = true := by
  decide +kernel

theorem IsWritten.int?_eq {base : Base} {digits : List Nat} (h : IsWritten base digits cs) :
    int? (cs.map Char.toLower) = integer? base.radix (digits.map Nat.digitChar) := by
  obtain ⟨hne, hbound, hchars, hleading⟩ := h
  rw [hchars]
  cases digits with
  | nil => contradiction
  | cons d digits =>
    cases base with
    | decimal =>
      by_cases hd : d = 0
      · cases hleading rfl (by rw [hd]; rfl)
        rfl
      · have hsmall : d < 10 := hbound d List.mem_cons_self
        apply int?_of_ne_zero
        rwa [Ne, digitChar_eq_zero_iff d (by omega)]
    | hexadecimal | octal | binary => rfl
    | zeroOctal =>
      have hdigits : ∀ e ∈ d :: digits, e.digitChar.isDigit = true := by
        intro e he
        have hsmall : e < 8 := hbound e he
        exact isDigit_digitChar e (by omega)
      have hletter : ∀ e < 8, e.digitChar ≠ 'x' ∧ e.digitChar ≠ 'o' ∧ e.digitChar ≠ 'b' := by
        decide +kernel
      apply int?_zero (hletter d (hbound d List.mem_cons_self))
      simpa using hdigits

theorem IsWritten.int?_eq_some_iff {base : Base} {digits : List Nat}
    (h : IsWritten base digits cs) :
    int? (cs.map Char.toLower) = some n ↔
      n = Nat.ofDigits base.radix digits.reverse ∧ n < 9223372036854775808 := by
  rw [h.int?_eq, integer?_eq_some_iff, natural?_digitChar base.radix_le h.nonempty h.bounded,
    Option.some_inj, eq_comm]

theorem unsigned?_eq_int_iff :
    unsigned? cs = some (.int v) ↔ ∃ n : Nat, int? cs = some n ∧ v = n := by
  unfold unsigned?
  cases int? cs with
  | some n => simp [eq_comm]
  | none =>
    dsimp only
    split <;> simp

theorem IsWritten.exists_digit {base : Base} {digits : List Nat} (h : IsWritten base digits cs) :
    ∃ d ds, cs.map Char.toLower = d :: ds ∧ d.isDigit = true := by
  obtain ⟨hne, hbound, hchars, -⟩ := h
  rw [hchars]
  cases digits with
  | nil => contradiction
  | cons d digits =>
    cases base with
    | decimal => exact ⟨_, _, rfl, isDigit_digitChar d (hbound d List.mem_cons_self)⟩
    | hexadecimal | octal | binary | zeroOctal => exact ⟨_, _, rfl, rfl⟩

theorem value?_minus (cs : List Char) :
    value? ('-' :: cs) = (unsigned? ((cs.filter (· != '_')).map Char.toLower)).map Value.neg := by
  simp [value?]

theorem value?_plus (cs : List Char) :
    value? ('+' :: cs) = unsigned? ((cs.filter (· != '_')).map Char.toLower) := by
  simp [value?]

theorem IsWritten.value?_eq {base : Base} {digits : List Nat}
    (h : IsWritten base digits (cs.filter (· != '_'))) :
    value? cs = unsigned? ((cs.filter (· != '_')).map Char.toLower) := by
  obtain ⟨d, ds, hcs, hdigit⟩ := h.exists_digit
  unfold value?
  rw [hcs]
  split
  · next heq =>
    cases heq
    cases hdigit
  · next heq =>
    cases heq
    cases hdigit
  · rfl

theorem neg_eq_int_iff {value : Value} {w : Int} : value.neg = .int w ↔ value = .int (-w) := by
  cases value with
  | int v =>
    simp only [Value.neg, Value.int.injEq]
    omega
  | float | imaginary => simp [Value.neg]

/-- The sign is put back after the digits have been found to fit. -/
theorem IsSpelling.value?_eq_int_iff {text : List Char} {w : Int}
    (hleast : -9223372036854775808 ≤ v) (hgreatest : v ≤ 9223372036854775807)
    (h : IsSpelling v text) :
    value? text = some (.int w) ↔ w = v ∧ v ≠ -9223372036854775808 := by
  obtain ⟨sign, body, base, digits, rfl, hsign, -, hbody, hvalue⟩ := h
  have hread (m : Int) : unsigned? ((body.filter (· != '_')).map Char.toLower) = some (.int m) ↔
      m = v.natAbs ∧ v.natAbs < 9223372036854775808 := by
    rw [unsigned?_eq_int_iff]
    simp only [hbody.int?_eq_some_iff, hvalue]
    constructor
    · rintro ⟨n, ⟨rfl, hn⟩, rfl⟩
      exact ⟨rfl, hn⟩
    · rintro ⟨rfl, hn⟩
      exact ⟨_, ⟨rfl, hn⟩, rfl⟩
  split at hsign
  · next hneg =>
    rw [hsign, List.singleton_append, value?_minus, Option.map_eq_some_iff]
    simp only [neg_eq_int_iff, exists_eq_right, hread]
    omega
  · next hpos =>
    have hplain : value? (sign ++ body) =
        unsigned? ((body.filter (· != '_')).map Char.toLower) := by
      rcases hsign with rfl | rfl
      · exact hbody.value?_eq
      · exact value?_plus body
    rw [hplain, hread]
    omega

end

section

variable {c : Char} {cs : List Char}

theorem toLower_of_isUpper_eq_false (h : c.isUpper = false) : c.toLower = c := by
  unfold Char.toLower
  rw [dif_neg]
  exact of_decide_eq_false h

theorem isAlphanum_of_toLower (h : c.toLower.isAlphanum = true) : c.isAlphanum = true := by
  cases hupper : c.isUpper with
  | true =>
    have hletter : c.isAlphanum = (c.isUpper || c.isLower || c.isDigit) := rfl
    simp [hletter, hupper]
  | false => rwa [toLower_of_isUpper_eq_false hupper] at h

theorem isDigit_of_toLower (h : c.toLower.isDigit = true) : c.isDigit = true := by
  cases hupper : c.isUpper with
  | false => rwa [toLower_of_isUpper_eq_false hupper] at h
  | true =>
    have hall : ∀ n < 26, (Char.ofNat (65 + n)).toLower.isDigit = false := by decide +kernel
    have hrange : 65 ≤ c.toNat ∧ c.toNat ≤ 90 := of_decide_eq_true hupper
    have hc := hall (c.toNat - 65) (by omega)
    rw [Nat.add_sub_cancel' hrange.1, Char.ofNat_toNat, h] at hc
    cases hc

theorem IsWritten.isAlphanum {base : Base} {digits : List Nat}
    (h : IsWritten base digits (cs.filter (· != '_'))) :
    ∀ c ∈ cs, c.isAlphanum = true ∨ c = '_' := by
  have hdigits : ∀ d < 16, d.digitChar.isAlphanum = true := by decide +kernel
  have hmarker : ∀ c ∈ base.marker, c.isAlphanum = true := by
    cases base <;> simp [Base.marker]
  intro c hc
  by_cases hline : c = '_'
  · exact .inr hline
  · left
    apply isAlphanum_of_toLower
    have hmem : c.toLower ∈ (cs.filter (· != '_')).map Char.toLower :=
      List.mem_map_of_mem (List.mem_filter.2 ⟨hc, by simpa using hline⟩)
    rw [h.chars, List.mem_append, List.mem_map] at hmem
    rcases hmem with hmem | ⟨d, hd, heq⟩
    · exact hmarker _ hmem
    · rw [← heq]
      have hbound := h.bounded d hd
      have hradix := base.radix_le
      exact hdigits d (by omega)

theorem IsWritten.exists_cons {base : Base} {digits : List Nat}
    (h : IsWritten base digits (cs.filter (· != '_'))) (hfirst : cs.head? ≠ some '_') :
    ∃ d ds, cs = d :: ds ∧ d.isDigit = true := by
  obtain ⟨d, ds, hdigits, hdigit⟩ := h.exists_digit
  cases cs with
  | nil => cases hdigits
  | cons c cs =>
    have hc : (c != '_') = true := by simpa using hfirst
    simp only [List.filter_cons, hc, if_true, List.map_cons] at hdigits
    cases hdigits
    exact ⟨c, cs, rfl, isDigit_of_toLower hdigit⟩

end

end Number

namespace Expr

section

variable {c : Char} {cs : List Char}

theorem takeNumber_eq_self (h : ∀ c ∈ cs, c.isAlphanum = true ∨ c = '_') (hex : Bool)
    (prev : Char) : takeNumber hex prev cs = (cs, []) := by
  induction cs generalizing prev with
  | nil => rfl
  | cons c cs ih =>
    rw [List.forall_mem_cons] at h
    have hc : isNumberChar hex prev c = true := by
      rcases h.1 with hc | rfl <;> simp [isNumberChar, *]
    simp [takeNumber, hc, ih h.2]

theorem parse_number {text : String} {e : Expr} (htext : text.toList = c :: cs)
    (hblank : isBlank c = false) (hstarts : startsNumber c cs = true)
    (hall : numberText (c :: cs) = (c :: cs, [])) :
    parse text = .ok e ↔ ∃ value, Number.value? (c :: cs) = some value ∧
      e = .literal ⟨0, text.utf8ByteSize⟩ (literalOfNumber value) := by
  have hread : readToken 0 c cs = readNumber 0 (c :: cs) := by
    unfold readToken
    rw [if_pos hstarts]
  unfold readNumber at hread
  rw [hall] at hread
  unfold parse ofChars
  rw [utf8ByteSize_eq, htext]
  cases hvalue : Number.value? (c :: cs) with
  | none =>
    rw [hvalue] at hread
    have htokens : tokenize 0 (c :: cs) = .error ⟨.badNumber (String.ofList (c :: cs)), 0⟩ := by
      rw [tokenize, if_neg (by simp [hblank])]
      split
      · next herror =>
        cases herror.symm.trans hread
        rfl
      · next hok => cases hok.symm.trans hread
    rw [htokens]
    simp [Bind.bind, Except.bind]
  | some value =>
    rw [hvalue] at hread
    have hsplit : c :: cs = (c :: cs) ++ [] := by simp
    rw [tokenize_of_readToken hblank hsplit hread, tokenize, Nat.zero_add]
    constructor
    · intro h
      cases h
      exact ⟨value, rfl, rfl⟩
    · rintro ⟨_, ⟨⟩, rfl⟩
      rfl

theorem parse_spelling {text : String} {v : Int} {e : Expr}
    (h : Number.IsSpelling v text.toList) :
    parse text = .ok e ↔ ∃ value, Number.value? text.toList = some value ∧
      e = .literal ⟨0, text.utf8ByteSize⟩ (literalOfNumber value) := by
  obtain ⟨sign, body, base, digits, htext, hsign, hfirst, hbody, -⟩ := h
  obtain ⟨d, ds, rfl, hdigit⟩ := hbody.exists_cons hfirst
  have hnumber := takeNumber_eq_self hbody.isAlphanum
  have hcases : sign = [] ∨ ∃ c, sign = [c] ∧ (c = '+' ∨ c = '-') := by
    split at hsign
    · exact .inr ⟨'-', hsign, .inr rfl⟩
    · exact hsign.imp id fun hplus => ⟨'+', hplus, .inl rfl⟩
  rcases hcases with rfl | ⟨c, rfl, hc⟩
  · have hplain : ¬(d = '+' ∨ d = '-') := by
      rintro (rfl | rfl) <;> cases hdigit
    rw [List.nil_append] at htext
    rw [htext]
    apply parse_number htext (isBlank_of_isDigit hdigit)
    · simp [startsNumber, hdigit]
    · simp only [numberText, if_neg hplain, hnumber]
  · rw [List.singleton_append] at htext
    rw [htext]
    apply parse_number htext
    · rcases hc with rfl | rfl <;> decide +kernel
    · rcases hc with rfl | rfl <;> simp [startsNumber, hdigit]
    · simp only [numberText, if_pos hc, hnumber]

end

/-- Every spelling of an integer of 64 bits is the literal with that value, whatever its base, the
least integer apart: none of its spellings is read as an integer. -/
theorem integer_keeps_value_unless_least {v : Int} {text : String}
    (hleast : -0x8000000000000000 ≤ v) (hgreatest : v ≤ 0x7fffffffffffffff)
    (h : Number.IsSpelling v text.toList) :
    (v ≠ -0x8000000000000000 →
      parse text = .ok (.literal ⟨0, text.utf8ByteSize⟩ (.int v))) ∧
    (v = -0x8000000000000000 → ∀ span w, parse text ≠ .ok (.literal span (.int w))) := by
  constructor
  · intro hv
    exact (parse_spelling h).2 ⟨.int v, (h.value?_eq_int_iff hleast hgreatest).2 ⟨rfl, hv⟩, rfl⟩
  · intro hv span w hparse
    obtain ⟨value, hvalue, hliteral⟩ := (parse_spelling h).1 hparse
    cases value with
    | int =>
      obtain ⟨-, hother⟩ := (h.value?_eq_int_iff hleast hgreatest).1 hvalue
      exact hother hv
    | float | imaginary => cases hliteral

theorem integer_keeps_value_unless_least_of_hexadecimal :
    let text := "-0_X7F_ffFFffffffff_ff_"
    Number.IsSpelling (-0x7fffffffffffffff) text.toList ∧
      parse text = .ok (.literal ⟨0, 23⟩ (.int (-0x7fffffffffffffff))) := by
  intro text
  have hspelling : Number.IsSpelling (-0x7fffffffffffffff) text.toList :=
    ⟨['-'], "0_X7F_ffFFffffffff_ff_".toList, .hexadecimal,
      [7, 15, 15, 15, 15, 15, 15, 15, 15, 15, 15, 15, 15, 15, 15, 15],
      by decide, by decide, by decide, ⟨by decide, by decide, by decide, by decide⟩, by decide⟩
  exact ⟨hspelling,
    (integer_keeps_value_unless_least (by decide) (by decide) hspelling).1 (by decide)⟩

/-- The digits of the least integer are one too many for a positive integer, so that it is rounded
to a fraction. -/
theorem least_integer_is_a_fraction :
    let text := "-9223372036854775808"
    Number.IsSpelling (-0x8000000000000000) text.toList ∧
      ∃ x, parse text = .ok (.literal ⟨0, 20⟩ (.float x)) := by
  intro text
  have hspelling : Number.IsSpelling (-0x8000000000000000) text.toList :=
    ⟨['-'], "9223372036854775808".toList, .decimal,
      [9, 2, 2, 3, 3, 7, 2, 0, 3, 6, 8, 5, 4, 7, 7, 5, 8, 0, 8], by decide, by decide, by decide,
      ⟨by decide, by decide, by decide, by decide⟩, by decide⟩
  let digits := "9223372036854775808".toList
  obtain ⟨hint, hlast, hfraction⟩ : Number.int? digits = none ∧ digits.getLast? ≠ some 'i' ∧
      (Number.fraction? digits).isSome = true := by
    decide +kernel
  obtain ⟨x, hx⟩ := Option.isSome_iff_exists.1 hfraction
  have hvalue : Number.unsigned? digits = some (.float x) := by
    unfold Number.unsigned?
    rw [hint]
    simp [hlast, hx]
  refine ⟨hspelling, -x, (parse_spelling hspelling).2 ⟨.float (-x), ?_, rfl⟩⟩
  have htext : text.toList = '-' :: digits := by decide
  have hclean : (digits.filter (· != '_')).map Char.toLower = digits := by decide
  rw [htext, Number.value?_minus, hclean, hvalue]
  rfl

end Expr
end TemplateLint
