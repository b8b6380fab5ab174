import TemplateLint.Analysis.Cursor

/-! Bytes and characters. Offsets count the bytes of the UTF-8 encoding, texts are lists of
characters; the two views meet in the offsets at which a text can be cut. -/
namespace TemplateLint
open Text

namespace Text

theorem utf8ByteSize_ofList (cs : List Char) :
    (String.ofList cs).utf8ByteSize = byteLength cs := by
  induction cs with
  | nil => rfl
  | cons c cs ih =>
    have hcons : String.ofList (c :: cs) = String.singleton c ++ String.ofList cs := by
      rw [← String.toList_inj]
      simp
    rw [hcons, String.utf8ByteSize_append, String.utf8ByteSize_singleton, ih, byteLength_cons]

theorem utf8ByteSize_eq (source : String) : source.utf8ByteSize = byteLength source.toList := by
  rw [← utf8ByteSize_ofList, String.ofList_toList]

theorem isValid_iff {source : String} {offset : Nat} :
    (String.Pos.Raw.mk offset).IsValid source ↔
      ∃ before after, source.toList = before ++ after ∧ byteLength before = offset := by
  rw [String.Pos.Raw.isValid_iff_exists_append]
  constructor
  · rintro ⟨before, after, rfl, h⟩
    refine ⟨before.toList, after.toList, by simp, ?_⟩
    rw [← utf8ByteSize_eq]
    exact (congrArg String.Pos.Raw.byteIdx h).symm
  · rintro ⟨before, after, h, rfl⟩
    refine ⟨String.ofList before, String.ofList after, ?_, ?_⟩
    · rw [← String.ofList_append, ← h, String.ofList_toList]
    · apply String.Pos.Raw.ext
      exact (utf8ByteSize_ofList before).symm

theorem splitBytes?_eq_some_iff {n : Nat} {cs before after : List Char} :
    splitBytes? n cs = some (before, after) ↔ cs = before ++ after ∧ byteLength before = n := by
  fun_induction splitBytes? n cs generalizing before with
  | case1 cs =>
    constructor
    · intro h
      cases h
      simp
    · rintro ⟨rfl, h⟩
      simp [byteLength_eq_zero.1 h]
  | case2 n =>
    simp only [reduceCtorEq, false_iff]
    rintro ⟨h, hn⟩
    have hb : before = [] := (List.append_eq_nil_iff.1 h.symm).1
    simp [hb] at hn
  | case3 n c cs hle ih =>
    rw [Option.map_eq_some_iff]
    constructor
    · rintro ⟨⟨middle, rest⟩, h, he⟩
      cases he
      obtain ⟨rfl, hm⟩ := ih.1 h
      refine ⟨rfl, ?_⟩
      rw [byteLength_cons, hm]
      omega
    · rintro ⟨h, hn⟩
      cases before with
      | nil => simp at hn
      | cons b before =>
        cases h
        rw [byteLength_cons] at hn
        exact ⟨(before, after), ih.2 ⟨rfl, by omega⟩, rfl⟩
  | case4 n c cs hlt =>
    simp only [reduceCtorEq, false_iff]
    rintro ⟨h, hn⟩
    cases before with
    | nil => simp at hn
    | cons b before =>
      cases h
      rw [byteLength_cons] at hn
      omega

theorem slice?_eq_some_iff {s : Span} {cs middle : List Char} :
    slice? s cs = some middle ↔
      ∃ before after, cs = before ++ middle ++ after ∧
        s = ⟨byteLength before, byteLength before + byteLength middle⟩ := by
  obtain ⟨start, stop⟩ := s
  constructor
  · intro h
    simp only [slice?, Option.bind_eq_bind, Option.pure_def] at h
    split at h
    · cases h
    · next hle =>
      obtain ⟨⟨before, rest⟩, hb, h⟩ := Option.bind_eq_some_iff.1 h
      obtain ⟨⟨part, after⟩, hm, h⟩ := Option.bind_eq_some_iff.1 h
      cases h
      obtain ⟨rfl, hstart⟩ := splitBytes?_eq_some_iff.1 hb
      obtain ⟨rfl, hstop⟩ := splitBytes?_eq_some_iff.1 hm
      refine ⟨before, after, by simp, ?_⟩
      simp only [Span.mk.injEq]
      omega
  · rintro ⟨before, after, rfl, hs⟩
    cases hs
    have hb : splitBytes? (byteLength before) (before ++ middle ++ after) =
        some (before, middle ++ after) :=
      splitBytes?_eq_some_iff.2 ⟨by simp, rfl⟩
    have hm : splitBytes? (byteLength middle) (middle ++ after) = some (middle, after) :=
      splitBytes?_eq_some_iff.2 ⟨rfl, rfl⟩
    have hle : ¬byteLength before + byteLength middle < byteLength before := by omega
    simp only [slice?, Option.bind_eq_bind, Option.pure_def, if_neg hle, hb, Option.bind_some,
      Nat.add_sub_cancel_left, hm]

section

variable {a b d : Nat} {cs before middle after xs ys : List Char} {s : Span}

theorem append_inj_of_byteLength {before' after' : List Char}
    (h : before ++ after = before' ++ after') (hlength : byteLength before = byteLength before') :
    before = before' ∧ after = after' := by
  have hcut := splitBytes?_eq_some_iff.2 ⟨h, hlength.symm⟩
  rw [splitBytes?_eq_some_iff.2 ⟨rfl, rfl⟩, Option.some_inj] at hcut
  exact Prod.mk.inj hcut

theorem slice?_append (hxs : slice? ⟨a, b⟩ cs = some xs) (hys : slice? ⟨b, d⟩ cs = some ys) :
    slice? ⟨a, d⟩ cs = some (xs ++ ys) := by
  obtain ⟨before, after, hcs, hspan⟩ := slice?_eq_some_iff.1 hxs
  obtain ⟨before', after', hcs', hspan'⟩ := slice?_eq_some_iff.1 hys
  cases hspan
  obtain ⟨hlength, rfl⟩ := Span.mk.inj hspan'
  rw [List.append_assoc] at hcs'
  rw [← byteLength_append] at hlength
  obtain ⟨rfl, rfl⟩ := append_inj_of_byteLength (hcs.symm.trans hcs') hlength
  refine slice?_eq_some_iff.2 ⟨before, after', by simp [hcs], ?_⟩
  simp only [byteLength_append, Nat.add_assoc]

theorem slice?_iff_isPrefix (hcs : cs = before ++ after) :
    slice? ⟨byteLength before, byteLength before + byteLength xs⟩ cs = some xs ↔ xs <+: after := by
  rw [slice?_eq_some_iff]
  constructor
  · rintro ⟨before', after', hcs', hspan⟩
    rw [List.append_assoc] at hcs'
    obtain ⟨-, rfl⟩ := append_inj_of_byteLength (hcs.symm.trans hcs') (Span.mk.inj hspan).1
    exact List.prefix_append xs after'
  · rintro ⟨after', rfl⟩
    exact ⟨before, after', by rw [hcs, List.append_assoc], rfl⟩

theorem slice?_shift (hcs : cs = before ++ middle ++ after) (h : slice? s middle = some xs) :
    slice? ⟨byteLength before + s.start, byteLength before + s.stop⟩ cs = some xs := by
  obtain ⟨front, back, rfl, rfl⟩ := slice?_eq_some_iff.1 h
  refine slice?_eq_some_iff.2 ⟨before ++ front, back ++ after, ?_, ?_⟩
  · rw [hcs]
    simp only [List.append_assoc]
  · rw [byteLength_append, Nat.add_assoc]

end

end Text
end TemplateLint
