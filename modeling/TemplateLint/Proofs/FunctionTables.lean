import TemplateLint.Config
import TemplateLint.Proofs.Counts
import TemplateLint.Proofs.Scanning
import TemplateLint.Proofs.TypeDocuments

/-! Tables of functions in configurations. Arities and rules can be spelled in several ways, and
what is written of a table that was read is one of these spellings, so that it is read as the same
table. -/
namespace TemplateLint
open Text

/-! ### Arities -/

namespace Arity

variable {n : Nat} {cs : List Char} {a : Arity}

def Fits (a : Arity) : Prop := ∀ n, a = exact n ∨ a = atLeast n → n < 1 <<< 64

theorem fits_exact_iff : (exact n).Fits ↔ n < 1 <<< 64 := by
  simp [Fits]

theorem fits_atLeast_iff : (atLeast n).Fits ↔ n < 1 <<< 64 := by
  simp [Fits]

theorem lt_of_count? (h : count? cs = some n) : n < 1 <<< 64 := by
  unfold count? at h
  dsimp only at h
  split at h
  all_goals
    split at h
    · exact of_decide_eq_true (Option.filter_eq_some_iff.1 h).2
    · cases h

theorem fits_of_ofString? {text : String} (h : ofString? text = some a) : a.Fits := by
  unfold ofString? ofChars? at h
  dsimp only at h
  split at h
  · cases h
    simp [Fits]
  · split at h
    · obtain ⟨n, hn, rfl⟩ := Option.map_eq_some_iff.1 h
      exact fits_atLeast_iff.2 (lt_of_count? hn)
    · obtain ⟨n, hn, rfl⟩ := Option.map_eq_some_iff.1 h
      exact fits_exact_iff.2 (lt_of_count? hn)

theorem isDigit_of_mem_toDigits {c : Char} (h : c ∈ Nat.toDigits 10 n) : c.isDigit = true :=
  Nat.isDigit_of_mem_toDigits (by decide) (by decide) h

theorem count?_toDigits (h : n < 1 <<< 64) : count? (Nat.toDigits 10 n) = some n := by
  have hvalue : (Nat.toDigits 10 n).foldl (fun n c => n * 10 + (c.toNat - '0'.toNat)) 0 = n := by
    have hfold : Nat.ofDigitChars 10 (Nat.toDigits 10 n) 0 =
        (Nat.toDigits 10 n).foldl (fun n c => 10 * n + (c.toNat - '0'.toNat)) 0 :=
      Nat.ofDigitChars_eq_foldl
    rw [Nat.ofDigitChars_ten_toDigits] at hfold
    simpa only [Nat.mul_comm] using hfold.symm
  have hne : Nat.toDigits 10 n ≠ [] := Nat.toDigits_ne_nil
  have hall : (Nat.toDigits 10 n).all Char.isDigit = true :=
    List.all_eq_true.2 fun c hc => isDigit_of_mem_toDigits hc
  unfold count?
  split
  · next digits hdigits =>
    have hplus := isDigit_of_mem_toDigits (n := n) (hdigits ▸ List.mem_cons_self)
    cases hplus
  · dsimp only
    rw [if_pos ⟨hne, hall⟩, hvalue]
    exact Option.filter_eq_some_iff.2 ⟨rfl, decide_eq_true h⟩

theorem ofChars?_toDigits (h : n < 1 <<< 64) : ofChars? (Nat.toDigits 10 n) = some (exact n) ∧
    ofChars? (Nat.toDigits 10 n ++ ['+']) = some (atLeast n) := by
  obtain ⟨c, cs, hcs⟩ := List.exists_cons_of_ne_nil (Nat.toDigits_ne_nil (n := n) (b := 10))
  have hdigit : ∀ d ∈ c :: cs, d.isDigit = true := fun d hd => isDigit_of_mem_toDigits (hcs ▸ hd)
  have hblank : ∀ d ∈ c :: cs, isBlank d = false := fun d hd => isBlank_of_isDigit (hdigit d hd)
  have hword (rest : List Char) : (c :: rest).map Char.toLower ≠ ['a', 'n', 'y'] := by
    have hletter : c.toLower ≠ 'a' :=
      of_isDigit (P := fun c => c.toLower ≠ 'a') (by decide +kernel) (hdigit c List.mem_cons_self)
    intro heq
    exact hletter (List.cons.inj heq).1
  have hcount := count?_toDigits h
  rw [hcs] at hcount ⊢
  have htrim : trim (c :: cs) = c :: cs := by
    apply trim_eq_self
    · intro d hd
      exact hblank d (List.mem_of_mem_head? hd)
    · intro d hd
      exact hblank d (List.mem_of_mem_getLast? hd)
  have hplus : trim (c :: cs ++ ['+']) = c :: cs ++ ['+'] := by
    apply trim_eq_self
    · intro d hd
      exact hblank d (by cases hd; exact List.mem_cons_self)
    · rw [List.getLast?_append]
      intro d hd
      cases hd
      decide
  have hlast : (c :: cs).getLast? ≠ some '+' := by
    intro hlast
    cases hdigit '+' (List.mem_of_getLast? hlast)
  constructor
  · rw [ofChars?, htrim, if_neg (hword cs), if_neg hlast, hcount]
    rfl
  · rw [ofChars?, hplus, List.cons_append, if_neg (hword _), ← List.cons_append,
      if_pos List.getLast?_concat, List.dropLast_concat, htrim, hcount]
    rfl

theorem ofString?_toString (h : a.Fits) : ofString? a.toString = some a := by
  cases a with
  | exact n =>
    rw [Arity.toString, Nat.toString_eq_ofList_toDigits, ofString?, String.toList_ofList]
    exact (ofChars?_toDigits (fits_exact_iff.1 h)).1
  | atLeast n =>
    rw [Arity.toString, Nat.toString_eq_ofList_toDigits, ofString?, String.toList_append,
      String.toList_ofList]
    exact (ofChars?_toDigits (fits_atLeast_iff.1 h)).2
  | any => decide +kernel

end Arity

/-! ### Rules -/

namespace ReturnRule

variable {label text : String}

theorem eq_of_ofString (h : ofString text = fixed label) :
    label = String.ofList (trim text.toList) := by
  unfold ofString at h
  split at h
  all_goals cases h
  rfl

theorem ofString_trim (text : String) :
    ofString (String.ofList (trim text.toList)) = ofString text := by
  unfold ofString
  rw [String.toList_ofList, trim_trim]

theorem ofString_toString_ofString (text : String) :
    ofString (ofString text).toString = ofString text := by
  cases h : ofString text with
  | fixed label =>
    obtain rfl := eq_of_ofString h
    rw [ReturnRule.toString, ofString_trim, h]
  | element | firstArg | unknown => decide +kernel

end ReturnRule

/-! ### Signatures and tables -/

namespace Signature

structure Stable (s : Signature) : Prop where
  arity : s.arity.Fits
  returns : ReturnRule.ofString s.returns.toString = s.returns

theorem ofDocument?_toJson {s : Signature} (h : s.Stable) :
    ofDocument? s.toJson.toDocument = some s := by
  have hjson : s.toJson = .object (present [("arity", some (.string s.arity.toString)),
    ("returns", some (.string s.returns.toString))]) := rfl
  have hfields : s.toJson.toDocument.fields? ["arity", "returns"] =
      some [some (Json.string s.arity.toString).toDocument,
        some (Json.string s.returns.toString).toDocument] := by
    rw [hjson]
    exact Json.fields?_present (show ["arity", "returns"].Nodup by decide)
  have harity : Arity.ofDocument? (Json.string s.arity.toString).toDocument = some s.arity :=
    Arity.ofString?_toString h.arity
  have hreturns : (Json.string s.returns.toString).toDocument.text? =
    some s.returns.toString := rfl
  rw [ofDocument?, hfields]
  dsimp only
  rw [harity, hreturns]
  change some (Signature.mk s.arity (ReturnRule.ofString s.returns.toString)) = some s
  rw [h.returns]

end Signature

namespace NameMap

variable {α : Type} {name : String} {value : α} {es : List (String × α)}

theorem put_of_forall_lt (h : ∀ e ∈ es, e.1 < name) :
    put name value es = es ++ [(name, value)] := by
  induction es with
  | nil => rfl
  | cons e es ih =>
    rw [List.forall_mem_cons] at h
    have hlt : ¬name < e.1 := String.lt_asymm h.1
    have hne : name ≠ e.1 := (Std.ne_of_lt h.1).symm
    rw [put, if_neg hlt, if_neg hne, ih h.2]
    rfl

theorem entries_insertAll (m : NameMap α) (h : (m.entries ++ es).Pairwise fun a b => a.1 < b.1) :
    (m.insertAll es).entries = m.entries ++ es := by
  induction es generalizing m with
  | nil => exact (List.append_nil _).symm
  | cons e es ih =>
    have hlt : ∀ x ∈ m.entries, x.1 < e.1 := fun x hx =>
      (List.pairwise_append.1 h).2.2 x hx e List.mem_cons_self
    have hput : (m.insert e.1 e.2).entries = m.entries ++ [e] := put_of_forall_lt hlt
    have hnext := ih (m.insert e.1 e.2) (by rwa [hput, List.append_assoc])
    rwa [hput, List.append_assoc] at hnext

theorem ext {m m' : NameMap α} (h : m.entries = m'.entries) : m = m' := by
  cases m
  cases h
  rfl

theorem ofList_entries (m : NameMap α) : ofList m.entries = m :=
  ext (entries_insertAll empty m.sorted)

theorem mem_of_mem_insertAll {m : NameMap α} {x : String × α} (h : x ∈ (m.insertAll es).entries) :
    x ∈ m.entries ∨ x ∈ es := by
  induction es generalizing m with
  | nil => exact .inl h
  | cons e es ih =>
    rcases ih h with h | h
    · rcases mem_put h with rfl | h
      · exact .inr List.mem_cons_self
      · exact .inl h
    · exact .inr (List.mem_cons_of_mem _ h)

theorem mem_of_mem_ofList {x : String × α} (h : x ∈ (ofList es).entries) : x ∈ es :=
  (mem_of_mem_insertAll h).resolve_left (List.not_mem_nil)

end NameMap

theorem Signature.stable_of_ofDocument? {d : Document} {s : Signature} (hd : d.CountsFit)
    (h : ofDocument? d = some s) : s.Stable := by
  unfold ofDocument? at h
  split at h
  · next arity returns hfields =>
    obtain ⟨a, ha, h⟩ := Option.bind_eq_some_iff.1 h
    obtain ⟨text, htext, h⟩ := Option.bind_eq_some_iff.1 h
    cases h
    refine ⟨?_, ReturnRule.ofString_toString_ofString text⟩
    have hcounts := hd.of_fields? hfields List.mem_cons_self
    unfold Arity.ofDocument? at ha
    split at ha
    · cases hcounts with
      | leaf hcounts =>
        split at ha
        · next n hn =>
          cases ha
          exact Arity.fits_exact_iff.2 (hcounts n hn)
        · exact Arity.fits_of_ofString? ha
        · cases ha
    · cases ha
  · cases h

theorem exists_mem_of_mapM {α β : Type} {f : α → Option β} {xs : List α} {ys : List β} {y : β}
    (h : xs.mapM f = some ys) (hy : y ∈ ys) : ∃ x ∈ xs, f x = some y := by
  induction mapM_eq_some_iff.1 h with
  | nil => cases hy
  | @cons x _ xs ys hx hxs ih =>
    rcases List.mem_cons.1 hy with rfl | hy
    · exact ⟨x, List.mem_cons_self, hx⟩
    · obtain ⟨x, hmem, hx⟩ := ih (mapM_eq_some_iff.2 hxs) hy
      exact ⟨x, List.mem_cons_of_mem _ hmem, hx⟩

namespace FuncTable

variable {t : FuncTable}

theorem ofDocument?_toJson (h : ∀ e ∈ t.entries, e.2.Stable) :
    ofDocument? t.toJson.toDocument = some t := by
  have hrecord : t.toJson.toDocument.record? =
      some (t.entries.map (Prod.map id (Json.toDocument ∘ Signature.toJson))) := by
    rw [toJson, Json.toDocument, Json.ofMembers_eq_map, List.map_map]
    rfl
  rw [ofDocument?, hrecord, Option.bind_eq_bind, Option.bind_some,
    mapM_eq_some_iff.2 (List.forall₂_map_left_iff.2 (List.forall₂_same.2 ?_))]
  · exact congrArg some (NameMap.ofList_entries t)
  · intro e he
    change Option.map (e.1, ·) (Signature.ofDocument? e.2.toJson.toDocument) = _
    rw [Signature.ofDocument?_toJson (h e he)]
    rfl

theorem stable_of_ofDocument? {d : Document} (hd : d.CountsFit) (h : ofDocument? d = some t) :
    ∀ e ∈ t.entries, e.2.Stable := by
  obtain ⟨members, hmembers, h⟩ := Option.bind_eq_some_iff.1 h
  obtain ⟨entries, hentries, h⟩ := Option.bind_eq_some_iff.1 h
  cases h
  intro e he
  obtain ⟨m, hm, hread⟩ := exists_mem_of_mapM hentries (NameMap.mem_of_mem_ofList he)
  obtain ⟨s, hs, rfl⟩ := Option.map_eq_some_iff.1 hread
  exact Signature.stable_of_ofDocument? (hd.of_record? hmembers m hm) hs

end FuncTable

theorem Config.stable_of_ofDocument? {d : Document} {c : Config} (hd : d.CountsFit)
    (h : ofDocument? d = some c) : ∀ e ∈ c.funcs.entries, e.2.Stable := by
  unfold ofDocument? at h
  split at h
  · next part hfields =>
    obtain ⟨extensions, -, h⟩ := Option.bind_eq_some_iff.1 h
    obtain ⟨delimiters, -, h⟩ := Option.bind_eq_some_iff.1 h
    obtain ⟨context, -, h⟩ := Option.bind_eq_some_iff.1 h
    obtain ⟨report, -, h⟩ := Option.bind_eq_some_iff.1 h
    obtain ⟨funcs, hfuncs, h⟩ := Option.bind_eq_some_iff.1 h
    cases h
    cases part with
    | none =>
      cases hfuncs
      exact List.forall_mem_nil _
    | some d => exact FuncTable.stable_of_ofDocument? (hd.of_fields? hfields (by simp)) hfuncs
  · cases h

theorem Config.stable_of_ofYaml? {text : String} {c : Config} (h : ofYaml? text = some c) :
    ∀ e ∈ c.funcs.entries, e.2.Stable := by
  unfold ofYaml? at h
  split at h
  · cases h
    exact List.forall_mem_nil _
  · obtain ⟨d, hd, h⟩ := Option.bind_eq_some_iff.1 h
    exact stable_of_ofDocument? (Yaml.countsFit_of_document? hd) h

namespace FuncTable

theorem ofDocument?_toJson_of_countsFit {d : Document} (hd : d.CountsFit)
    (h : ofDocument? d = some t) : ofDocument? t.toJson.toDocument = some t :=
  ofDocument?_toJson (stable_of_ofDocument? hd h)

/-- What is written of a table that was read from a document with counts of 64 bits is read as the
same table, be it a value in JSON, a stream in YAML or a configuration. The same holds of a single
arity, however it is spelled, and of a single rule. -/
theorem read_table_is_stable :
    (∀ (d : Document) (t : FuncTable), d.CountsFit → ofDocument? d = some t →
      ofDocument? t.toJson.toDocument = some t) ∧
    (∀ (j : Json) (t : FuncTable), ofDocument? j.toDocument = some t →
      ofDocument? t.toJson.toDocument = some t) ∧
    (∀ (ι : Type) (s : Schema ι) (text : String) (d : Document) (t : FuncTable),
      Yaml.document? s text = some d → ofDocument? d = some t →
        ofDocument? t.toJson.toDocument = some t) ∧
    (∀ (text : String) (c : Config), Config.ofYaml? text = some c →
      ofDocument? c.funcs.toJson.toDocument = some c.funcs) ∧
    (∀ (text : String) (a : Arity), Arity.ofString? text = some a →
      Arity.ofString? a.toString = some a) ∧
    ∀ text : String, ReturnRule.ofString (ReturnRule.ofString text).toString =
      ReturnRule.ofString text := by
  refine ⟨fun d t hd h => ?_, fun j t h => ?_, fun ι s text d t hd h => ?_, fun text c h => ?_,
    fun text a h => ?_, ReturnRule.ofString_toString_ofString⟩
  · exact ofDocument?_toJson_of_countsFit hd h
  · exact ofDocument?_toJson_of_countsFit j.countsFit_toDocument h
  · exact ofDocument?_toJson_of_countsFit (Yaml.countsFit_of_document? hd) h
  · exact ofDocument?_toJson (Config.stable_of_ofYaml? h)
  · exact Arity.ofString?_toString (Arity.fits_of_ofString? h)

theorem read_table_is_stable_of_blanks :
    let j : Json := .object [("at", .array [.string " +2 + ", .string " element"]),
      ("f", .object [("returns", .string ""), ("arity", .number "7")])]
    let t : FuncTable :=
      NameMap.ofList [("at", ⟨.atLeast 2, .element⟩), ("f", ⟨.exact 7, .unknown⟩)]
    ofDocument? j.toDocument = some t ∧ ofDocument? t.toJson.toDocument = some t := by
  intro j t
  have h : ofDocument? j.toDocument = some t := by rfl
  exact ⟨h, read_table_is_stable.2.1 j t h⟩

end FuncTable
end TemplateLint
