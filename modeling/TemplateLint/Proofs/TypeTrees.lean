import Mathlib.Logic.Relation
import TemplateLint.Proofs.Validation

/-! Type trees as a whole. A tree passes if and only if each node that can be reached in it keeps
the four rules, and a fault is always one that such a node has, with that node's name and label. -/
namespace TemplateLint

def TypeFault.rule (e : TypeFault) : Nat := e.ctorIdx

namespace TypeFault

variable {name label field : String}

@[simp] theorem rule_sliceAndMap : (sliceAndMap name label).rule = 0 := rfl

@[simp] theorem rule_containerWithFields : (containerWithFields name label).rule = 1 := rfl

@[simp] theorem rule_keyOnNonMap : (keyOnNonMap name label).rule = 2 := rfl

@[simp] theorem rule_duplicateField : (duplicateField label field).rule = 3 := rfl

end TypeFault

namespace TypeNode

variable {t u : TypeNode} {e : TypeFault}

inductive HasPart (t : TypeNode) : TypeNode → Prop where
  | field {u : TypeNode} (h : u ∈ t.fields) : HasPart t u
  | elem {u : TypeNode} (h : t.elem = some u) : HasPart t u
  | key {u : TypeNode} (h : t.key = some u) : HasPart t u

theorem HasPart.sizeOf_lt (h : t.HasPart u) : sizeOf u < sizeOf t := by
  obtain ⟨name, label, isSlice, isMap, elem, key, fields⟩ := t
  rw [mk.sizeOf_spec]
  cases h with
  | field h =>
    have hfield : sizeOf u < sizeOf fields := List.sizeOf_lt_of_mem h
    omega
  | elem h =>
    cases (show elem = some u from h)
    rw [Option.some.sizeOf_spec]
    omega
  | key h =>
    cases (show key = some u from h)
    rw [Option.some.sizeOf_spec]
    omega

@[elab_as_elim]
theorem induction_on_parts {P : TypeNode → Prop} (t : TypeNode)
    (step : ∀ t, (∀ u, t.HasPart u → P u) → P t) : P t := by
  induction hsize : sizeOf t using Nat.strongRecOn generalizing t with
  | ind size ih => exact step t fun u hu => ih (sizeOf u) (hsize ▸ hu.sizeOf_lt) u rfl

def Reaches : TypeNode → TypeNode → Prop := Relation.ReflTransGen HasPart

structure Sound (t : TypeNode) : Prop where
  not_both : ¬(t.isSlice = true ∧ t.isMap = true)
  plain : t.isSlice = true ∨ t.isMap = true → t.fields = []
  keyed : t.key ≠ none → t.isMap = true
  distinct : t.fieldNames.Nodup

inductive Breaks (t : TypeNode) : TypeFault → Prop where
  | sliceAndMap (hslice : t.isSlice = true) (hmap : t.isMap = true) :
    Breaks t (.sliceAndMap t.name t.label)
  | containerWithFields (hcontainer : t.isSlice = true ∨ t.isMap = true) (hfields : t.fields ≠ []) :
    Breaks t (.containerWithFields t.name t.label)
  | keyOnNonMap (hkey : t.key ≠ none) (hmap : t.isMap = false) :
    Breaks t (.keyOnNonMap t.name t.label)
  | duplicateField {field : String} (hfield : FirstRepeat t.fieldNames field) :
    Breaks t (.duplicateField t.label field)

theorem Sound.not_breaks (h : t.Sound) : ¬t.Breaks e := by
  rintro (⟨hslice, hmap⟩ | ⟨hcontainer, hfields⟩ | ⟨hkey, hmap⟩ | hfield)
  · exact h.not_both ⟨hslice, hmap⟩
  · exact hfields (h.plain hcontainer)
  · rw [h.keyed hkey] at hmap
    cases hmap
  · exact hfield.not_nodup h.distinct

/-- A fault that a node has and no other comes before. -/
structure FirstBreak (t : TypeNode) (e : TypeFault) : Prop where
  breaks : t.Breaks e
  first : ∀ other, t.Breaks other → e.rule ≤ other.rule

theorem checkNode_cases (t : TypeNode) :
    (∃ e, t.checkNode = .error e ∧ t.FirstBreak e) ∨
      t.checkNode = .ok () ∧ (t.fieldNames.Nodup → t.Sound) ∧
        ∀ n, FirstRepeat t.fieldNames n → t.FirstBreak (.duplicateField t.label n) := by
  unfold checkNode
  split
  · next hboth =>
    obtain ⟨hslice, hmap⟩ := Bool.and_eq_true_iff.1 hboth
    refine .inl ⟨_, rfl, .sliceAndMap hslice hmap, fun other hother => ?_⟩
    cases hother <;> simp
  · next hboth =>
    rw [Bool.and_eq_true_iff] at hboth
    split
    · next hcontainer =>
      obtain ⟨hiterable, hfields⟩ := Bool.and_eq_true_iff.1 hcontainer
      have hbreak : t.Breaks (.containerWithFields t.name t.label) :=
        .containerWithFields (Bool.or_eq_true_iff.1 hiterable) (by simpa using hfields)
      refine .inl ⟨_, rfl, hbreak, fun other hother => ?_⟩
      cases hother with
      | sliceAndMap hslice hmap => exact absurd ⟨hslice, hmap⟩ hboth
      | containerWithFields | keyOnNonMap | duplicateField => simp
    · next hcontainer =>
      have hplain (h : t.isSlice = true ∨ t.isMap = true) : t.fields = [] := by
        simpa [isIterable, h] using hcontainer
      split
      · next hkey =>
        obtain ⟨hmap, hkey⟩ := Bool.and_eq_true_iff.1 hkey
        have hbreak : t.Breaks (.keyOnNonMap t.name t.label) :=
          .keyOnNonMap (by simpa [Option.isSome_iff_ne_none] using hkey) (by simpa using hmap)
        refine .inl ⟨_, rfl, hbreak, fun other hother => ?_⟩
        cases hother with
        | sliceAndMap hslice hmap => exact absurd ⟨hslice, hmap⟩ hboth
        | containerWithFields hcontainer hfields => exact absurd (hplain hcontainer) hfields
        | keyOnNonMap | duplicateField => simp
      · next hkey =>
        have hkeyed (h : t.key ≠ none) : t.isMap = true := by
          simpa [Option.isSome_iff_ne_none, h] using hkey
        refine .inr ⟨rfl, fun hdistinct => ⟨hboth, hplain, hkeyed, hdistinct⟩, fun n hn => ?_⟩
        refine ⟨.duplicateField hn, fun other hother => ?_⟩
        cases hother with
        | sliceAndMap hslice hmap => exact absurd ⟨hslice, hmap⟩ hboth
        | containerWithFields hcontainer hfields => exact absurd (hplain hcontainer) hfields
        | keyOnNonMap hkey hmap =>
          rw [hkeyed hkey] at hmap
          cases hmap
        | duplicateField => simp

theorem validate_eq (t : TypeNode) :
    t.validate =
      (do t.checkNode; validateFields t.label [] t.fields; validatePart t.elem;
          validatePart t.key) := by
  cases t
  rw [validate]

theorem validatePart_eq_ok_iff {part : Option TypeNode} :
    validatePart part = .ok () ↔ ∀ u, part = some u → u.validate = .ok () := by
  cases part with
  | none => simp [validatePart]
  | some u => simp [validatePart]

theorem validatePart_eq_error_iff {part : Option TypeNode} :
    validatePart part = .error e ↔ ∃ u, part = some u ∧ u.validate = .error e := by
  cases part with
  | none => simp [validatePart]
  | some u => simp [validatePart]

theorem validate_cases (t : TypeNode) :
    t.validate = .ok () ∧ t.Sound ∧ (∀ u, t.HasPart u → u.validate = .ok ()) ∨
      ∃ e, t.validate = .error e ∧
        (t.FirstBreak e ∨ ∃ u, t.HasPart u ∧ u.validate = .error e) := by
  rw [validate_eq]
  rcases checkNode_cases t with ⟨e, hcheck, hbreak⟩ | ⟨hcheck, hsound, hrepeat⟩
  · exact .inr ⟨e, by rw [hcheck]; rfl, .inl hbreak⟩
  · rw [hcheck]
    rcases validateFields_cases List.nodup_nil with
      ⟨hfields, hvalid, hnodup⟩ | ⟨f, hf, e, hfault, hfields⟩ | ⟨n, hfields, hn⟩
    · rw [hfields]
      cases helem : validatePart t.elem with
      | error e =>
        obtain ⟨u, hu, hfault⟩ := validatePart_eq_error_iff.1 helem
        exact .inr ⟨e, rfl, .inr ⟨u, .elem hu, hfault⟩⟩
      | ok =>
        cases hkey : validatePart t.key with
        | error e =>
          obtain ⟨u, hu, hfault⟩ := validatePart_eq_error_iff.1 hkey
          exact .inr ⟨e, rfl, .inr ⟨u, .key hu, hfault⟩⟩
        | ok =>
          refine .inl ⟨rfl, hsound hnodup, fun u hu => ?_⟩
          cases hu with
          | field h => exact hvalid u h
          | elem h => exact validatePart_eq_ok_iff.1 helem u h
          | key h => exact validatePart_eq_ok_iff.1 hkey u h
    · rw [hfields]
      exact .inr ⟨e, rfl, .inr ⟨f, .field hf, hfault⟩⟩
    · rw [hfields]
      exact .inr ⟨_, rfl, .inl (hrepeat n hn)⟩

theorem sound_of_reaches (hvalid : t.validate = .ok ()) (h : t.Reaches u) : u.Sound := by
  have hnode : u.validate = .ok () := by
    induction h with
    | refl => exact hvalid
    | @tail v w _ hpart ih =>
      rcases validate_cases v with ⟨-, -, hparts⟩ | ⟨e, herror, -⟩
      · exact hparts w hpart
      · cases ih.symm.trans herror
  rcases validate_cases u with ⟨-, hsound, -⟩ | ⟨e, herror, -⟩
  · exact hsound
  · cases hnode.symm.trans herror

theorem exists_firstBreak_of_error (h : t.validate = .error e) :
    ∃ u, t.Reaches u ∧ u.FirstBreak e := by
  induction t using induction_on_parts with
  | step t ih =>
    rcases validate_cases t with ⟨hok, -⟩ | ⟨e', herror, hbreak⟩
    · cases hok.symm.trans h
    · cases h.symm.trans herror
      rcases hbreak with hbreak | ⟨u, hpart, hfault⟩
      · exact ⟨t, .refl, hbreak⟩
      · obtain ⟨v, hreaches, hbreak⟩ := ih u hpart hfault
        exact ⟨v, .head hpart hreaches, hbreak⟩

/-- Validation decides whether all nodes of a tree are sound. What it refuses a tree for is the
first fault of one of its nodes. -/
theorem validation_decides_soundness (t : TypeNode) :
    (t.validate = .ok () ↔ ∀ u, t.Reaches u → u.Sound) ∧
      ∀ e, t.validate = .error e → ∃ u, t.Reaches u ∧ u.FirstBreak e := by
  refine ⟨⟨fun hvalid u => sound_of_reaches hvalid, fun hsound => ?_⟩,
    fun e => exists_firstBreak_of_error⟩
  cases hvalid : t.validate with
  | ok => rfl
  | error e =>
    obtain ⟨u, hreaches, hbreak⟩ := exists_firstBreak_of_error hvalid
    exact absurd hbreak.breaks (hsound u hreaches).not_breaks

theorem validation_decides_soundness_of_elements :
    let user := structure_ "" "User" [scalar "Name" "string", scalar "Name" "int"]
    let t := root [slice "Users" user, { slice "Tags" unknown with key := some unknown }]
    t.validate = .error (.duplicateField "User" "Name") ∧
      ∃ u, t.Reaches u ∧ u.FirstBreak (.duplicateField "User" "Name") := by
  intro user t
  have herror : t.validate = .error (.duplicateField "User" "Name") := by rfl
  exact ⟨herror, (validation_decides_soundness t).2 _ herror⟩

end TypeNode
end TemplateLint
