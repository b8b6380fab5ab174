import Mathlib.Data.List.Nodup
import TemplateLint.TypeNode.Validate

/-! What the rules for type trees come to. Fields pass if each of them does and no two share a name;
if each of them does, then the fault is the first name that comes again. -/
namespace TemplateLint

def FirstRepeat (names : List String) (name : String) : Prop :=
  ∃ before after, names = before ++ name :: after ∧ before.Nodup ∧ name ∈ before

namespace FirstRepeat

variable {names before after : List String} {name other : String}

theorem not_nodup_append (h : name ∈ before) : ¬(before ++ name :: after).Nodup := by
  intro hnodup
  exact (List.nodup_append.1 hnodup).2.2 name h name List.mem_cons_self rfl

theorem not_nodup (h : FirstRepeat names name) : ¬names.Nodup := by
  obtain ⟨before, after, rfl, -, hmem⟩ := h
  exact not_nodup_append hmem

theorem eq_of_append {more after' : List String} (hmem : name ∈ before)
    (hnodup : (before ++ more).Nodup) (h : name :: after = more ++ other :: after') :
    name = other := by
  cases more with
  | nil =>
    cases h
    rfl
  | cons n more =>
    cases h
    exact absurd hnodup (not_nodup_append hmem)

theorem unique (h : FirstRepeat names name) (h' : FirstRepeat names other) : name = other := by
  obtain ⟨before, after, hnames, hnodup, hmem⟩ := h
  obtain ⟨before', after', hnames', hnodup', hmem'⟩ := h'
  rcases List.append_eq_append_iff.1 (hnames.symm.trans hnames') with
    ⟨more, rfl, hafter⟩ | ⟨more, rfl, hafter⟩
  · exact eq_of_append hmem hnodup' hafter
  · exact (eq_of_append hmem' hnodup hafter).symm

end FirstRepeat

namespace TypeNode

variable {label : String} {seen : List String} {fields : List TypeNode} {e : TypeFault}

theorem validateFields_cons_of_mem {f : TypeNode} (h : f.name ∈ seen) :
    validateFields label seen (f :: fields) = .error (.duplicateField label f.name) := by
  rw [validateFields, if_pos (List.contains_iff_mem.2 h)]
  rfl

theorem validateFields_cons_of_not_mem {f : TypeNode} (h : f.name ∉ seen) :
    validateFields label seen (f :: fields) =
      (do f.validate; validateFields label (f.name :: seen) fields) := by
  rw [validateFields, if_neg (mt List.contains_iff_mem.1 h)]

/-- `seen` holds the names from the last to the first, so that with those to come they are all names
in their order, whichever field it is the turn of. -/
theorem validateFields_cases (hseen : seen.Nodup) :
    (validateFields label seen fields = .ok () ∧ (∀ f ∈ fields, f.validate = .ok ()) ∧
        (seen.reverse ++ fields.map name).Nodup) ∨
      (∃ f ∈ fields, ∃ e, f.validate = .error e ∧ validateFields label seen fields = .error e) ∨
      ∃ n, validateFields label seen fields = .error (.duplicateField label n) ∧
        FirstRepeat (seen.reverse ++ fields.map name) n := by
  induction fields generalizing seen with
  | nil =>
    left
    rw [validateFields, List.map_nil, List.append_nil, List.nodup_reverse]
    exact ⟨rfl, List.forall_mem_nil _, hseen⟩
  | cons f fields ih =>
    by_cases hmem : f.name ∈ seen
    · right
      right
      refine ⟨f.name, validateFields_cons_of_mem hmem, seen.reverse, fields.map name, rfl, ?_, ?_⟩
      · exact List.nodup_reverse.2 hseen
      · exact List.mem_reverse.2 hmem
    · rw [validateFields_cons_of_not_mem hmem]
      cases hf : f.validate with
      | error e => exact .inr (.inl ⟨f, List.mem_cons_self, e, hf, rfl⟩)
      | ok =>
        have hnext := ih (List.nodup_cons.2 ⟨hmem, hseen⟩)
        rw [List.reverse_cons, List.append_assoc] at hnext
        rcases hnext with ⟨hok, hvalid, hnodup⟩ | ⟨g, hg, e, hfault, herror⟩ | hrepeat
        · exact .inl ⟨hok, List.forall_mem_cons.2 ⟨hf, hvalid⟩, hnodup⟩
        · exact .inr (.inl ⟨g, List.mem_cons_of_mem _ hg, e, hfault, herror⟩)
        · exact .inr (.inr hrepeat)

theorem validateFields_of_valid (hseen : seen.Nodup) (h : ∀ f ∈ fields, f.validate = .ok ()) :
    validateFields label seen fields = .ok () ∧ (seen.reverse ++ fields.map name).Nodup ∨
      ∃ n, validateFields label seen fields = .error (.duplicateField label n) ∧
        FirstRepeat (seen.reverse ++ fields.map name) n := by
  rcases validateFields_cases hseen with ⟨hok, -, hnodup⟩ | ⟨f, hf, e, hfault, -⟩ | hrepeat
  · exact .inl ⟨hok, hnodup⟩
  · cases (h f hf).symm.trans hfault
  · exact .inr hrepeat

theorem validate_root (vars : List TypeNode) :
    (root vars).validate = validateFields rootLabel [] vars := by
  rw [root, structure_, validate]
  cases validateFields rootLabel [] vars <;> rfl

variable {vars : List TypeNode}

theorem validate_root_eq_ok_iff (h : ∀ v ∈ vars, v.validate = .ok ()) :
    (root vars).validate = .ok () ↔ (vars.map name).Nodup := by
  rw [validate_root]
  rcases validateFields_of_valid List.nodup_nil h with ⟨hok, hnodup⟩ | ⟨n, herror, hrepeat⟩
  · exact ⟨fun _ => hnodup, fun _ => hok⟩
  · rw [herror]
    constructor
    · intro hok
      cases hok
    · intro hnodup
      exact absurd hnodup hrepeat.not_nodup

theorem validate_root_eq_error_iff (h : ∀ v ∈ vars, v.validate = .ok ()) :
    (root vars).validate = .error e ↔
      ∃ n, FirstRepeat (vars.map name) n ∧ e = .duplicateField rootLabel n := by
  rw [validate_root]
  rcases validateFields_of_valid List.nodup_nil h with ⟨hok, hnodup⟩ | ⟨n, herror, hrepeat⟩
  · rw [hok]
    constructor
    · intro h
      cases h
    · rintro ⟨n, hrepeat, -⟩
      exact absurd hnodup hrepeat.not_nodup
  · rw [herror]
    constructor
    · intro h
      cases h
      exact ⟨n, hrepeat, rfl⟩
    · rintro ⟨n', hrepeat', rfl⟩
      rw [FirstRepeat.unique hrepeat hrepeat']

end TypeNode
end TemplateLint
