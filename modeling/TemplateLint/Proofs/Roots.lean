import TemplateLint.Proofs.TemplateKeys
import TemplateLint.Proofs.Validation

/-! The root of a template. Its fields are the template's own variables and the globals that these
do not hide; it keeps the rules for type trees unless one of the two lists repeats a name, which
nothing refuses before. -/
namespace TemplateLint

namespace Manifest

variable {m : Manifest} {path name : String}

def own (m : Manifest) (path : String) : List TypeNode := (m.templateVars? path).getD []

def visible (m : Manifest) (path : String) : List TypeNode :=
  m.globals.filter fun g => g.name ∉ (m.own path).map TypeNode.name

theorem rootFor_eq (m : Manifest) (path : String) :
    m.rootFor path = TypeNode.root (m.visible path ++ m.own path) := by
  have hhidden (own : List TypeNode) (g : TypeNode) :
      (!own.any (·.name == g.name)) = decide (g.name ∉ own.map TypeNode.name) := by
    rw [Bool.eq_iff_iff]
    simp
  unfold rootFor visible
  simp only [hhidden]
  rfl

theorem map_name_visible (m : Manifest) (path : String) :
    (m.visible path).map TypeNode.name =
      (m.globals.map TypeNode.name).filter fun n => n ∉ (m.own path).map TypeNode.name := by
  rw [visible, List.filter_map]
  rfl

theorem fieldNames_rootFor (m : Manifest) (path : String) :
    (m.rootFor path).fieldNames =
      (m.visible path).map TypeNode.name ++ (m.own path).map TypeNode.name := by
  rw [rootFor_eq]
  exact List.map_append

theorem find?_visible_of_mem (h : name ∈ (m.own path).map TypeNode.name) :
    (m.visible path).find? (·.name == name) = none := by
  rw [List.find?_eq_none]
  intro g hg hname
  rw [visible, List.mem_filter, decide_eq_true_iff, beq_iff_eq.1 hname] at hg
  exact hg.2 h

theorem find?_visible_of_not_mem (h : name ∉ (m.own path).map TypeNode.name) :
    (m.visible path).find? (·.name == name) = m.globals.find? (·.name == name) := by
  rw [visible, List.find?_filter]
  congr 1
  funext g
  rw [Bool.eq_iff_iff, decide_eq_true_iff, decide_eq_true_iff, beq_iff_eq]
  exact ⟨And.right, fun hname => ⟨hname ▸ h, hname⟩⟩

/-- A name stands for the first of a template's own variables that has it, else for the first global
that has it; and the root lists the globals that are not hidden before the variables of its own. -/
theorem own_variables_hide_globals (m : Manifest) (path name : String) :
    (m.rootFor path).field? name =
      ((m.own path).find? (·.name == name)).or (m.globals.find? (·.name == name)) ∧
    (m.rootFor path).fieldNames =
      (m.globals.map TypeNode.name).filter (fun n => n ∉ (m.own path).map TypeNode.name) ++
        (m.own path).map TypeNode.name := by
  constructor
  · have hfields : (m.rootFor path).field? name =
        (m.visible path ++ m.own path).find? (·.name == name) := by
      rw [rootFor_eq]
      rfl
    rw [hfields, List.find?_append]
    by_cases h : name ∈ (m.own path).map TypeNode.name
    · obtain ⟨v, hv, hname⟩ := List.mem_map.1 h
      have hfound : ((m.own path).find? (·.name == name)).isSome = true :=
        List.find?_isSome.2 ⟨v, hv, beq_iff_eq.2 hname⟩
      obtain ⟨first, hfirst⟩ := Option.isSome_iff_exists.1 hfound
      rw [find?_visible_of_mem h, hfirst]
      rfl
    · have hnone : (m.own path).find? (·.name == name) = none := by
        rw [List.find?_eq_none]
        intro v hv hname
        exact h (List.mem_map.2 ⟨v, hv, beq_iff_eq.1 hname⟩)
      rw [find?_visible_of_not_mem h, hnone, Option.or_none, Option.none_or]
  · rw [fieldNames_rootFor, map_name_visible]

theorem validateAll_eq_ok_iff {ts : List TypeNode} :
    validateAll ts = .ok () ↔ ∀ t ∈ ts, t.validate = .ok () := by
  induction ts with
  | nil => exact ⟨fun _ t ht => (by cases ht), fun _ => rfl⟩
  | cons t ts ih =>
    rw [validateAll, List.forall_mem_cons, ← ih]
    cases t.validate with
    | ok u => exact ⟨fun h => ⟨rfl, h⟩, And.right⟩
    | error e =>
      constructor
      · intro h
        cases h
      · rintro ⟨h, -⟩
        cases h

theorem mem_types_of_mem_own {v : TypeNode} (h : v ∈ m.own path) : v ∈ m.types := by
  unfold own at h
  cases hvars : m.templateVars? path with
  | none =>
    rw [hvars] at h
    cases h
  | some vars =>
    obtain ⟨key, hchosen⟩ := templateVars?_eq_some_iff.1 hvars
    rw [hvars] at h
    have hvalues : vars ∈ m.templates.values := List.mem_map.2 ⟨_, hchosen.entry, rfl⟩
    exact List.mem_append_right _ (List.mem_flatten.2 ⟨vars, hvalues, h⟩)

theorem validate_of_mem_fields (h : m.validate = .ok ()) :
    ∀ v ∈ m.visible path ++ m.own path, v.validate = .ok () := by
  intro v hv
  refine validateAll_eq_ok_iff.1 h v ?_
  rcases List.mem_append.1 hv with hv | hv
  · exact List.mem_append_left _ (List.mem_of_mem_filter hv)
  · exact mem_types_of_mem_own hv

theorem nodup_fieldNames_iff :
    (m.rootFor path).fieldNames.Nodup ↔
      ((m.visible path).map TypeNode.name).Nodup ∧ ((m.own path).map TypeNode.name).Nodup := by
  rw [fieldNames_rootFor, List.nodup_append]
  constructor
  · rintro ⟨hvisible, hown, -⟩
    exact ⟨hvisible, hown⟩
  · rintro ⟨hvisible, hown⟩
    refine ⟨hvisible, hown, ?_⟩
    rintro n hn _ hn' rfl
    rw [map_name_visible, List.mem_filter, decide_eq_true_iff] at hn
    exact hn.2 hn'

/-- The root that a valid manifest gives is valid if and only if neither the template's own
variables nor the globals that they leave visible repeat a name; the fault is the first name that
comes again. -/
theorem root_is_valid_iff_names_distinct {m : Manifest} (h : m.validate = .ok ()) (path : String) :
    ((m.rootFor path).validate = .ok () ↔
      ((m.own path).map TypeNode.name).Nodup ∧
        ((m.globals.map TypeNode.name).filter
          fun n => n ∉ (m.own path).map TypeNode.name).Nodup) ∧
    ∀ e, (m.rootFor path).validate = .error e ↔
      ∃ name, FirstRepeat (m.rootFor path).fieldNames name ∧
        e = .duplicateField TypeNode.rootLabel name := by
  have hfields : ∀ v ∈ m.visible path ++ m.own path, v.validate = .ok () :=
    validate_of_mem_fields h
  constructor
  · rw [← map_name_visible, and_comm, ← nodup_fieldNames_iff, rootFor_eq]
    exact TypeNode.validate_root_eq_ok_iff hfields
  · intro e
    rw [rootFor_eq]
    exact TypeNode.validate_root_eq_error_iff hfields

theorem root_is_valid_iff_names_distinct_of_hidden :
    let m : Manifest := ⟨[.scalar "A" "int", .scalar "A" "string", .scalar "B" "int"],
      ⟨[("a.html", [.scalar "A" "bool"])], List.pairwise_singleton _ _⟩⟩
    m.validate = .ok () ∧ (m.rootFor "v/a.html").validate = .ok () ∧
      (m.rootFor "b.html").validate = .error (.duplicateField "root" "A") := by
  intro m
  have hvalid : m.validate = .ok () := by decide +kernel
  have hown : (m.own "v/a.html").map TypeNode.name = ["A"] := by decide +kernel
  have hnames : (m.rootFor "b.html").fieldNames = ["A", "A", "B"] := by decide +kernel
  refine ⟨hvalid, ?_, ?_⟩
  · refine (root_is_valid_iff_names_distinct hvalid "v/a.html").1.2 ?_
    rw [hown]
    decide
  · refine ((root_is_valid_iff_names_distinct hvalid "b.html").2 _).2 ⟨"A", ?_, rfl⟩
    rw [hnames]
    exact ⟨["A"], ["B"], rfl, List.nodup_singleton _, List.mem_singleton_self _⟩

/-- Globals that repeat a name pass, and the root with them does not. -/
theorem repeated_global_passes :
    let m : Manifest := ⟨[.scalar "Title" "string", .scalar "Title" "int"], .empty⟩
    m.validate = .ok () ∧
      (m.rootFor "a.html").validate = .error (.duplicateField "root" "Title") := by
  decide +kernel

end Manifest
end TemplateLint
