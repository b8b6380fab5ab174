import TemplateLint.Yaml.Document

/-! Counts in documents. A notation takes a whole number for a count only if it has at most 64 bits,
and whatever is read of a document is a part of it. -/
namespace TemplateLint

namespace Document

section

variable {members : List (String × Document)} {x : Document}

theorem exists_mem_of_member? {key : String} (h : member? key members = some (some x)) :
    ∃ name, (name, x) ∈ members := by
  unfold member? at h
  split at h
  · cases h
  · next name value hfilter =>
    cases h
    exact ⟨name, (List.mem_filter.1 (hfilter ▸ List.mem_cons_self)).1⟩
  · cases h

theorem exists_mem_of_members? {keys : List String} {values : List (Option Document)}
    (h : members? members keys = some values) (hx : some x ∈ values) :
    ∃ name, (name, x) ∈ members := by
  induction keys generalizing values with
  | nil =>
    cases h
    cases hx
  | cons key keys ih =>
    rw [members?] at h
    split at h
    · cases h
    · next value hvalue =>
      obtain ⟨rest, hrest, rfl⟩ := Option.map_eq_some_iff.1 h
      rcases List.mem_cons.1 hx with rfl | hx
      · exact exists_mem_of_member? hvalue
      · exact ih hrest hx

end

inductive CountsFit : Document → Prop where
  | leaf {l : Leaf} (h : ∀ n, l.value = .count n → n < 1 <<< 64) : CountsFit (leaf l)
  | list {items : List Document} (h : ∀ d ∈ items, CountsFit d) : CountsFit (list items)
  | record {members : List (String × Document)} (h : ∀ m ∈ members, CountsFit m.2) :
    CountsFit (record members)
  | unreadable : CountsFit unreadable

namespace CountsFit

variable {d x : Document}

theorem of_record? (h : d.CountsFit) {members : List (String × Document)}
    (hd : d.record? = some members) : ∀ m ∈ members, m.2.CountsFit := by
  cases h with
  | leaf =>
    rw [Document.record?] at hd
    split at hd
    · cases hd
      exact List.forall_mem_nil _
    · cases hd
  | list | unreadable => cases hd
  | record h =>
    cases hd
    exact h

theorem of_fields? (h : d.CountsFit) {keys : List String} {values : List (Option Document)}
    (hvalues : d.fields? keys = some values) (hx : some x ∈ values) : x.CountsFit := by
  unfold fields? at hvalues
  split at hvalues
  · next items =>
    split at hvalues
    · cases hvalues
      cases h with
      | list h => exact h x (by simpa [List.mem_replicate] using hx)
    · cases hvalues
  · obtain ⟨members, hmembers, hkeys⟩ := Option.bind_eq_some_iff.1 hvalues
    obtain ⟨name, hmem⟩ := exists_mem_of_members? hkeys hx
    exact h.of_record? hmembers (name, x) hmem

end CountsFit
end Document

namespace Json

mutual

theorem countsFit_toDocument : ∀ j : Json, j.toDocument.CountsFit
  | null | bool _ | string _ => .leaf fun n h => by cases h
  | number literal => by
    rw [toDocument]
    split
    · refine .leaf fun n h => ?_
      dsimp only at h
      split at h
      · next hlt =>
        cases h
        exact hlt
      · cases h
    · exact .leaf fun n h => by cases h
  | array items => .list (countsFit_ofItems items)
  | object members => .record (countsFit_ofMembers members)
  | unreadable => .unreadable

theorem countsFit_ofItems : ∀ items : List Json, ∀ d ∈ toDocument.ofItems items, d.CountsFit
  | [] => List.forall_mem_nil _
  | item :: items =>
    List.forall_mem_cons.2 ⟨countsFit_toDocument item, countsFit_ofItems items⟩

theorem countsFit_ofMembers :
    ∀ members : List (String × Json), ∀ m ∈ toDocument.ofMembers members, m.2.CountsFit
  | [] => List.forall_mem_nil _
  | (_, value) :: members =>
    List.forall_mem_cons.2 ⟨countsFit_toDocument value, countsFit_ofMembers members⟩

end

end Json

namespace Yaml

def Yields {α : Type} (P : α → Prop) (x : StateM Nat α) : Prop := ∀ budget, P (x.run budget).1

namespace Yields

variable {α β : Type} {P : α → Prop} {Q : β → Prop}

theorem pure {a : α} (h : P a) : Yields P (Pure.pure a) := fun _ => h

theorem bind {x : StateM Nat α} {f : α → StateM Nat β} (hx : Yields P x)
    (hf : ∀ a, P a → Yields Q (f a)) : Yields Q (x >>= f) := fun budget => hf _ (hx budget) _

end Yields

section

variable {k : Nat}

theorem lt_of_numberScalar {n : Int} (h : numberScalar n = .count k) : k < 1 <<< 64 := by
  unfold numberScalar at h
  split at h
  · next hn =>
    cases h
    change n.toNat < 0x10000000000000000
    omega
  · cases h

theorem lt_of_plainScalar {text : String} (h : plainScalar text = .count k) : k < 1 <<< 64 := by
  unfold plainScalar at h
  split at h
  · cases h
  · split at h
    · exact lt_of_numberScalar h
    · cases h

theorem lt_of_scalarValue {tag : Option TagText} {style : Style} {text : String}
    (h : scalarValue tag style text = .count k) : k < 1 <<< 64 := by
  have huntagged (h : (if style = .plain then plainScalar text else .text text) = .count k) :
      k < 1 <<< 64 := by
    split at h
    · exact lt_of_plainScalar h
    · cases h
  unfold scalarValue at h
  dsimp only at h
  split at h
  · exact huntagged h
  · split at h
    · cases h
    · split at h
      · split at h
        · exact lt_of_numberScalar h
        · cases h
      · split at h
        · exact huntagged h
        · cases h

end

namespace Node

variable {ι : Type} {s : Schema ι} {jump : Option ι → Nat → StateM Nat Document}

mutual

theorem countsFit_toDocumentWith (hjump : ∀ place k, Yields Document.CountsFit (jump place k)) :
    ∀ (place : Option ι) (n : Node Nat), Yields Document.CountsFit (n.toDocumentWith s jump place)
  | place, reference k => by
    rw [toDocumentWith]
    exact hjump place k
  | _, scalar props style text => by
    rw [toDocumentWith]
    exact .pure (.leaf fun _ => lt_of_scalarValue)
  | none, sequence _ items => by
    rw [toDocumentWith]
    exact .pure .unreadable
  | some p, sequence _ items => by
    rw [toDocumentWith]
    exact (countsFit_ofItems hjump p 0 items).bind fun ds h => .pure (.list h)
  | none, mapping _ entries => by
    rw [toDocumentWith]
    exact .pure .unreadable
  | some p, mapping _ entries => by
    rw [toDocumentWith]
    refine (countsFit_ofEntries hjump p entries).bind fun members h => ?_
    cases members with
    | none => exact .pure .unreadable
    | some members => exact .pure (.record (h members rfl))

theorem countsFit_ofItems (hjump : ∀ place k, Yields Document.CountsFit (jump place k)) :
    ∀ (p : ι) (n : Nat) (items : List (Node Nat)),
      Yields (fun ds => ∀ d ∈ ds, d.CountsFit) (toDocumentWith.ofItems s jump p n items)
  | _, _, [] => by
    rw [toDocumentWith.ofItems]
    exact .pure (List.forall_mem_nil _)
  | p, n, node :: nodes => by
    rw [toDocumentWith.ofItems]
    refine (countsFit_toDocumentWith hjump (some (s.item p n)) node).bind fun d hd => ?_
    refine (countsFit_ofItems hjump p (n + 1) nodes).bind fun ds hds => ?_
    exact .pure (List.forall_mem_cons.2 ⟨hd, hds⟩)

theorem countsFit_ofEntries (hjump : ∀ place k, Yields Document.CountsFit (jump place k)) :
    ∀ (p : ι) (entries : List (Node Nat × Node Nat)),
      Yields (fun result => ∀ members, result = some members → ∀ m ∈ members, m.2.CountsFit)
        (toDocumentWith.ofEntries s jump p entries)
  | _, [] => by
    rw [toDocumentWith.ofEntries]
    refine .pure fun members h => ?_
    cases h
    exact List.forall_mem_nil _
  | p, (k, v) :: entries => by
    rw [toDocumentWith.ofEntries]
    refine (countsFit_toDocumentWith hjump none k).bind fun key _ => ?_
    have hrest (value : Document) (hvalue : value.CountsFit) :=
      (countsFit_ofEntries hjump p entries).bind (Q := fun result =>
        ∀ members, result = some members → ∀ m ∈ members, m.2.CountsFit)
        (f := fun members => pure do return (← key.text?, value) :: (← members))
        fun result hresult => .pure fun members h => by
          obtain ⟨name, -, h⟩ := Option.bind_eq_some_iff.1 h
          obtain ⟨rest, hrest, h⟩ := Option.bind_eq_some_iff.1 h
          cases h
          exact List.forall_mem_cons.2 ⟨hvalue, hresult rest hrest⟩
    dsimp only
    split
    · exact hrest _ .unreadable
    · exact (countsFit_toDocumentWith hjump _ v).bind hrest

end

theorem countsFit_ofAlias (anchors : List (Nat × Node Nat)) (depth : Nat) (place : Option ι)
    (k : Nat) : Yields Document.CountsFit (ofAlias s anchors depth place k) := by
  induction depth generalizing place k with
  | zero => exact .pure .unreadable
  | succ depth ih =>
    rw [ofAlias]
    refine .bind (P := fun _ => True) (fun _ => trivial) fun budget _ => ?_
    split
    · refine .bind (P := fun _ => True) (fun _ => trivial) fun _ _ => ?_
      exact countsFit_toDocumentWith ih place _
    · exact .pure .unreadable

end Node

theorem countsFit_of_document? {ι : Type} {s : Schema ι} {text : String} {d : Document}
    (h : document? s text = some d) : d.CountsFit := by
  obtain ⟨parsed, -, h⟩ := Option.bind_eq_some_iff.1 h
  cases parsed with
  | none =>
    cases h
    exact .leaf fun n h => by cases h
  | some n =>
    obtain ⟨⟨names, n⟩, -, h⟩ := Option.bind_eq_some_iff.1 h
    cases h
    exact Node.countsFit_toDocumentWith (Node.countsFit_ofAlias _ _) _ _ _

end Yaml

end TemplateLint
