import Mathlib.Data.List.Forall2
import TemplateLint.Proofs.TypeTrees
import TemplateLint.TypeNode.Codec

/-! Type trees as documents. What is written of a tree leaves out flags that are not set and parts
that are not there, and reading puts back what is left out, so that every tree is read as it was. -/
namespace TemplateLint

theorem mapM_eq_some_iff {α β : Type} {f : α → Option β} {xs : List α} {ys : List β} :
    xs.mapM f = some ys ↔ List.Forall₂ (fun x y => f x = some y) xs ys := by
  induction xs generalizing ys with
  | nil =>
    rw [List.mapM_nil, List.forall₂_nil_left_iff]
    exact ⟨fun h => (Option.some.inj h).symm, fun h => h ▸ rfl⟩
  | cons x xs ih =>
    rw [List.mapM_cons, List.forall₂_cons_left_iff]
    constructor
    · intro h
      obtain ⟨y, hy, h⟩ := Option.bind_eq_some_iff.1 h
      obtain ⟨ys, hys, h⟩ := Option.bind_eq_some_iff.1 h
      cases h
      exact ⟨y, ys, hy, ih.1 hys, rfl⟩
    · rintro ⟨y, ys, hy, hys, rfl⟩
      rw [hy, ih.2 hys]
      rfl

/-! ### Records of which members are left out -/

def present {α : Type} (parts : List (String × Option α)) : List (String × α) :=
  parts.filterMap fun p => p.2.map (p.1, ·)

section

variable {α β : Type} {parts : List (String × Option α)} {p : String × Option α}

theorem present_cons (p : String × Option α) (parts : List (String × Option α)) :
    present (p :: parts) = (p.2.map (p.1, ·)).toList ++ present parts := by
  unfold present
  cases h : p.2 <;> simp [h]

theorem present_append (parts others : List (String × Option α)) :
    present (parts ++ others) = present parts ++ present others := List.filterMap_append

theorem map_present (f : α → β) (parts : List (String × Option α)) :
    (present parts).map (Prod.map id f) = present (parts.map (Prod.map id (Option.map f))) := by
  induction parts with
  | nil => rfl
  | cons p parts ih =>
    rw [List.map_cons, present_cons, present_cons, List.map_append, ih]
    cases h : p.2 <;> simp [h]

theorem fst_mem_of_mem_present {m : String × α} (h : m ∈ present parts) :
    m.1 ∈ parts.map Prod.fst := by
  obtain ⟨p, hp, hm⟩ := List.mem_filterMap.1 h
  obtain ⟨value, -, rfl⟩ := Option.map_eq_some_iff.1 hm
  exact List.mem_map_of_mem hp

theorem filter_present (hkeys : (parts.map Prod.fst).Nodup) (hp : p ∈ parts) :
    (present parts).filter (·.1 == p.1) = (p.2.map (p.1, ·)).toList := by
  induction parts with
  | nil => cases hp
  | cons q parts ih =>
    obtain ⟨hq, hkeys⟩ := List.nodup_cons.1 hkeys
    rw [present_cons, List.filter_append]
    rcases List.mem_cons.1 hp with rfl | hp
    · have hrest : (present parts).filter (·.1 == p.1) = [] := by
        rw [List.filter_eq_nil_iff]
        intro m hm heq
        exact hq (eq_of_beq heq ▸ fst_mem_of_mem_present hm)
      rw [hrest]
      cases p.2 <;> simp
    · have hne : q.1 ≠ p.1 := by
        intro heq
        exact hq (heq ▸ List.mem_map_of_mem hp)
      rw [ih hkeys hp]
      cases q.2 <;> simp [hne]

end

namespace Document

theorem member?_present {parts : List (String × Option Document)} {p : String × Option Document}
    (hkeys : (parts.map Prod.fst).Nodup) (hp : p ∈ parts) :
    member? p.1 (present parts) = some p.2 := by
  unfold member?
  rw [filter_present hkeys hp]
  cases p.2 <;> rfl

theorem members?_eq_some {members : List (String × Document)}
    {parts : List (String × Option Document)} (h : ∀ p ∈ parts, member? p.1 members = some p.2) :
    members? members (parts.map Prod.fst) = some (parts.map Prod.snd) := by
  induction parts with
  | nil => rfl
  | cons p parts ih =>
    rw [List.forall_mem_cons] at h
    rw [List.map_cons, members?, h.1, ih h.2]
    rfl

end Document

namespace Json

theorem ofMembers_eq_map (members : List (String × Json)) :
    toDocument.ofMembers members = members.map (Prod.map id toDocument) := by
  induction members with
  | nil => rfl
  | cons m members ih => rw [toDocument.ofMembers, ih, List.map_cons, Prod.map, id]

theorem ofItems_eq_map (items : List Json) : toDocument.ofItems items = items.map toDocument := by
  induction items with
  | nil => rfl
  | cons item items ih => rw [toDocument.ofItems, ih, List.map_cons]

theorem fields?_present {parts : List (String × Option Json)}
    (hkeys : (parts.map Prod.fst).Nodup) :
    (object (present parts)).toDocument.fields? (parts.map Prod.fst) =
      some (parts.map fun p => p.2.map toDocument) := by
  have hmap : (parts.map (Prod.map id (Option.map toDocument))).map Prod.fst =
      parts.map Prod.fst := by
    rw [List.map_map]
    rfl
  rw [toDocument, ofMembers_eq_map, map_present]
  change Document.members? _ _ = _
  rw [← hmap, Document.members?_eq_some, List.map_map]
  · rfl
  · intro p hp
    exact Document.member?_present (hmap.symm ▸ hkeys) hp

end Json

/-! ### Reading -/

namespace TypeNode

def partOfDocument? (d : Document) : Option (Option TypeNode) :=
  if d.presence = .absent then some none
  else if d.presence = .present then (ofDocument? d).map some
  else none

inductive PartGives : Option Document → Option (Option TypeNode) → Prop where
  | missing : PartGives none (some none)
  | absent {d : Document} (h : d.presence = .absent) : PartGives (some d) (some none)
  | present {d : Document} (h : d.presence = .present) :
    PartGives (some d) ((ofDocument? d).map some)
  | unclear {d : Document} (h : d.presence = .unclear) : PartGives (some d) none

theorem partGives (part : Option Document) :
    PartGives part (Document.orDefault none partOfDocument? part) := by
  cases part with
  | none => exact .missing
  | some d =>
    rw [Document.orDefault, partOfDocument?]
    cases h : d.presence with
    | absent => exact .absent h
    | present => exact .present h
    | unclear => exact .unclear h

theorem eq_bind_of_partGives {α : Type} {part : Option Document} {x : Option α}
    {f : Option TypeNode → Option α} (h : ∀ r, PartGives part r → x = (r >>= f)) :
    x = (Document.orDefault none partOfDocument? part >>= f) := h _ (partGives part)

theorem orDefault_eq (part : Option Document) {r : Document → Option (Option TypeNode)}
    (h : ∀ d, r d = partOfDocument? d) :
    Document.orDefault none r part = Document.orDefault none partOfDocument? part := by
  rw [funext h]

theorem attach_mapM_ofDocument? (items : List Document) :
    (items.attach.mapM fun item => ofDocument? item.1) = items.mapM ofDocument? := by
  have h : (items.attach.map Subtype.val).mapM ofDocument? =
      items.attach.mapM (ofDocument? ∘ Subtype.val) := List.mapM_map
  rw [List.attach_map_subtype_val] at h
  exact h.symm

/-- Reading goes through the parts in the order of their keys. -/
theorem ofDocument?_of_fields? {d : Document}
    {name label isSlice isMap elem key fields : Option Document}
    (h : d.fields? keys = some [name, label, isSlice, isMap, elem, key, fields]) :
    ofDocument? d = (do
      let name ← Document.orDefault "" Document.text? name
      let label ← Document.orDefault "" Document.text? label
      let isSlice ← Document.orDefault false Document.bool? isSlice
      let isMap ← Document.orDefault false Document.bool? isMap
      let elem ← Document.orDefault none partOfDocument? elem
      let key ← Document.orDefault none partOfDocument? key
      let fields ← Document.orDefault [] listOfDocument? fields
      some { name, label, isSlice, isMap, elem, key, fields }) := by
  rw [ofDocument?]
  split
  · next h' =>
    cases h.symm.trans h'
    refine bind_congr fun name => bind_congr fun label => bind_congr fun isSlice =>
      bind_congr fun isMap => ?_
    -- The optional parts are read in branches that each go on to the end, so what comes behind a
    -- part is only known from its branches.
    refine (eq_bind_of_partGives (f := ?f) ?elem).trans (bind_congr fun elem => ?_)
    case elem =>
      intro r hr
      rcases hr with _ | hpart | hpart | hpart
      · rfl
      all_goals
        dsimp only
        rw [hpart]
    beta_reduce
    refine (eq_bind_of_partGives (f := ?g) ?key).trans (bind_congr fun key => ?_)
    case key =>
      intro r hr
      rcases hr with _ | hpart | hpart | hpart
      · rfl
      all_goals
        dsimp only
        rw [hpart]
    cases fields with
    | none => rfl
    | some f =>
      dsimp only [Document.orDefault, listOfDocument?]
      split
      · next hlist =>
        rw [hlist]
        rfl
      · next items hlist =>
        rw [hlist, attach_mapM_ofDocument?]
        rfl
  · next hno => exact absurd h (hno _ _ _ _ _ _ _)

/-! ### Writing, and reading what is written -/

def flag? (b : Bool) : Option Json := if b then some (.bool true) else none

def nodes? (ts : List TypeNode) : Option Json :=
  if ts = [] then none else some (.array (ts.map toJson))

theorem all_eq_map (ts : List TypeNode) : toJson.all ts = ts.map toJson := by
  induction ts with
  | nil => rfl
  | cons t ts ih => rw [toJson.all, ih, List.map_cons]

theorem flag_eq (key : String) (b : Bool) : toJson.flag key b = present [(key, flag? b)] := by
  cases b <;> rfl

theorem part_eq (key : String) (part : Option TypeNode) :
    toJson.part key part = present [(key, part.map toJson)] := by
  cases part with
  | none => rw [toJson.part]; rfl
  | some t => rw [toJson.part]; rfl

theorem list_eq (ts : List TypeNode) : toJson.list ts = present [("fields", nodes? ts)] := by
  cases ts with
  | nil => rw [toJson.list]; rfl
  | cons t ts => rw [toJson.list, all_eq_map]; rfl

theorem toJson_eq (t : TypeNode) :
    t.toJson = .object (present [("name", some (.string t.name)), ("type", some (.string t.label)),
      ("is_slice", flag? t.isSlice), ("is_map", flag? t.isMap), ("elem", t.elem.map toJson),
      ("key", t.key.map toJson), ("fields", nodes? t.fields)]) := by
  obtain ⟨name, label, isSlice, isMap, elem, key, fields⟩ := t
  have hfront : [("name", Json.string name), ("type", Json.string label)] =
    present [("name", some (.string name)), ("type", some (.string label))] := rfl
  rw [toJson, flag_eq, flag_eq, part_eq, part_eq, list_eq, hfront]
  simp only [← present_append, List.cons_append, List.nil_append]

variable {t : TypeNode}

theorem fields?_toJson (t : TypeNode) :
    t.toJson.toDocument.fields? keys = some [some (Json.string t.name).toDocument,
      some (Json.string t.label).toDocument, (flag? t.isSlice).map Json.toDocument,
      (flag? t.isMap).map Json.toDocument, (t.elem.map toJson).map Json.toDocument,
      (t.key.map toJson).map Json.toDocument, (nodes? t.fields).map Json.toDocument] := by
  rw [toJson_eq]
  exact Json.fields?_present (show keys.Nodup by decide)

theorem read_flag? (b : Bool) :
    Document.orDefault false Document.bool? ((flag? b).map Json.toDocument) = some b := by
  cases b <;> rfl

theorem read_part {part : Option TypeNode}
    (h : ∀ u, part = some u → ofDocument? u.toJson.toDocument = some u) :
    Document.orDefault none partOfDocument? ((part.map toJson).map Json.toDocument) =
      some part := by
  cases part with
  | none => rfl
  | some u =>
    have hpresence : u.toJson.toDocument.presence = .present := by
      rw [toJson_eq]
      rfl
    rw [Option.map_some, Option.map_some, Document.orDefault, partOfDocument?, hpresence, h u rfl]
    rfl

theorem read_nodes? {ts : List TypeNode}
    (h : ∀ u ∈ ts, ofDocument? u.toJson.toDocument = some u) :
    Document.orDefault [] listOfDocument? ((nodes? ts).map Json.toDocument) = some ts := by
  have hmap : (ts.map (Json.toDocument ∘ toJson)).mapM ofDocument? = some ts := by
    rw [mapM_eq_some_iff, List.forall₂_map_left_iff, List.forall₂_same]
    exact h
  cases ts with
  | nil => rfl
  | cons u ts =>
    rw [nodes?, if_neg (List.cons_ne_nil u ts), Option.map_some, Document.orDefault,
      listOfDocument?, Json.toDocument, Json.ofItems_eq_map, List.map_map]
    exact hmap

theorem ofDocument?_toJson (t : TypeNode) : ofDocument? t.toJson.toDocument = some t := by
  induction t using induction_on_parts with
  | step t ih =>
    rw [ofDocument?_of_fields? (fields?_toJson t), read_flag?, read_flag?,
      read_part fun u hu => ih u (.elem hu), read_part fun u hu => ih u (.key hu),
      read_nodes? fun u hu => ih u (.field hu)]
    cases t
    rfl

end TypeNode

namespace InferredType

theorem toJson_eq (t : InferredType) :
    t.toJson = .object (present [("type", some (.string t.label)),
      ("fields", TypeNode.nodes? t.fields), ("is_slice", TypeNode.flag? t.isSlice),
      ("is_map", TypeNode.flag? t.isMap), ("elem", t.elem.map TypeNode.toJson),
      ("key", t.key.map TypeNode.toJson)]) := by
  have hfront : [("type", Json.string t.label)] = present [("type", some (.string t.label))] := rfl
  rw [toJson, TypeNode.flag_eq, TypeNode.flag_eq, TypeNode.part_eq, TypeNode.part_eq,
    TypeNode.list_eq, hfront]
  simp only [← present_append, List.cons_append, List.nil_append]

theorem fields?_toJson (t : InferredType) :
    t.toJson.toDocument.fields? keys = some [some (Json.string t.label).toDocument,
      (TypeNode.nodes? t.fields).map Json.toDocument,
      (TypeNode.flag? t.isSlice).map Json.toDocument, (TypeNode.flag? t.isMap).map Json.toDocument,
      (t.elem.map TypeNode.toJson).map Json.toDocument,
      (t.key.map TypeNode.toJson).map Json.toDocument] := by
  rw [toJson_eq]
  exact Json.fields?_present (show keys.Nodup by decide)

theorem ofDocument?_of_fields? {d : Document}
    {label fields isSlice isMap elem key : Option Document}
    (h : d.fields? keys = some [label, fields, isSlice, isMap, elem, key]) :
    ofDocument? d = (do
      let label ← label >>= Document.text?
      let fields ← Document.orDefault [] TypeNode.listOfDocument? fields
      let isSlice ← Document.orDefault false Document.bool? isSlice
      let isMap ← Document.orDefault false Document.bool? isMap
      let elem ← Document.orDefault none TypeNode.partOfDocument? elem
      let key ← Document.orDefault none TypeNode.partOfDocument? key
      some { label, fields, isSlice, isMap, elem, key }) := by
  rw [ofDocument?, h]
  dsimp only
  refine bind_congr fun label => bind_congr fun fields => bind_congr fun isSlice =>
    bind_congr fun isMap => ?_
  rw [TypeNode.orDefault_eq elem, TypeNode.orDefault_eq key]
  all_goals
    intro d
    unfold TypeNode.partOfDocument?
    cases d.presence <;> rfl

theorem ofDocument?_toJson (t : InferredType) : ofDocument? t.toJson.toDocument = some t := by
  rw [ofDocument?_of_fields? (fields?_toJson t), TypeNode.read_flag?, TypeNode.read_flag?,
    TypeNode.read_part fun u _ => u.ofDocument?_toJson,
    TypeNode.read_part fun u _ => u.ofDocument?_toJson,
    TypeNode.read_nodes? fun u _ => u.ofDocument?_toJson]
  rfl

end InferredType

/-- Every tree is read as it was written, however deep it is, and so is every computed type. -/
theorem types_are_read_as_written :
    (∀ t : TypeNode, TypeNode.ofDocument? t.toJson.toDocument = some t) ∧
      ∀ t : InferredType, InferredType.ofDocument? t.toJson.toDocument = some t :=
  ⟨TypeNode.ofDocument?_toJson, InferredType.ofDocument?_toJson⟩

end TemplateLint
