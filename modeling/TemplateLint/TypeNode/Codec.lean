import TemplateLint.Document.Schema
import TemplateLint.TypeNode.Basic

/-! Type trees as documents. -/
namespace TemplateLint

namespace Document

def orDefault {α : Type} (default : α) (read : Document → Option α) : Option Document → Option α
  | none => some default
  | some d => read d

end Document

namespace TypeNode

/-- What a node is written as. Flags, parts and fields that are not there are left out. -/
def toJson : TypeNode → Json
  | ⟨name, label, isSlice, isMap, elem, key, fields⟩ =>
    .object ([("name", .string name), ("type", .string label)] ++
      flag "is_slice" isSlice ++ flag "is_map" isMap ++
      part "elem" elem ++ part "key" key ++ list fields)
where
  flag (key : String) (b : Bool) : List (String × Json) := if b then [(key, .bool true)] else []
  part (key : String) : Option TypeNode → List (String × Json)
    | none => []
    | some t => [(key, toJson t)]
  list : List TypeNode → List (String × Json)
    | [] => []
    | t :: ts => [("fields", .array (toJson t :: all ts))]
  all : List TypeNode → List Json
    | [] => []
    | t :: ts => toJson t :: all ts

def keys : List String := ["name", "type", "is_slice", "is_map", "elem", "key", "fields"]

inductive Place where
  | node
  | nodes
  | leaf
deriving DecidableEq, Repr

namespace Place

def ofKey : String → Place
  | "elem" | "key" => node
  | "fields" => nodes
  | _ => leaf

def member? : Place → String → Option Place
  | node, key => if keys.contains key then some (ofKey key) else none
  | _, _ => none

def item : Place → Nat → Place
  | nodes, _ => node
  | node, n => ofKey (keys.getD n "")
  | leaf, _ => leaf

end Place

def schema : Schema Place := ⟨.node, Place.member?, Place.item⟩

def ofDocument? (d : Document) : Option TypeNode :=
  match _h : d.fields? keys with
  | some [name, label, isSlice, isMap, elem, key, fields] => do
    let name ← Document.orDefault "" Document.text? name
    let label ← Document.orDefault "" Document.text? label
    let isSlice ← Document.orDefault false Document.bool? isSlice
    let isMap ← Document.orDefault false Document.bool? isMap
    let elem ← match _he : elem with
      | none => some none
      | some e =>
        match e.presence with
        | .absent => some none
        | .present => (ofDocument? e).map some
        | .unclear => none
    let key ← match _hk : key with
      | none => some none
      | some k =>
        match k.presence with
        | .absent => some none
        | .present => (ofDocument? k).map some
        | .unclear => none
    let fields ← match _hf : fields with
      | none => some []
      | some f =>
        match _hl : f.list? with
        | none => none
        | some items => items.attach.mapM fun item => ofDocument? item.1
    some { name, label, isSlice, isMap, elem, key, fields }
  | _ => none
termination_by sizeOf d
decreasing_by
  · have hi := Document.sizeOf_lt_of_list? _hl item.2
    have hd : sizeOf f < sizeOf d := Document.sizeOf_lt_of_fields? _h (by simp [_hf])
    omega
  · exact Document.sizeOf_lt_of_fields? _h (by simp [_hk])
  · exact Document.sizeOf_lt_of_fields? _h (by simp [_he])

def listOfDocument? (d : Document) : Option (List TypeNode) := do
  (← d.list?).mapM ofDocument?

end TypeNode

namespace InferredType

def toJson (t : InferredType) : Json :=
  .object ([("type", .string t.label)] ++ TypeNode.toJson.list t.fields ++
    TypeNode.toJson.flag "is_slice" t.isSlice ++ TypeNode.toJson.flag "is_map" t.isMap ++
    TypeNode.toJson.part "elem" t.elem ++ TypeNode.toJson.part "key" t.key)

def keys : List String := ["type", "fields", "is_slice", "is_map", "elem", "key"]

def ofDocument? (d : Document) : Option InferredType := do
  match d.fields? keys with
  | some [label, fields, isSlice, isMap, elem, key] =>
    let part (d : Document) : Option (Option TypeNode) :=
      match d.presence with
      | .absent => some none
      | .present => (TypeNode.ofDocument? d).map some
      | .unclear => none
    some {
      label := ← label >>= Document.text?
      fields := ← Document.orDefault [] TypeNode.listOfDocument? fields
      isSlice := ← Document.orDefault false Document.bool? isSlice
      isMap := ← Document.orDefault false Document.bool? isMap
      elem := ← Document.orDefault none part elem
      key := ← Document.orDefault none part key }
  | _ => none

end InferredType
end TemplateLint
