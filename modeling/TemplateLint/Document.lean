import TemplateLint.Json.Basic

/-! Documents: what a data file says, whatever notation it is written in. A notation decides what
each leaf may be taken for; the readers of manifests and configurations only see the answers. -/
namespace TemplateLint

/-- What a leaf is where nothing in particular is expected. -/
inductive Scalar where
  | count (n : Nat)
  | text (s : String)
  | other
deriving DecidableEq, Repr

/-- Whether an optional part is there, by what is written for it. -/
inductive Presence where
  | present
  | absent
  /-- What is written contradicts itself. -/
  | unclear
deriving DecidableEq, Repr

/-- All that a leaf may be taken for. -/
structure Leaf where
  text? : Option String := none
  bool? : Option Bool := none
  choice? : Option String := none
  presence : Presence := .present
  /-- It may stand for a list or a record without anything in it. -/
  isEmpty : Bool := false
  value : Scalar := .other
deriving DecidableEq, Repr

inductive Document where
  | leaf (leaf : Leaf)
  | list (items : List Document)
  | record (members : List (String × Document))
  /-- Well-formed, but nothing that can be read. -/
  | unreadable
deriving Repr, Inhabited

namespace Document

def text? : Document → Option String
  | leaf l => l.text?
  | _ => none

def bool? : Document → Option Bool
  | leaf l => l.bool?
  | _ => none

def choice? : Document → Option String
  | leaf l => l.choice?
  | _ => none

def presence : Document → Presence
  | leaf l => l.presence
  | _ => .present

def list? : Document → Option (List Document)
  | list items => some items
  | leaf l => if l.isEmpty then some [] else none
  | _ => none

def record? : Document → Option (List (String × Document))
  | record members => some members
  | leaf l => if l.isEmpty then some [] else none
  | _ => none

def member? (key : String) (members : List (String × Document)) : Option (Option Document) :=
  match members.filter (·.1 == key) with
  | [] => some none
  | [(_, value)] => some (some value)
  | _ => none

def members? (members : List (String × Document)) : List String → Option (List (Option Document))
  | [] => some []
  | key :: keys =>
    match member? key members with
    | none => none
    | some value => (members? members keys).map (value :: ·)

/-- A record with the given keys. It may also be written as the list of its values in that order,
of which the last ones may be missing. Keys that are not among the given ones do not count; a given
key may come only once. -/
def fields? (keys : List String) (d : Document) : Option (List (Option Document)) :=
  match d with
  | list items =>
    if items.length ≤ keys.length then
      some (items.map some ++ List.replicate (keys.length - items.length) none)
    else none
  | d => d.record?.bind (members? · keys)

theorem sizeOf_lt_of_list? {d x : Document} {items : List Document} (h : d.list? = some items)
    (hx : x ∈ items) : sizeOf x < sizeOf d := by
  unfold list? at h
  split at h
  · cases h
    have := List.sizeOf_lt_of_mem hx
    simp only [list.sizeOf_spec]
    omega
  · split at h
    · cases h; simp at hx
    · simp at h
  · simp at h

theorem sizeOf_lt_of_member? {key : String} {members : List (String × Document)} {x : Document}
    (h : member? key members = some (some x)) : sizeOf x < sizeOf members := by
  unfold member? at h
  split at h
  · simp at h
  · next k value hf =>
    cases h
    have hm : (k, x) ∈ members := (List.mem_filter.1 (hf ▸ List.mem_cons_self)).1
    have := List.sizeOf_lt_of_mem hm
    simp only [Prod.mk.sizeOf_spec] at this
    omega
  · simp at h

theorem sizeOf_lt_of_members? {keys : List String} {members : List (String × Document)}
    {values : List (Option Document)} {x : Document} (h : members? members keys = some values)
    (hx : some x ∈ values) : sizeOf x < sizeOf members := by
  induction keys generalizing values with
  | nil => cases h; simp at hx
  | cons key keys ih =>
    simp only [members?] at h
    split at h
    · simp at h
    · next value hv =>
      obtain ⟨rest, hr, he⟩ := Option.map_eq_some_iff.1 h
      cases he
      rcases List.mem_cons.1 hx with he | hx
      · exact sizeOf_lt_of_member? (he ▸ hv)
      · exact ih hr hx

theorem sizeOf_lt_of_fields? {keys : List String} {d x : Document}
    {values : List (Option Document)} (h : d.fields? keys = some values) (hx : some x ∈ values) :
    sizeOf x < sizeOf d := by
  unfold fields? at h
  split at h
  · next items =>
    split at h
    · cases h
      have hm : x ∈ items := by simpa [List.mem_replicate] using hx
      have := List.sizeOf_lt_of_mem hm
      simp only [list.sizeOf_spec]
      omega
    · simp at h
  · obtain ⟨members, hr, hk⟩ := Option.bind_eq_some_iff.1 h
    have := sizeOf_lt_of_members? hk hx
    unfold record? at hr
    split at hr
    · cases hr; simp only [record.sizeOf_spec]; omega
    · split at hr
      · cases hr; simp only [leaf.sizeOf_spec, List.nil.sizeOf_spec] at this ⊢; omega
      · simp at hr
    · simp at hr

end Document

namespace Json

/-- In JSON each kind of value is its own: only strings are texts, and nothing stands for an empty
list. A whole number up to 64 bits is a count. -/
def toDocument : Json → Document
  | null => .leaf { presence := .absent }
  | bool b => .leaf { bool? := some b }
  | number literal =>
    match (number literal).toNat? with
    | some n => .leaf { value := if n < 0x10000000000000000 then .count n else .other }
    | none => .leaf {}
  | string text => .leaf { text? := some text, choice? := some text, value := .text text }
  | array items => .list (ofItems items)
  | object members => .record (ofMembers members)
  | unreadable => .unreadable
where
  ofItems : List Json → List Document
    | [] => []
    | item :: items => toDocument item :: ofItems items
  ofMembers : List (String × Json) → List (String × Document)
    | [] => []
    | (key, value) :: members => (key, toDocument value) :: ofMembers members

end Json
end TemplateLint
