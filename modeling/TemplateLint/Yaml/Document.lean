import TemplateLint.Document.Schema
import TemplateLint.NameMap
import TemplateLint.Yaml.Node

/-! YAML as documents: what scalars may be taken for, and aliases replaced by what they stand
for. -/
namespace TemplateLint.Yaml

/-! ### Scalars -/

def isNullWord (text : String) : Bool := ["null", "Null", "NULL", "~"].contains text

def boolWord? (text : String) : Option Bool :=
  if ["true", "True", "TRUE"].contains text then some true
  else if ["false", "False", "FALSE"].contains text then some false
  else none

def digitOf? (base : Nat) (c : Char) : Option Nat := (hexDigit? c).filter (· < base)

def digits? (base : Nat) (cs : List Char) : Option Nat :=
  if cs = [] then none
  else cs.foldlM (fun n c => (digitOf? base c).map (n * base + ·)) 0

def based : List Char → Nat × List Char
  | '0' :: 'x' :: cs => (16, cs)
  | '0' :: 'o' :: cs => (8, cs)
  | '0' :: 'b' :: cs => (2, cs)
  | cs => (10, cs)

/-- Several digits of which the first is zero are a text and no number. -/
def isZeroPadded (cs : List Char) : Bool :=
  match cs with
  | '0' :: d :: ds => (d :: ds).all Char.isDigit
  | _ => false

def wholeNumber? (cs : List Char) : Option Int :=
  let digits (cs : List Char) : Option Nat :=
    if isZeroPadded cs then none
    else
      let (base, ds) := based cs
      digits? base ds
  match cs with
  | '+' :: cs => (digits cs).map Int.ofNat
  | '-' :: cs => (digits cs).map fun n => -Int.ofNat n
  | cs => (digits cs).map Int.ofNat

def numberScalar (n : Int) : Scalar :=
  if 0 ≤ n ∧ n < 0x10000000000000000 then .count n.toNat else .other

def plainScalar (text : String) : Scalar :=
  if text = "" ∨ isNullWord text ∨ (boolWord? text).isSome then .other
  else
    match wholeNumber? text.toList with
    | some n => numberScalar n
    | none => .text text

def isNothing (style : Style) (text : String) : Bool :=
  style = .plain && (text == "" || isNullWord text)

def isOwnTag (tag : TagText) : Bool := tag.head? = some (some '!')

def ownTag? (tag : TagText) : Option String :=
  match tag with
  | [some '!'] => some "!"
  | some '!' :: name => (name.mapM id).map String.ofList
  | _ => none

def coreTag (name : String) : TagText := tagText ("tag:yaml.org,2002:" ++ name)

/-- What a scalar is where nothing in particular is expected: its tag says so, or else its text if
it is plain. -/
def scalarValue (tag : Option TagText) (style : Style) (text : String) : Scalar :=
  let untagged := if style = .plain then plainScalar text else .text text
  match tag with
  | none => untagged
  | some tag =>
    if (ownTag? tag).isSome ∨ ["bool", "float", "null"].any (tag == coreTag ·) then .other
    else if tag = coreTag "int" then
      match wholeNumber? text.toList with
      | some n => numberScalar n
      | none => .other
    else if isOwnTag tag then untagged
    else .text text

/-- A part is absent if nothing is written for it. A tag other than that of null makes it present,
and that of null has to stand before a word for it. -/
def presenceOf (tag : Option TagText) (style : Style) (text : String) : Presence :=
  if style ≠ .plain then .present
  else
    match tag with
    | none => if isNothing style text then .absent else .present
    | some tag =>
      if tag ≠ coreTag "null" then .present
      else if isNullWord text then .absent
      else .unclear

def choiceOf? (tag : Option TagText) (style : Style) (text : String) : Option String :=
  match tag.bind ownTag? with
  | none => some text
  | some name => if isNothing style text then some name else none

/-- Every scalar is a text, however it is written; flags are plain words, and so is what stands for
an empty collection. -/
def leafOf (tag : Option TagText) (style : Style) (text : String) : Leaf :=
  { text? := some text
    bool? :=
      if style = .plain ∨ (style = .literal ∧ tag = some (coreTag "bool")) then boolWord? text
      else none
    choice? := choiceOf? tag style text
    presence := presenceOf tag style text
    isEmpty := style = .plain ∧ text = ""
    value := scalarValue tag style text }

/-! ### Anchors -/

namespace Node

/-- Gives the anchors numbers: each node that has one gets the count of the different names before
it, and an alias the number that its name has by then. Refuses an alias whose anchor has not come
before it. -/
def number? (names : NameMap Nat) : Node String → Option (NameMap Nat × Node Nat)
  | reference name => (names.get? name).map fun k => (names, reference k)
  | scalar props style text =>
    let (names, props) := numberProps names props
    some (names, scalar props style text)
  | sequence props items => do
    let (names, props) := numberProps names props
    let (names, items) ← numberItems? names items
    return (names, sequence props items)
  | mapping props entries => do
    let (names, props) := numberProps names props
    let (names, entries) ← numberEntries? names entries
    return (names, mapping props entries)
where
  numberProps (names : NameMap Nat) (props : Props String) : NameMap Nat × Props Nat :=
    match props.anchor with
    | none => (names, ⟨none, props.tag⟩)
    | some name => (names.insert name names.size, ⟨some names.size, props.tag⟩)
  numberItems? (names : NameMap Nat) : List (Node String) → Option (NameMap Nat × List (Node Nat))
    | [] => some (names, [])
    | n :: ns => do
      let (names, n) ← number? names n
      let (names, ns) ← numberItems? names ns
      return (names, n :: ns)
  numberEntries? (names : NameMap Nat) :
      List (Node String × Node String) → Option (NameMap Nat × List (Node Nat × Node Nat))
    | [] => some (names, [])
    | (k, v) :: es => do
      let (names, k) ← number? names k
      let (names, v) ← number? names v
      let (names, es) ← numberEntries? names es
      return (names, (k, v) :: es)

def anchored (n : Node Nat) : List (Nat × Node Nat) :=
  match n with
  | reference _ => []
  | scalar props _ _ => own props n
  | sequence props items => own props n ++ ofItems items
  | mapping props entries => own props n ++ ofEntries entries
where
  own (props : Props Nat) (n : Node Nat) : List (Nat × Node Nat) :=
    (props.anchor.map (·, n)).toList
  ofItems : List (Node Nat) → List (Nat × Node Nat)
    | [] => []
    | n :: ns => anchored n ++ ofItems ns
  ofEntries : List (Node Nat × Node Nat) → List (Nat × Node Nat)
    | [] => []
    | (k, v) :: es => anchored k ++ anchored v ++ ofEntries es

/-- How many marks the document has: one for a leaf, two for a collection. -/
def marks {ι : Type} : Node ι → Nat
  | reference _ | scalar .. => 1
  | sequence _ items => 2 + ofItems items
  | mapping _ entries => 2 + ofEntries entries
where
  ofItems : List (Node ι) → Nat
    | [] => 0
    | n :: ns => marks n + ofItems ns
  ofEntries : List (Node ι × Node ι) → Nat
    | [] => 0
    | (k, v) :: es => marks k + marks v + ofEntries es

/-- The document of a node, given what an alias stands for. Nothing in a node at which no place
expects anything is looked at, and neither are the members that are passed over: their aliases are
not followed. A mapping with a key that is no text cannot be read. -/
def toDocumentWith {ι : Type} {m : Type → Type} [Monad m] (s : Schema ι)
    (jump : Option ι → Nat → m Document) (place : Option ι) : Node Nat → m Document
  | reference k => jump place k
  | scalar props style text => return .leaf (leafOf props.tag style text)
  | sequence _ items => do
    match place with
    | none => return .unreadable
    | some p => return .list (← ofItems p 0 items)
  | mapping _ entries => do
    match place with
    | none => return .unreadable
    | some p =>
      match ← ofEntries p entries with
      | some members => return .record members
      | none => return .unreadable
where
  ofItems (p : ι) (n : Nat) : List (Node Nat) → m (List Document)
    | [] => return []
    | node :: nodes => do
      let item ← toDocumentWith s jump (some (s.item p n)) node
      return item :: (← ofItems p (n + 1) nodes)
  ofEntries (p : ι) : List (Node Nat × Node Nat) → m (Option (List (String × Document)))
    | [] => return some []
    | (k, v) :: es => do
      let key := (← toDocumentWith s jump none k).text?
      let value ← match key.bind (s.member? p) with
        | none => pure .unreadable
        | some next => toDocumentWith s jump (some next) v
      let members ← ofEntries p es
      return do return (← key, value) :: (← members)

/-- The document of what an alias stands for. Each use of an alias takes from what the document may
spend; aliases inside each other are followed `depth` times. -/
def ofAlias {ι : Type} (s : Schema ι) (anchors : List (Nat × Node Nat)) :
    Nat → Option ι → Nat → StateM Nat Document
  | 0, _, _ => return .unreadable
  | depth + 1, place, k => do
    match anchors.lookup k, ← get with
    | some n, budget + 1 =>
      set budget
      toDocumentWith s (ofAlias s anchors depth) place n
    | _, _ => return .unreadable

end Node

def depthLimit : Nat := 128

def jumpsPerMark : Nat := 100

def nothing : Document := .leaf { presence := .absent, isEmpty := true }

/-- The document that a stream holds, as far as it is looked at. -/
def document? {ι : Type} (s : Schema ι) (text : String) : Option Document := do
  match ← Node.parse? text with
  | none => return nothing
  | some n =>
    let (_, n) ← n.number? .empty
    let jump := Node.ofAlias s n.anchored.reverse (depthLimit + 2)
    let spending := n.toDocumentWith s jump (some s.start)
    return (spending.run (jumpsPerMark * n.marks)).1

end TemplateLint.Yaml
