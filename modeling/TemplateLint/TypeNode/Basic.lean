/-! The shapes that paths are resolved against: trees of named types. -/
namespace TemplateLint

/-- A position that has a type. Which kind of type it is follows from the flags and the parts, and
nothing here keeps them consistent: see `TypeNode.validate`. -/
structure TypeNode where
  name : String := ""
  label : String := ""
  isSlice : Bool := false
  isMap : Bool := false
  /-- Type of the elements of a slice or the values of a map. -/
  elem : Option TypeNode := none
  key : Option TypeNode := none
  fields : List TypeNode := []
deriving Repr, Inhabited

inductive TypeKind where
  | scalar
  | slice
  | map
  | struct
  | unknown
deriving DecidableEq, Repr

namespace TypeNode

def intLabel : String := "int"
def floatLabel : String := "float64"
def complexLabel : String := "complex128"
def stringLabel : String := "string"
def byteLabel : String := "uint8"
def boolLabel : String := "bool"
def nilLabel : String := "nil"
def unknownLabel : String := "unknown"
def rootLabel : String := "root"

/-- Labels that say nothing about the shape, so that every access is accepted. -/
def permissiveLabels : List String := [unknownLabel, "any", "interface\x7b\x7d"]

def scalar (name label : String) : TypeNode := { name, label }

def structure_ (name label : String) (fields : List TypeNode) : TypeNode := { name, label, fields }

def withName (name : String) (t : TypeNode) : TypeNode := { t with name }

def slice (name : String) (elem : TypeNode) : TypeNode :=
  { name, label := "[]" ++ elem.label, isSlice := true, elem := some (elem.withName "") }

def map (name : String) (key value : TypeNode) : TypeNode :=
  { name
    label := "map[" ++ key.label ++ "]" ++ value.label
    isMap := true
    key := some (key.withName "")
    elem := some (value.withName "") }

def unknown : TypeNode := scalar "" unknownLabel

def root (vars : List TypeNode) : TypeNode := structure_ "" rootLabel vars

/-- Whether the shape is not known. Stars in front of the label do not count. -/
def isUnknown (t : TypeNode) : Bool :=
  !t.isSlice && !t.isMap && t.fields.isEmpty &&
    permissiveLabels.contains (String.ofList (t.label.toList.dropWhile (· == '*')))

def isIterable (t : TypeNode) : Bool := t.isSlice || t.isMap

def kind (t : TypeNode) : TypeKind :=
  if t.isSlice then .slice
  else if t.isMap then .map
  else if !t.fields.isEmpty then .struct
  else if t.isUnknown then .unknown
  else .scalar

def field? (t : TypeNode) (name : String) : Option TypeNode := t.fields.find? (·.name == name)

def element? (t : TypeNode) : Option TypeNode := if t.isIterable then t.elem else none

def mapKey? (t : TypeNode) : Option TypeNode := if t.isMap then t.key else none

def fieldNames (t : TypeNode) : List String := t.fields.map name

end TypeNode

structure InferredType where
  label : String
  fields : List TypeNode := []
  isSlice : Bool := false
  isMap : Bool := false
  elem : Option TypeNode := none
  key : Option TypeNode := none
deriving Repr, Inhabited

namespace InferredType

def ofNode (t : TypeNode) : InferredType :=
  { label := t.label, fields := t.fields, isSlice := t.isSlice, isMap := t.isMap, elem := t.elem,
    key := t.key }

def toNode (t : InferredType) : TypeNode :=
  { label := t.label, fields := t.fields, isSlice := t.isSlice, isMap := t.isMap, elem := t.elem,
    key := t.key }

def isUnknown (t : InferredType) : Bool := t.toNode.isUnknown

end InferredType
end TemplateLint
