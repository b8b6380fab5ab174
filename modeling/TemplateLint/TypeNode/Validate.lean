import TemplateLint.Text.Quoted
import TemplateLint.TypeNode.Basic

/-! The rules that a declared type tree has to keep. -/
namespace TemplateLint

inductive TypeFault where
  | sliceAndMap (name label : String)
  | containerWithFields (name label : String)
  | keyOnNonMap (name label : String)
  | duplicateField (label field : String)
deriving DecidableEq, Repr

def TypeFault.message : TypeFault → String
  | .sliceAndMap name label =>
    let name := Text.quoted name
    s!"type `{label}` ({name}) is marked as both slice and map"
  | .containerWithFields name label =>
    let name := Text.quoted name
    s!"type `{label}` ({name}) is a container but declares fields"
  | .keyOnNonMap name label =>
    let name := Text.quoted name
    s!"type `{label}` ({name}) declares a key type but is not a map"
  | .duplicateField label field => s!"type `{label}` declares field `{field}` more than once"

namespace TypeNode

def checkNode (t : TypeNode) : Except TypeFault Unit :=
  if t.isSlice && t.isMap then .error (.sliceAndMap t.name t.label)
  else if t.isIterable && !t.fields.isEmpty then .error (.containerWithFields t.name t.label)
  else if !t.isMap && t.key.isSome then .error (.keyOnNonMap t.name t.label)
  else .ok ()

mutual
/-- The first fault of the tree: a node before its parts, fields before element and key, and for
each field first that its name is new. -/
def validate : TypeNode → Except TypeFault Unit
  | ⟨name, label, isSlice, isMap, elem, key, fields⟩ => do
    checkNode ⟨name, label, isSlice, isMap, elem, key, fields⟩
    validateFields label [] fields
    validatePart elem
    validatePart key

def validateFields (label : String) (seen : List String) : List TypeNode → Except TypeFault Unit
  | [] => .ok ()
  | field :: fields => do
    if seen.contains field.name then throw (.duplicateField label field.name)
    validate field
    validateFields label (field.name :: seen) fields

def validatePart : Option TypeNode → Except TypeFault Unit
  | none => .ok ()
  | some t => validate t
end

end TypeNode
end TemplateLint
