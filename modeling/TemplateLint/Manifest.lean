import TemplateLint.Json.Reader
import TemplateLint.NameMap
import TemplateLint.Text.Basic
import TemplateLint.TypeNode.Codec
import TemplateLint.TypeNode.Validate
import TemplateLint.Yaml.Document

/-! Manifests: the variables that templates can use, and their types. -/
namespace TemplateLint
open Text

inductive TypeFileError where
  | json
  | yaml
  | fault (fault : TypeFault)
deriving DecidableEq, Repr

def jsonDepth : Nat := 127

structure Manifest where
  globals : List TypeNode
  templates : NameMap (List TypeNode)

namespace Manifest

def types (m : Manifest) : List TypeNode := m.globals ++ m.templates.values.flatten

def validateAll : List TypeNode → Except TypeFault Unit
  | [] => .ok ()
  | t :: ts => do t.validate; validateAll ts

/-- The first fault of any of its trees. -/
def validate (m : Manifest) : Except TypeFault Unit := validateAll m.types

def dropHere : List Char → List Char
  | '.' :: '/' :: cs => dropHere cs
  | cs => cs

def slashed (path : List Char) : List Char := path.map fun c => if c = '\\' then '/' else c

/-- A key applies to the path that it is, and to every path that ends with it after a slash. -/
def keyApplies (path key : String) : Bool :=
  let path := slashed path.toList
  let key := dropHere key.toList
  path == key || ('/' :: key).isSuffixOf path

/-- The variables of the template at a path: of the keys that apply the one that is written
longest, and of several the last one. -/
def templateVars? (m : Manifest) (path : String) : Option (List TypeNode) :=
  let applying := m.templates.entries.filter fun e => keyApplies path e.1
  let longest := applying.foldl (fun best e =>
    match best with
    | none => some e
    | some b => if b.1.utf8ByteSize ≤ e.1.utf8ByteSize then some e else some b) none
  longest.map Prod.snd

/-- The root for the template at a path. Its own variables hide globals of the same name. -/
def rootFor (m : Manifest) (path : String) : TypeNode :=
  let own := (m.templateVars? path).getD []
  TypeNode.root (m.globals.filter (fun g => !own.any (·.name == g.name)) ++ own)

/-- Lists of nodes by path; of a path that comes twice the last list counts. -/
def templatesOfDocument? (d : Document) : Option (NameMap (List TypeNode)) := do
  let entries ← (← d.record?).mapM fun (path, vars) =>
    (TypeNode.listOfDocument? vars).map (path, ·)
  return NameMap.ofList entries

def ofDocument? (d : Document) : Option Manifest :=
  match d.fields? ["globals", "templates"] with
  | some [globals, templates] => do
    return {
      globals := ← Document.orDefault [] TypeNode.listOfDocument? globals
      templates := ← Document.orDefault .empty templatesOfDocument? templates }
  | _ => none

inductive Place where
  | manifest
  | templates
  | types (place : TypeNode.Place)
deriving DecidableEq, Repr

namespace Place

def member? : Place → String → Option Place
  | manifest, "globals" => some (types .nodes)
  | manifest, "templates" => some templates
  | manifest, _ => none
  | templates, _ => some (types .nodes)
  | types p, key => (p.member? key).map types

def item : Place → Nat → Place
  | manifest, 0 => types .nodes
  | manifest, _ => templates
  | templates, _ => types .leaf
  | types p, n => types (p.item n)

end Place

def schema : Schema Place := ⟨.manifest, Place.member?, Place.item⟩

def checked (m : Manifest) : Except TypeFileError Manifest :=
  match m.validate with
  | .ok () => .ok m
  | .error e => .error (.fault e)

/-- Reads the document of a file down to so many levels. -/
def ofFile (refusal : TypeFileError) (depth : Nat) (d : Option Document) :
    Except TypeFileError Manifest :=
  match d.filter (fun d => d.levels schema .manifest ≤ depth) >>= ofDocument? with
  | none => .error refusal
  | some m => m.checked

def ofJson (text : String) : Except TypeFileError Manifest :=
  ofFile .json jsonDepth ((Json.parse? text).map Json.toDocument)

def ofYaml (text : String) : Except TypeFileError Manifest :=
  ofFile .yaml Yaml.depthLimit (Yaml.document? schema text)

def toJson (m : Manifest) : Json :=
  let nodes (ts : List TypeNode) : Json := .array (ts.map TypeNode.toJson)
  .object [("globals", nodes m.globals),
    ("templates", .object (m.templates.entries.map fun (path, vars) => (path, nodes vars)))]

end Manifest

def TypeNode.ofJson (text : String) : Except TypeFileError TypeNode :=
  match Json.parse? text with
  | none => .error .json
  | some j =>
    if jsonDepth < j.toDocument.levels TypeNode.schema .node then .error .json else
    match TypeNode.ofDocument? j.toDocument with
    | none => .error .json
    | some t =>
      match t.validate with
      | .ok () => .ok t
      | .error e => .error (.fault e)

end TemplateLint
