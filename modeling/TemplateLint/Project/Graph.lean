import TemplateLint.Analysis.Diagnostic
import TemplateLint.NameMap
import TemplateLint.Text.Quoted

/-! Which templates define and which call each other, over all files of a project. -/
namespace TemplateLint
open Text

structure TemplateGraph where
  definitions : NameMap (NameMap Unit) := .empty
  calls : List Edge := []

namespace TemplateGraph

def add (g : TemplateGraph) (e : Edge) : TemplateGraph :=
  match e.kind with
  | .define | .block =>
    let files := (g.definitions.get? e.name).getD .empty
    { g with definitions := g.definitions.insert e.name (files.insert e.file ()) }
  | .template => { g with calls := g.calls ++ [e] }

def ofEdges (edges : List Edge) : TemplateGraph := edges.foldl add {}

def isDefined (g : TemplateGraph) (name : String) : Bool := g.definitions.contains name

def definedIn (g : TemplateGraph) (name : String) : List String :=
  (g.definitions.get? name).elim [] NameMap.names

def callers (g : TemplateGraph) (name : String) : List Edge :=
  g.calls.filter (·.name == name)

def unresolvedCall (call : Edge) : Diagnostic :=
  let name := quoted call.name
  { kind := .unresolvedTemplateCall
    message := s!"no template named {name} is defined"
    file := call.file
    line := call.line
    col := call.col
    severity := .error
    subject := call.name
    raw := if call.context = "" then "template " ++ name
      else "template " ++ name ++ " " ++ call.context }

def unresolved (g : TemplateGraph) : List Diagnostic :=
  (g.calls.filter fun call => !g.isDefined call.name).map unresolvedCall

end TemplateGraph
end TemplateLint
