import TemplateLint.Analysis.Check
import TemplateLint.Files.FileSystem
import TemplateLint.TypeNode.Codec
import TemplateLint.Yaml.Document

/-! The configuration of a project. -/
namespace TemplateLint
open Text

structure Config where
  extensions : List String := ["tmpl", "gohtml", "gotmpl", "html", "tpl"]
  delimiters : Delimiters := {}
  blockContext : BlockContext := .root
  reportUnknownFunctions : Bool := false
  funcs : FuncTable := .empty

namespace Config

def fileName : String := ".gotmpl-check.yaml"

def delimitersOfDocument? (d : Document) : Option Delimiters :=
  match d.fields? ["left", "right"] with
  | some [some left, some right] => do return ⟨← left.text?, ← right.text?⟩
  | _ => none

def blockContextOfDocument? (d : Document) : Option BlockContext :=
  match d.choice? with
  | some "root" => some .root
  | some "inherit" => some .inherit
  | _ => none

def extensionsOfDocument? (d : Document) : Option (List String) := do
  (← d.list?).mapM Document.text?

def keys : List String :=
  ["extensions", "delimiters", "block_context", "report_unknown_functions", "funcs"]

inductive Place where
  | config
  | delimiters
  | funcs
  | signature
  | leaf
deriving DecidableEq, Repr

namespace Place

def ofKey : String → Place
  | "delimiters" => delimiters
  | "funcs" => funcs
  | _ => leaf

def member? : Place → String → Option Place
  | config, key => if keys.contains key then some (ofKey key) else none
  | delimiters, key => if ["left", "right"].contains key then some leaf else none
  | funcs, _ => some signature
  | signature, key => if ["arity", "returns"].contains key then some leaf else none
  | leaf, _ => none

def item : Place → Nat → Place
  | config, n => ofKey (keys.getD n "")
  | _, _ => leaf

end Place

def schema : Schema Place := ⟨.config, Place.member?, Place.item⟩

/-- Whatever is left out stays as it is by default. -/
def ofDocument? (d : Document) : Option Config :=
  match d.fields? keys with
  | some [extensions, delimiters, blockContext, report, funcs] => do
    let default : Config := {}
    return {
      extensions := ← Document.orDefault default.extensions extensionsOfDocument? extensions
      delimiters := ← Document.orDefault default.delimiters delimitersOfDocument? delimiters
      blockContext := ← Document.orDefault default.blockContext blockContextOfDocument? blockContext
      reportUnknownFunctions :=
        ← Document.orDefault default.reportUnknownFunctions Document.bool? report
      funcs := ← Document.orDefault default.funcs FuncTable.ofDocument? funcs }
  | _ => none

/-- Reads a configuration; a blank text leaves everything by default. -/
def ofYaml? (text : String) : Option Config :=
  if trim text.toList = [] then some {} else (Yaml.document? schema text).bind ofDocument?

def isTemplate (c : Config) (path : String) : Bool :=
  (FilePath.extension? path).any c.extensions.contains

def options (c : Config) : Options :=
  { delimiters := c.delimiters
    blockContext := c.blockContext
    reportUnknownFunctions := c.reportUnknownFunctions
    funcs := FuncTable.builtins.insertAll c.funcs.entries }

def find? (fs : FileSystem) (directory : String) : Option String :=
  ((FilePath.ancestors directory).map (FilePath.join · fileName)).find? fs.isFile

end Config
end TemplateLint
