import TemplateLint.Analysis.Check
import TemplateLint.Json.Printer
import TemplateLint.Project.Graph

/-! Reports: what was found in several files, and how it is written. -/
namespace TemplateLint

def Diagnostic.toJson (d : Diagnostic) : Json :=
  .object [("kind", .string d.kind.word), ("message", .string d.message),
    ("file", .string d.file), ("line", .nat d.line), ("col", .nat d.col),
    ("severity", .string d.severity.word), ("variable", .string d.subject),
    ("raw", .string d.raw)]

def Edge.toJson (e : Edge) : Json :=
  .object [("file", .string e.file), ("name", .string e.name), ("kind", .string e.kind.word),
    ("context", .string e.context), ("context_type", e.contextType.elim .null .string),
    ("line", .nat e.line), ("col", .nat e.col)]

structure Report where
  files : List String := []
  diagnostics : List Diagnostic := []
  edges : List Edge := []
deriving DecidableEq, Repr

structure SourceFile where
  name : String
  root : TypeNode
  source : String

namespace Report

def le (a b : Diagnostic) : Bool := a.file < b.file || (a.file == b.file && Diagnostic.le a b)

/-- Checks files, each on its own, and then that every template that one of them calls is defined in
one of them. -/
def ofFiles (o : Options) (files : List SourceFile) : Report :=
  let found := files.map fun f => check o { file := f.name, root := f.root } f.source
  let edges := found.flatMap Findings.edges
  let diagnostics := found.flatMap Findings.diagnostics ++ (TemplateGraph.ofEdges edges).unresolved
  { files := files.map SourceFile.name, diagnostics := diagnostics.mergeSort le, edges }

def hasErrors (r : Report) : Bool := r.diagnostics.any Diagnostic.isError

def count (r : Report) (severity : Severity) : Nat :=
  (r.diagnostics.filter (·.severity == severity)).length

/-! ### Text -/

def escapeCode (code : Nat) : String := "\x1b[" ++ toString code ++ "m"

def bold (text : String) : String := escapeCode 1 ++ text ++ escapeCode 0

def dimmed (text : String) : String := escapeCode 2 ++ text ++ escapeCode 0

def tinted (severity : Severity) (text : String) : String :=
  escapeCode (match severity with | .error => 31 | .warning => 33) ++ text ++ escapeCode 39

/-- A line that says what is wrong, and one with the action unless that is blank. -/
def entryText (color : Bool) (d : Diagnostic) : String :=
  let place := d.file ++ ":" ++ d.pos.toString
  let severity := d.severity.word
  let head := if color then bold place ++ ": " ++ bold (tinted d.severity severity)
    else place ++ ": " ++ severity
  let raw := trimmed d.raw
  head ++ ": " ++ d.message ++ "\n" ++
    if raw = "" then "" else "    " ++ (if color then dimmed raw else raw) ++ "\n"

def summary (r : Report) : String :=
  let files := r.files.length
  let errors := r.count .error
  let warnings := r.count .warning
  s!"checked {files} file(s): {errors} error(s), {warnings} warning(s)\n"

def toText (r : Report) (color : Bool) : String :=
  String.join (r.diagnostics.map (entryText color)) ++ r.summary

def toJson (r : Report) : Json :=
  .object [("files", .array (r.files.map .string)),
    ("diagnostics", .array (r.diagnostics.map Diagnostic.toJson)),
    ("edges", .array (r.edges.map Edge.toJson))]

end Report

inductive OutputFormat where
  | text
  | json
deriving DecidableEq, Repr

def Report.render (r : Report) (color : Bool) : OutputFormat → String
  | .text => r.toText color
  | .json => r.toJson.pretty 0 ++ "\n"

end TemplateLint
