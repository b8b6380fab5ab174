import TemplateLint.Config
import TemplateLint.Manifest
import TemplateLint.Project.Report

/-! Checking the templates of a project: finding the files, reading what describes them, and
checking them. -/
namespace TemplateLint
open Text

inductive WriteFailure where
  | brokenPipe
  | other (text : String)
deriving DecidableEq, Repr

inductive RunError where
  | write (failure : String)
  | read (path : String)
  | manifest (path : String) (cause : TypeFileError)
  | config (path : String)
  | noTemplates (paths : List String)
  | missing (path : String)
deriving DecidableEq, Repr

def quotedPath (path : String) : String :=
  let escaped (c : Char) : List Char := if c = '\'' then ['\\', c] else escape '"' c
  String.ofList ('"' :: path.toList.flatMap escaped ++ ['"'])

namespace RunError

def message : RunError → String
  | write failure => s!"io error: {failure}"
  | read path => s!"failed to read {path}"
  | manifest path _ => s!"invalid type manifest {path}"
  | config path => s!"invalid config {path}"
  | noTemplates paths =>
    let list := ", ".intercalate (paths.map quotedPath)
    s!"no template files found under [{list}]"
  | missing path => s!"{path} does not exist"

end RunError

/-- A reader that has gone away is no error. -/
def WriteFailure.outcome : WriteFailure → Except RunError Unit
  | brokenPipe => .ok ()
  | other text => .error (.write text)

def isHiddenName (name : String) : Bool :=
  name.toList.head? = some '.' && name ≠ "." && name ≠ ".."

def dropRepeated : List String → List String
  | [] => []
  | [path] => [path]
  | a :: b :: paths =>
    if FilePath.same a b then dropRepeated (a :: paths) else a :: dropRepeated (b :: paths)
termination_by paths => paths.length

def filesUnder (fs : FileSystem) (c : Config) (path : String) : Except RunError (List String) :=
  match fs.find? path with
  | none => .error (.missing path)
  | some (.file _) => .ok [path]
  | some entry => .ok ((entry.files isHiddenName path).filter c.isTemplate)

def filesUnderAll (fs : FileSystem) (c : Config) : List String → Except RunError (List String)
  | [] => .ok []
  | path :: paths => do return (← filesUnder fs c path) ++ (← filesUnderAll fs c paths)

/-- The files to check, in the order of their components and each only once. -/
def discover (fs : FileSystem) (c : Config) (paths : List String) :
    Except RunError (List String) := do
  return dropRepeated ((← filesUnderAll fs c paths).mergeSort FilePath.le)

def displayPath (path : String) : String := String.ofList (Manifest.slashed path.toList)

def readText (fs : FileSystem) (path : String) : Except RunError String :=
  match fs.read? path with
  | some text => .ok text
  | none => .error (.read path)

/-- Reads a manifest: as JSON if the extension says so, else as YAML. -/
def loadManifest (fs : FileSystem) (path : String) : Except RunError Manifest := do
  let text ← readText fs path
  let read := if FilePath.extension? path = some "json" then Manifest.ofJson text
    else Manifest.ofYaml text
  match read with
  | .ok m => return m
  | .error cause => throw (.manifest path cause)

def loadConfig (fs : FileSystem) (path : String) : Except RunError Config := do
  match Config.ofYaml? (← readText fs path) with
  | some c => return c
  | none => throw (.config path)

def loadSource (fs : FileSystem) (m : Manifest) (path : String) : Except RunError SourceFile := do
  let source ← readText fs path
  return { name := displayPath path, root := m.rootFor (displayPath path), source }

def checkPaths (fs : FileSystem) (m : Manifest) (c : Config) (paths : List String) :
    Except RunError Report := do
  let files ← discover fs c paths
  if files = [] then throw (.noTemplates paths)
  return Report.ofFiles c.options (← files.mapM (loadSource fs m))

structure CheckRequest where
  paths : List String
  types : String
  config : Option String := none

def searchStart (fs : FileSystem) (path : String) : String :=
  if fs.isFile path then (FilePath.parent? path).getD path else path

/-- The file that is named as the configuration, or else the nearest one from the first path. -/
def configPath? (fs : FileSystem) (r : CheckRequest) : Option String :=
  match r.config, r.paths with
  | some path, _ => some path
  | none, [] => none
  | none, path :: _ => Config.find? fs (searchStart fs path)

def runCheck (fs : FileSystem) (r : CheckRequest) : Except RunError Report := do
  let config ← match configPath? fs r with
    | some path => loadConfig fs path
    | none => pure {}
  checkPaths fs (← loadManifest fs r.types) config r.paths

end TemplateLint
