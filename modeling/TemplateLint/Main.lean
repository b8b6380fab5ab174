import TemplateLint.Command.Arguments

/-! The command line program. What it needs to know of the files is read first; all decisions are
made on that. -/
namespace TemplateLint

def UsageError.message : UsageError → String
  | missingRequired => "the required option --types is missing"
  | missingSubcommand => "there is no subcommand"
  | invalidValue => "an option has no value or not a possible one"
  | valueValidation => "a value is not understood"
  | conflict => "an option cannot be used more than once"
  | tooManyValues => "an option takes no value"
  | unknownArgument => "there is an unexpected argument"
  | invalidSubcommand => "the subcommand is not known"
  | help | version | helpOnMissing => ""

def helpText : String :=
  "Statically check variable references in Go templates\n\n" ++
  "Usage: gotmpl-check check [OPTIONS] --types <TYPES> [PATH]...\n\n" ++
  "Options:\n" ++
  "  -t, --types <TYPES>            Type manifest (JSON or YAML) describing the template data\n" ++
  "  -c, --config <CONFIG>          Config file, defaults to the nearest `.gotmpl-check.yaml`\n" ++
  "      --format <FORMAT>          text or json\n" ++
  "      --log-level <LOG_LEVEL>    error, warn, info, debug or trace\n" ++
  "      --log-format <LOG_FORMAT>  json, pretty-compact or pretty\n" ++
  "      --color <COLOR>            auto, always or never\n" ++
  "  -h, --help                     Print help\n" ++
  "  -V, --version                  Print version\n"

/-- Stands for the content of a file that cannot be read: it is no text. -/
def noText : ByteArray := ⟨#[0xff]⟩

def loadFile (path : String) : IO Entry := do
  try return .file (← IO.FS.readBinFile path)
  catch _ => return .file noText

/-- The files and directories at a path, without what the files hold. Neither hidden names nor links
are followed. -/
partial def loadTree (path : String) : IO Entry := do
  let here := (← IO.currentDir) / path
  if ← here.isDir then
    let mut entries := []
    for e in ← here.readDir do
      let kind := (← e.path.symlinkMetadata).type
      if !isHiddenName e.fileName && (kind matches .dir | .file) then
        entries := (e.fileName, ← loadTree (FilePath.join path e.fileName)) :: entries
    return .directory entries
  else return .file .empty

def addPath (load : String → IO Entry) (fs : FileSystem) (path : String) : IO FileSystem := do
  let mut fs := fs
  for above in (FilePath.ancestors path).reverse.filter (· != "") do
    if ← ((← IO.currentDir) / above).isDir then fs := fs.makeDirectory above
  if ← ((← IO.currentDir) / path).pathExists then fs := fs.insert path (← load path)
  return fs

def addFile (fs : FileSystem) (path : String) : IO FileSystem := do
  if ← ((← IO.currentDir) / path).isDir then return fs.makeDirectory path
  addPath loadFile fs path

/-- All that a check looks at: the trees under its paths, the manifest, the configurations that it
may find, and the files that it will read. -/
def loadFor (r : CheckRequest) : IO FileSystem := do
  let mut fs := FileSystem.startIn ((← IO.currentDir).components.filter (· != ""))
  for path in r.paths do
    fs ← addPath loadTree fs path
  for path in r.types :: r.config.toList do
    fs ← addFile fs path
  for path in r.paths do
    for directory in FilePath.ancestors (searchStart fs path) do
      fs ← addFile fs (FilePath.join directory Config.fileName)
  let config := match configPath? fs r with
    | some path => loadConfig fs path
    | none => .ok {}
  if let .ok config := config then
    if let .ok files := discover fs config r.paths then
      for path in files do
        fs ← addFile fs path
  return fs

def perform (i : Invocation) : IO UInt32 := do
  match runCheck (← loadFor i.request) i.request with
  | .error e =>
    IO.eprintln ("Error: " ++ e.message)
    return 1
  | .ok report =>
    let out ← IO.getStdout
    out.putStr (i.render (← out.isTty) report)
    out.flush
    return UInt32.ofNat report.exitCode

def runMain (args : List String) : IO UInt32 := do
  match Arguments.parse ("gotmpl-check" :: args) with
  | .ok i => perform i
  | .error .help => IO.print helpText; return 0
  | .error .version => IO.println "gotmpl-check 0.1.0"; return 0
  | .error .helpOnMissing => IO.eprint helpText; return 2
  | .error e => IO.eprintln ("error: " ++ e.message); return 2

end TemplateLint

def main (args : List String) : IO UInt32 := TemplateLint.runMain args
