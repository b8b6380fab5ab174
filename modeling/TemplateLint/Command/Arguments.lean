import TemplateLint.Project.Run

/-! The arguments of the command line. Options may stand before and after the word that says what to
do; whatever is no option after it is a path. -/
namespace TemplateLint

inductive LogLevel where
  | error
  | warn
  | info
  | debug
  | trace
deriving DecidableEq, Repr

inductive LogFormat where
  | json
  | prettyCompact
  | pretty
deriving DecidableEq, Repr

inductive ColorChoice where
  | auto
  | always
  | never
deriving DecidableEq, Repr

structure Invocation where
  paths : List String
  types : String
  config : Option String := none
  format : OutputFormat := .text
  logLevel : Option LogLevel := none
  logFormat : Option LogFormat := none
  color : ColorChoice := .auto
deriving DecidableEq, Repr

/-- Why the arguments are not carried out; asking for help is one reason. -/
inductive UsageError where
  | missingRequired
  | missingSubcommand
  | invalidValue
  | valueValidation
  | conflict
  | tooManyValues
  | unknownArgument
  | invalidSubcommand
  | help
  | version
  | helpOnMissing
deriving DecidableEq, Repr

namespace Arguments

inductive Opt where
  | types
  | config
  | format
  | logLevel
  | logFormat
  | color
deriving DecidableEq, Repr

inductive Flag where
  | option (o : Opt)
  | help
  | version
deriving DecidableEq, Repr

/-- Where on the command line an option stands: before the word `check` or after it. -/
inductive Level where
  | top
  | check
deriving DecidableEq, Repr

def longFlags : Level → List (String × Flag)
  | .top => common ++ [("version", .version)]
  | .check =>
    common ++ [("types", .option .types), ("config", .option .config), ("format", .option .format)]
where
  common : List (String × Flag) :=
    [("help", .help), ("log-level", .option .logLevel), ("log-format", .option .logFormat),
      ("color", .option .color)]

def shortFlags : Level → List (Char × Flag)
  | .top => [('h', .help), ('V', .version)]
  | .check => [('h', .help), ('t', .option .types), ('c', .option .config)]

/-! ### Values -/

def formatNames : List (String × OutputFormat) := [("text", .text), ("json", .json)]

def logFormatNames : List (String × LogFormat) :=
  [("json", .json), ("pretty-compact", .prettyCompact), ("pretty", .pretty)]

def colorNames : List (String × ColorChoice) :=
  [("auto", .auto), ("always", .always), ("never", .never)]

def logLevelNames : List (String × LogLevel) :=
  [("error", .error), ("warn", .warn), ("info", .info), ("debug", .debug), ("trace", .trace)]

/-- A level is given by its name in any case, or by its number from one on. -/
def logLevel? (text : String) : Option LogLevel :=
  match Arity.count? text.toList with
  | some (n + 1) => (logLevelNames[n]?).map Prod.snd
  | some 0 => none
  | none => logLevelNames.lookup (text.map Char.toLower)

def path? (text : String) : Except UsageError Unit :=
  if text = "" then .error .invalidValue else .ok ()

def listed {α : Type} (names : List (String × α)) (text : String) : Except UsageError Unit :=
  if (names.lookup text).isSome then .ok () else .error .invalidValue

def Opt.validate (text : String) : Opt → Except UsageError Unit
  | .types | .config => path? text
  | .format => listed formatNames text
  | .logFormat => listed logFormatNames text
  | .color => listed colorNames text
  | .logLevel => if (logLevel? text).isSome then .ok () else .error .valueValidation

/-! ### Reading -/

/-- What is being read: it is looked at only when the next thing begins. -/
inductive Pending where
  | option (o : Opt) (value : Option String)
  | paths (values : List String)

structure Reading where
  options : List (Opt × String) := []
  paths : List String := []
  pending : Option Pending := none
  /-- After `--` everything is a path. -/
  onlyPaths : Bool := false

namespace Reading

def give (r : Reading) (o : Opt) (value : String) : Except UsageError Reading := do
  if (r.options.lookup o).isSome then throw .conflict
  o.validate value
  return { r with options := r.options ++ [(o, value)] }

def settle (r : Reading) : Except UsageError Reading := do
  let done := { r with pending := none }
  match r.pending with
  | none => return done
  | some (.option _ none) => throw .invalidValue
  | some (.option o (some value)) => done.give o value
  | some (.paths values) =>
    values.forM path?
    return { done with paths := r.paths ++ values }

def awaiting? (r : Reading) : Option Opt :=
  match r.pending with
  | some (.option o none) => some o
  | _ => none

def flag (r : Reading) (f : Flag) (attached : Option String) : Except UsageError Reading := do
  match f, attached with
  | .option o, none => return { ← r.settle with pending := some (.option o none) }
  | .option o, some value => (← r.settle).give o value
  | .help, none => let _ ← r.settle; throw .help
  | .version, none => let _ ← r.settle; throw .version
  | _, some _ => throw .tooManyValues

def long (r : Reading) (level : Level) (cs : List Char) : Except UsageError Reading :=
  let name := cs.takeWhile (· != '=')
  let attached := (cs.dropWhile (· != '=')).tail?.map String.ofList
  match (longFlags level).lookup (String.ofList name) with
  | some f => r.flag f attached
  | none => .error .unknownArgument

def short (r : Reading) (level : Level) (c : Char) (cs : List Char) : Except UsageError Reading :=
  match (shortFlags level).lookup c with
  | none => .error .unknownArgument
  | some (.option o) =>
    match cs with
    | [] => r.flag (.option o) none
    | '=' :: value => r.flag (.option o) (some (String.ofList value))
    | value => r.flag (.option o) (some (String.ofList value))
  | some f => r.flag f none

def path (r : Reading) (text : String) : Except UsageError Reading :=
  match r.pending with
  | some (.paths values) => .ok { r with pending := some (.paths (values ++ [text])) }
  | _ => do return { ← r.settle with pending := some (.paths [text]) }

/-- Takes an argument that is `--`, an option or the value of one; `none` if it is none of them. -/
def option? (r : Reading) (level : Level) (arg : String) : Option (Except UsageError Reading) :=
  if r.onlyPaths then none else
  match arg.toList, r.awaiting? with
  | ['-', '-'], _ => some (.ok { r with onlyPaths := true })
  | '-' :: '-' :: cs, _ => some (r.long level cs)
  | '-' :: c :: cs, _ => some (r.short level c cs)
  | _, some o => some (.ok { r with pending := some (.option o (some arg)) })
  | _, none => none

end Reading

def readCheck (r : Reading) : List String → Except UsageError Reading
  | [] => do
    let r ← r.settle
    if (r.options.lookup .types).isNone then throw .missingRequired
    return r
  | arg :: args => do
    let r ← match r.option? .check arg with
      | some next => next
      | none => r.path arg
    readCheck r args

def readHelp : List String → UsageError
  | [] | ["check"] | ["help"] => .help
  | _ => .invalidSubcommand

def strayWord (r : Reading) (arg : String) : UsageError :=
  if r.onlyPaths && (arg == "check" || arg == "help") then .unknownArgument
  else .invalidSubcommand

def readTop (r : Reading) : List String → Except UsageError (Reading × Reading)
  | [] => do
    let r ← r.settle
    throw (if r.options = [] then .helpOnMissing else .missingSubcommand)
  | arg :: args =>
    if !r.onlyPaths && r.awaiting?.isNone && arg == "check" then do
      let inner ← readCheck {} args
      return (← r.settle, inner)
    else if !r.onlyPaths && r.awaiting?.isNone && arg == "help" then .error (readHelp args)
    else
      match r.option? .top arg with
      | some next => do readTop (← next) args
      | none => .error (strayWord r arg)

/-- The invocation of what was read. An option after the word counts more than one before it. -/
def invocation (outer inner : Reading) : Invocation :=
  let value? (o : Opt) : Option String :=
    (inner.options.lookup o).or (outer.options.lookup o)
  { paths := if inner.paths = [] then ["."] else inner.paths
    types := (value? .types).getD ""
    config := value? .config
    format := ((value? .format).bind (List.lookup · formatNames)).getD .text
    logLevel := (value? .logLevel).bind logLevel?
    logFormat := (value? .logFormat).bind (List.lookup · logFormatNames)
    color := ((value? .color).bind (List.lookup · colorNames)).getD .auto }

def parse (argv : List String) : Except UsageError Invocation := do
  let (outer, inner) ← readTop {} argv.tail
  return invocation outer inner

end Arguments

namespace Invocation

def request (i : Invocation) : CheckRequest :=
  { paths := i.paths, types := i.types, config := i.config }

/-- Whether the report is colored; by default it is if it goes to a terminal. -/
def useColor (i : Invocation) (terminal : Bool) : Bool :=
  match i.color with
  | .auto => terminal
  | .always => true
  | .never => false

def render (i : Invocation) (terminal : Bool) (r : Report) : String :=
  r.render (i.useColor terminal) i.format

end Invocation

def Report.exitCode (r : Report) : Nat := if r.hasErrors then 1 else 0

end TemplateLint
