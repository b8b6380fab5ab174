import TemplateLint.Files.FilePath

/-! Files and directories, as far as they are known. -/
namespace TemplateLint

inductive Entry where
  | file (content : ByteArray)
  | directory (entries : List (String × Entry))

namespace Entry

def isFile : Entry → Bool
  | file _ => true
  | directory _ => false

def get? (name : String) : Entry → Option Entry
  | file _ => none
  | directory entries => entries.lookup name

def insert (new : Entry) : List String → Entry → Entry
  | [], _ => new
  | name :: names, old =>
    let entries := match old with
      | directory entries => entries
      | file _ => []
    let inner := ((directory entries).get? name).getD (directory [])
    directory (entries.filter (·.1 != name) ++ [(name, insert new names inner)])

/-- The files in a directory and those below it, with their paths; whatever has a name for which
`skip` holds is left out. -/
def files (skip : String → Bool) (path : String) : Entry → List String
  | file _ => [path]
  | directory entries => below entries
where
  below : List (String × Entry) → List String
    | [] => []
    | (name, entry) :: entries =>
      (if skip name then [] else files skip (FilePath.join path name) entry) ++ below entries

end Entry

structure FileSystem where
  root : Entry := .directory []
  current : List String := []

namespace FileSystem

/-- Follows the parts of a path. The entries from the root to the present one are given, that one
first. Only a directory has parts, itself and the one above it included. -/
def follow : List Entry → List (List Char) → Option (List Entry)
  | here, [] => some here
  | [], _ :: _ => none
  | .file _ :: _, _ :: _ => none
  | .directory entries :: above, part :: parts =>
    let here := Entry.directory entries :: above
    if part = [] ∨ part = ['.'] then follow here parts
    else if part = ['.', '.'] then follow (if above = [] then here else above) parts
    else
      match entries.lookup (String.ofList part) with
      | none => none
      | some next => follow (next :: here) parts
termination_by _ parts => parts.length

/-- The entry at a path; the empty path leads nowhere. -/
def find? (fs : FileSystem) (path : String) : Option Entry :=
  match path.toList with
  | [] => none
  | '/' :: cs => (follow [fs.root] (FilePath.splitSlashes cs)).bind List.head?
  | cs =>
    (follow [fs.root] (fs.current.map String.toList ++ FilePath.splitSlashes cs)).bind List.head?

def namesOf (fs : FileSystem) (path : String) : List String :=
  let step (names : List String) : FilePath.Component → List String
    | .root => []
    | .here => names
    | .up => names.dropLast
    | .name n => names ++ [n]
  (FilePath.components path).foldl step fs.current

def insert (fs : FileSystem) (path : String) (new : Entry) : FileSystem :=
  { fs with root := Entry.insert new (fs.namesOf path) fs.root }

def makeDirectory (fs : FileSystem) (path : String) : FileSystem :=
  if (fs.find? path).isSome then fs else fs.insert path (.directory [])

def startIn (current : List String) : FileSystem :=
  { root := Entry.insert (.directory []) current (.directory []), current }

def isFile (fs : FileSystem) (path : String) : Bool := (fs.find? path).any Entry.isFile

def read? (fs : FileSystem) (path : String) : Option String :=
  match fs.find? path with
  | some (.file content) => String.fromUTF8? content
  | _ => none

end FileSystem
end TemplateLint
