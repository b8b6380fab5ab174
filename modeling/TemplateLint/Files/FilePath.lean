/-! Paths of files, as texts with slashes. Two paths are the same if their components are: empty
parts and points inside a path say nothing, but a point at its beginning counts. -/
namespace TemplateLint.FilePath

inductive Component where
  | root
  | here
  | up
  | name (text : String)
deriving DecidableEq, Repr

namespace Component

/-- The order of components: names come last, in the order of their characters. -/
def le : Component → Component → Bool
  | name a, name b => a ≤ b
  | name _, _ => false
  | _, name _ => true
  | root, _ => true
  | here, root => false
  | here, _ => true
  | up, up => true
  | up, _ => false

end Component

def splitSlashes : List Char → List (List Char)
  | [] => [[]]
  | '/' :: cs => [] :: splitSlashes cs
  | c :: cs =>
    match splitSlashes cs with
    | part :: parts => (c :: part) :: parts
    | [] => [[c]]

def joinSlashes : List (List Char) → List Char
  | [] => []
  | [part] => part
  | part :: parts => part ++ '/' :: joinSlashes parts

def splitStart : List Char → Option Component × List Char
  | '/' :: cs => (some .root, cs)
  | ['.'] => (some .here, [])
  | '.' :: '/' :: cs => (some .here, '/' :: cs)
  | cs => (none, cs)

def isSolid (part : List Char) : Bool := part ≠ [] && part ≠ ['.']

def components (path : String) : List Component :=
  let (start, body) := splitStart path.toList
  let part (p : List Char) : Component := if p = ['.', '.'] then .up else .name (String.ofList p)
  start.toList ++ ((splitSlashes body).filter isSolid).map part

def leComponents : List Component → List Component → Bool
  | [], _ => true
  | _ :: _, [] => false
  | a :: as, b :: bs => if a = b then leComponents as bs else a.le b

def le (a b : String) : Bool := leComponents (components a) (components b)

def same (a b : String) : Bool := components a == components b

def fileName? (path : String) : Option String :=
  match (components path).getLast? with
  | some (.name n) => some n
  | _ => none

/-- What follows the last point of the file's name, if something stands before that. -/
def extension? (path : String) : Option String := do
  let name ← fileName? path
  match name.toList.reverse.dropWhile (· != '.') with
  | _ :: _ :: _ => return String.ofList (name.toList.reverse.takeWhile (· != '.')).reverse
  | _ => none

def parent? (path : String) : Option String :=
  let (start, body) := splitStart path.toList
  let head := match start with
    | some .root => ['/']
    | some .here => ['.']
    | _ => []
  match (splitSlashes body).reverse.dropWhile (!isSolid ·) with
  | _ :: parts =>
    some (String.ofList (head ++ joinSlashes (parts.dropWhile (!isSolid ·)).reverse))
  | [] => if start = some .here then some "" else none

def ancestors (path : String) : List String :=
  match parent? path with
  | none => [path]
  | some above => if above.length < path.length then path :: ancestors above else [path]
termination_by path.length

def join (directory name : String) : String :=
  match directory.toList.getLast? with
  | none => name
  | some '/' => directory ++ name
  | some _ => directory ++ "/" ++ name

end TemplateLint.FilePath
