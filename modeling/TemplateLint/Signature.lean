import TemplateLint.Document
import TemplateLint.NameMap
import TemplateLint.Text.Basic
import TemplateLint.TypeNode.Basic

/-! Signatures of the functions that a template may call. -/
namespace TemplateLint
open Text

/-- How many arguments a function takes, a piped one included. -/
inductive Arity where
  | exact (n : Nat)
  | atLeast (n : Nat)
  | any
deriving DecidableEq, Repr

namespace Arity

def accepts (count : Nat) : Arity → Bool
  | exact n => count = n
  | atLeast n => n ≤ count
  | any => true

protected def toString : Arity → String
  | exact n => toString n
  | atLeast n => toString n ++ "+"
  | any => "any"

def count? (cs : List Char) : Option Nat :=
  let digits := match cs with
    | '+' :: digits => digits
    | _ => cs
  if digits ≠ [] ∧ digits.all Char.isDigit then
    (some (digits.foldl (fun n c => n * 10 + (c.toNat - '0'.toNat)) 0)).filter (· < 1 <<< 64)
  else none

/-- Reads a number, a number and a plus sign, or the word `any` in any case. -/
def ofChars? (cs : List Char) : Option Arity :=
  let cs := trim cs
  if cs.map Char.toLower = ['a', 'n', 'y'] then some any
  else if cs.getLast? = some '+' then (count? (trim cs.dropLast)).map atLeast
  else (count? cs).map exact

def ofString? (text : String) : Option Arity := ofChars? text.toList

def invalidMessage (text : String) : String :=
  let text := String.ofList (trim text.toList)
  s!"invalid arity `{text}`, expected `N`, `N+` or `any`"

def ofDocument? : Document → Option Arity
  | .leaf l =>
    match l.value with
    | .count n => some (exact n)
    | .text s => ofString? s
    | .other => none
  | _ => none

end Arity

inductive ReturnRule where
  | fixed (label : String)
  /-- What indexing the first argument with the others reaches. -/
  | element
  | firstArg
  | unknown
deriving DecidableEq, Repr

namespace ReturnRule

protected def toString : ReturnRule → String
  | fixed label => label
  | element => "element"
  | firstArg => "first_arg"
  | unknown => "unknown"

/-- Every text is a rule; what is not one of the three words is a label. -/
def ofString (text : String) : ReturnRule :=
  match String.ofList (trim text.toList) with
  | "element" => element
  | "first_arg" => firstArg
  | "unknown" => unknown
  | "" => unknown
  | label => fixed label

end ReturnRule

structure Signature where
  arity : Arity
  returns : ReturnRule
deriving DecidableEq, Repr

namespace Signature

def toJson (s : Signature) : Json :=
  .object [("arity", .string s.arity.toString), ("returns", .string s.returns.toString)]

def ofDocument? (d : Document) : Option Signature :=
  match d.fields? ["arity", "returns"] with
  | some [some arity, some returns] => do
    return ⟨← Arity.ofDocument? arity, .ofString (← returns.text?)⟩
  | _ => none

end Signature

abbrev FuncTable := NameMap Signature

namespace FuncTable

def builtins : FuncTable :=
  let fixed (arity : Arity) (label : String) : Signature := ⟨arity, .fixed label⟩
  let all (names : List String) (s : Signature) := names.map (·, s)
  NameMap.ofList <|
    all ["len"] (fixed (.exact 1) TypeNode.intLabel) ++
    all ["index"] ⟨.atLeast 1, .element⟩ ++
    all ["printf"] (fixed (.atLeast 1) TypeNode.stringLabel) ++
    all ["html", "js", "urlquery"] (fixed .any TypeNode.stringLabel) ++
    all ["eq"] (fixed (.atLeast 2) TypeNode.boolLabel) ++
    all ["ne", "lt", "le", "gt", "ge"] (fixed (.exact 2) TypeNode.boolLabel) ++
    all ["and", "or"] (fixed (.atLeast 1) TypeNode.boolLabel) ++
    all ["not"] (fixed (.exact 1) TypeNode.boolLabel)

def toJson (t : FuncTable) : Json := .object (t.entries.map fun (name, s) => (name, s.toJson))

/-- A record of signatures. Of a name that comes twice the last signature counts. -/
def ofDocument? (d : Document) : Option FuncTable := do
  let entries ← (← d.record?).mapM fun (name, s) => (Signature.ofDocument? s).map (name, ·)
  return NameMap.ofList entries

end FuncTable
end TemplateLint
