import TemplateLint.Text.Basic

/-! Variable declarations at the head of a pipeline. -/
namespace TemplateLint
open Text

inductive DeclOp where
  | declare
  | assign
deriving DecidableEq, Repr

structure Declaration where
  vars : List String
  op : DeclOp
deriving DecidableEq, Repr

namespace Declaration

def takeVar? : List Char → Option (List Char × List Char)
  | '$' :: cs =>
    let (name, rest) := takeName cs
    if name = [] then none else some (name, rest)
  | _ => none

/-- The operator at the front of the text; a comparison is not one. -/
def takeOp? : List Char → Option (DeclOp × List Char)
  | ':' :: '=' :: rest => some (.declare, rest)
  | '=' :: '=' :: _ => none
  | '=' :: rest => some (.assign, rest)
  | _ => none

def read? (cs : List Char) : Option (Declaration × List Char) := do
  let (first, rest) ← takeVar? (trimStart cs)
  match trimStart rest with
  | ',' :: rest =>
    let (second, rest) ← takeVar? (trimStart rest)
    let (op, tail) ← takeOp? (trimStart rest)
    some (⟨[String.ofList first, String.ofList second], op⟩, tail)
  | rest =>
    let (op, tail) ← takeOp? rest
    some (⟨[String.ofList first], op⟩, tail)

/-- Splits a declaration off the text; the pipeline that remains has no blanks around it. -/
def split (cs : List Char) : Option Declaration × List Char :=
  match read? cs with
  | some (decl, rest) => (some decl, trim rest)
  | none => (none, trim cs)

end Declaration
end TemplateLint
