import TemplateLint.Path.Basic
import TemplateLint.TypeNode.Basic

/-! Resolution of paths against type trees. -/
namespace TemplateLint

/-- What a path can name: the permanent root itself, or a type of its own. The two differ even
where the types are equal. -/
inductive TypeRef where
  | root
  | own (type : TypeNode)
deriving Repr, Inhabited

def TypeRef.type (root : TypeNode) : TypeRef → TypeNode
  | .root => root
  | .own t => t

inductive ResolveError where
  | undefinedVariable (name : String)
  /-- `depth` is the number of segments before the one that fails. -/
  | undefinedField (field on : String) (depth : Nat)
  | notIndexable (key on : String) (depth : Nat)
deriving DecidableEq, Repr

namespace ResolveError

def message : ResolveError → String
  | undefinedVariable name => s!"undefined variable `${name}`"
  | undefinedField field on _ => s!"`{field}` is not a field of `{on}`"
  | notIndexable key on _ => s!"cannot index `{on}` with `{key}`"

def depth? : ResolveError → Option Nat
  | undefinedVariable _ => none
  | undefinedField _ _ depth | notIndexable _ _ depth => some depth

end ResolveError

namespace TypeNode

def elementOrUnknown (t : TypeNode) : TypeNode := t.element?.getD unknown

/-- Takes one segment. Everything is accepted on an unknown type; a field of a map reads an entry,
and an index of a string reads a byte. -/
def step (t : TypeNode) (segment : Segment) (depth : Nat) : Except ResolveError TypeNode :=
  if t.isUnknown then .ok unknown else
  match segment with
  | .field name =>
    match t.field? name with
    | some field => .ok field
    | none =>
      if t.isMap then .ok t.elementOrUnknown
      else .error (.undefinedField name t.label depth)
  | .index key =>
    if t.isIterable then .ok t.elementOrUnknown
    else if t.label = stringLabel then .ok (scalar "" byteLabel)
    else .error (.notIndexable key t.label depth)

def descend (t : TypeNode) (depth : Nat) : List Segment → Except ResolveError TypeNode
  | [] => .ok t
  | segment :: segments =>
    match t.step segment depth with
    | .error e => .error e
    | .ok next => next.descend (depth + 1) segments

end TypeNode

/-- What names mean at some place. -/
structure Env where
  root : TypeNode
  dot : TypeRef
  var? : String → Option TypeRef

namespace Env

def ofType (t : TypeNode) : Env := ⟨t, .root, fun _ => none⟩

def base (env : Env) : PathRoot → Except ResolveError TypeRef
  | .dot => .ok env.dot
  | .root => .ok .root
  | .var name =>
    match env.var? name with
    | some ref => .ok ref
    | none => .error (.undefinedVariable name)

/-- What a path refers to. Only a path without segments can refer to the root itself. -/
def resolve (env : Env) (p : Path) : Except ResolveError TypeRef :=
  match env.base p.root with
  | .error e => .error e
  | .ok ref =>
    match p.segments with
    | [] => .ok ref
    | segments =>
      match (ref.type env.root).descend 0 segments with
      | .error e => .error e
      | .ok t => .ok (.own t)

def typeOf (env : Env) (p : Path) : Except ResolveError TypeNode :=
  (env.resolve p).map (TypeRef.type env.root)

end Env
end TemplateLint
