import TemplateLint.Expr.Parser
import TemplateLint.Resolve
import TemplateLint.Signature

/-! Types of expressions. -/
namespace TemplateLint

inductive ExprError where
  | malformed (e : Expr.Malformed)
  | resolve (e : ResolveError)
  | arity (func : String) (expected : Arity) (found : Nat)
  | notIndexable (on key : String)
deriving Repr

def ExprError.message : ExprError → String
  | .malformed e => e.message
  | .resolve e => e.message
  | .arity func expected found =>
    let expected := expected.toString
    s!"wrong number of args for {func}: want {expected} got {found}"
  | .notIndexable on key => s!"cannot index `{on}` with a `{key}` value"

def Literal.type (l : Literal) : TypeNode :=
  TypeNode.scalar "" <| match l with
  | .int _ | .char _ => TypeNode.intLabel
  | .float _ => TypeNode.floatLabel
  | .imaginary _ => TypeNode.complexLabel
  | .str _ => TypeNode.stringLabel
  | .bool _ => TypeNode.boolLabel
  | .nil => TypeNode.nilLabel

namespace TypeNode

def indexWith (container key : TypeNode) : Except ExprError TypeNode :=
  if container.isUnknown then .ok container
  else if container.label = stringLabel then .ok (scalar "" byteLabel)
  else if container.isIterable then .ok container.elementOrUnknown
  else .error (.notIndexable container.label key.label)

def indexWithAll (container : TypeNode) : List TypeNode → Except ExprError TypeNode
  | [] => .ok container
  | key :: keys =>
    match container.indexWith key with
    | .error e => .error e
    | .ok next => next.indexWithAll keys

end TypeNode

/-- The result type of a rule for the given argument types. -/
def ReturnRule.result (rule : ReturnRule) (args : List TypeNode) : Except ExprError TypeNode :=
  match rule, args with
  | .fixed label, _ => .ok (.scalar "" label)
  | .unknown, _ => .ok .unknown
  | .firstArg, first :: _ => .ok first
  | .element, container :: keys => container.indexWithAll keys
  | .firstArg, [] | .element, [] => .ok .unknown

/-- The result type of a call; a function that is not known can return anything. -/
def FuncTable.call (funcs : FuncTable) (func : String) (args : List TypeNode) :
    Except ExprError TypeNode :=
  match funcs.get? func with
  | none => .ok .unknown
  | some s =>
    if s.arity.accepts args.length then s.returns.result args
    else .error (.arity func s.arity args.length)

namespace Env

def operand (env : Env) (p : Path) : Except ExprError TypeNode :=
  match env.typeOf p with
  | .ok t => .ok t
  | .error e => .error (.resolve e)

end Env

namespace Expr

mutual
/-- The type of an expression. A method can return anything; its receiver and its arguments still
have to be right. -/
def typeIn (env : Env) (funcs : FuncTable) : Expr → Except ExprError TypeNode
  | .path _ p => env.operand p
  | .literal _ v => .ok v.type
  | .call _ func args => do
    funcs.call func (← typesIn env funcs args)
  | .method _ receiver _ args => do
    let _ ← env.operand receiver
    let _ ← typesIn env funcs args
    return .unknown
  | .chain _ base segments => do
    match (← typeIn env funcs base).descend 0 segments with
    | .ok t => return t
    | .error e => throw (.resolve e)
  | .pipeline _ [] => return .unknown
  | .pipeline _ (first :: stages) => do
    stagesIn env funcs (← typeIn env funcs first) stages

def typesIn (env : Env) (funcs : FuncTable) : List Expr → Except ExprError (List TypeNode)
  | [] => .ok []
  | e :: es => do
    let t ← typeIn env funcs e
    return t :: (← typesIn env funcs es)

/-- The type after further stages of a pipeline, each of which gets what is before it as its first
argument. -/
def stagesIn (env : Env) (funcs : FuncTable) (input : TypeNode) :
    List Expr → Except ExprError TypeNode
  | [] => .ok input
  | stage :: stages => do
    stagesIn env funcs (← stageIn env funcs input stage) stages

/-- The type of one stage. A path names a method of what it leads to without its last segment. -/
def stageIn (env : Env) (funcs : FuncTable) (input : TypeNode) :
    Expr → Except ExprError TypeNode
  | .call _ func args => do
    funcs.call func (input :: (← typesIn env funcs args))
  | .method _ receiver _ args => do
    let _ ← env.operand receiver
    let _ ← typesIn env funcs args
    return .unknown
  | .path _ p => do
    let _ ← env.operand (p.take (p.segments.length - 1))
    return .unknown
  | .literal s _ | .chain s _ _ | .pipeline s _ => throw (.malformed ⟨.nonExecutable, s.start⟩)
end

def infer (env : Env) (funcs : FuncTable) (e : Expr) : Except ExprError InferredType :=
  (e.typeIn env funcs).map InferredType.ofNode

def inferText (env : Env) (funcs : FuncTable) (text : String) : Except ExprError InferredType :=
  match parse text with
  | .error e => .error (.malformed e)
  | .ok e => e.infer env funcs

end Expr
end TemplateLint
