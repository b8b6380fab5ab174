import TemplateLint.Analysis.Diagnostic
import TemplateLint.Analysis.Scope
import TemplateLint.Template.Parser

/-! Checking a template: one walk over its nodes keeps track of the scope and checks every path and
pipeline against it. Nothing stops the walk. -/
namespace TemplateLint

inductive BlockContext where
  | root
  | inherit
deriving DecidableEq, Repr

structure Options where
  delimiters : Delimiters := {}
  blockContext : BlockContext := .root
  reportUnknownFunctions : Bool := false
  funcs : FuncTable := FuncTable.builtins

structure Context where
  file : String
  root : TypeNode
  /-- The first dot; without one it is the root. -/
  dot : Option TypeNode := none
  locals : List (String × TypeNode) := []

namespace Context

def stack (c : Context) : ScopeStack :=
  c.locals.foldl (fun s (name, t) => s.bind name (.own t))
    (ScopeStack.start c.root (c.dot.elim .root .own))

end Context

structure Checked where
  type? : Option TypeRef := none
  problems : List Problem := []
  /-- Zero if there was nothing to check. -/
  count : Nat := 0
deriving Repr

namespace ScopeStack

/-- How a path that does not resolve is reported. A first segment that the root does not have is a
variable that is not there. -/
def pathProblem (s : ScopeStack) (p : Path) (e : ResolveError) : Problem :=
  match e with
  | .undefinedField _ _ 0 =>
    if p.root = .root ∨ (p.root = .dot ∧ s.dotIsRoot) then .missing p else .path e p
  | _ => .path e p

/-- Checks a pipeline that is a single path. Inference can still find a type if the path fails
after its first segment. -/
def checkPath (s : ScopeStack) (o : Options) (expr : String) (p : Path) :
    Option TypeRef × List Problem :=
  match s.resolve p with
  | .ok ref => (some ref, [])
  | .error e =>
    let rescued : Option InferredType :=
      if e.depth?.any (0 < ·) then (Expr.inferText s.env o.funcs expr).toOption else none
    match rescued with
    | some t => (some (.own t.toNode), [])
    | none => (none, [s.pathProblem p e])

def pathProblems (s : ScopeStack) (e : Expr) : List Problem :=
  e.paths.filterMap fun (p, _) =>
    match s.resolve p with
    | .ok _ => none
    | .error err => some (s.pathProblem p err)

def functionProblems (o : Options) (e : Expr) : List Problem :=
  if o.reportUnknownFunctions then
    e.calls.filterMap fun (f, _) => if o.funcs.contains f then none else some (.function f)
  else []

/-- How a failed inference is reported. A call with the wrong number of arguments is not. -/
def inferenceProblems (expr : String) : ExprError → List Problem
  | .resolve (.undefinedVariable _) => []
  | .resolve e => [.part e expr]
  | .notIndexable on key => [.index on key expr]
  | .malformed _ | .arity .. => []

def checkExpr (s : ScopeStack) (o : Options) (expr : String) : Option TypeRef × List Problem :=
  match Expr.parse expr with
  | .error e => (none, [.malformed e expr])
  | .ok e =>
    let paths := s.pathProblems e
    let functions := functionProblems o e
    if paths ≠ [] then (none, paths ++ functions) else
    match e.infer s.env o.funcs with
    | .ok t => (some (.own t.toNode), functions)
    | .error err => (none, functions ++ inferenceProblems expr err)

def checkPipeline (s : ScopeStack) (o : Options) (expr : String) (path : Option Path) :
    Option TypeRef × List Problem :=
  match path with
  | some p => s.checkPath o expr p
  | none => s.checkExpr o expr

def check (s : ScopeStack) (o : Options) (expr : String) (path : Option Path) : Checked :=
  if trimmed expr = "" then {}
  else
    let (type?, problems) := s.checkPipeline o expr path
    { type?, problems, count := 1 }

def assignProblems (s : ScopeStack) (vars : List String) : List Problem :=
  (vars.filter fun v => !s.isVisible v).map .assigned

def declare (s : ScopeStack) (decl : Option Declaration) (type? : Option TypeRef) :
    ScopeStack × List Problem :=
  match decl with
  | none => (s, [])
  | some ⟨vars, .declare⟩ => (s.bindAll vars (type?.getD (.own .unknown)), [])
  | some ⟨vars, .assign⟩ => (s, s.assignProblems vars)

/-- Carries out the declaration of a `range`: one variable gets the element, two the position and
the element. -/
def declareRange (s : ScopeStack) (decl : Option Declaration) (elem : TypeRef) :
    ScopeStack × List Problem :=
  match decl with
  | none => (s, [])
  | some ⟨vars, .assign⟩ => (s, s.assignProblems vars)
  | some ⟨[value], .declare⟩ => (s.bind value elem, [])
  | some ⟨[position, value], .declare⟩ =>
    ((s.bind position (.own (.scalar "" TypeNode.intLabel))).bind value elem, [])
  | some ⟨vars, .declare⟩ => (s.bindAll vars (.own .unknown), [])

def elementOf (s : ScopeStack) (expr : String) (type? : Option TypeRef) :
    TypeRef × List Problem :=
  match type?.map (TypeRef.type s.root) with
  | none => (.own .unknown, [])
  | some t =>
    if t.isUnknown then (.own .unknown, [])
    else if t.isIterable then (.own t.elementOrUnknown, [])
    else (.own .unknown, [.notIterable (trimmed expr) t.label])

end ScopeStack

structure Group where
  kind : BlockKind
  /-- Whether it has a frame of its own, which its `end` takes away. -/
  pushed : Bool
deriving DecidableEq, Repr

/-- The walk between two nodes: the scope, and the constructs that are open, innermost first. -/
structure Walk where
  stack : ScopeStack
  groups : List Group := []

structure Effect where
  walk : Walk
  problems : List Problem := []
  edge : Option Edge := none
  checked : Nat := 0

namespace Walk

def enterBranch (w : Walk) : Walk :=
  match w.groups with
  | ⟨.range, true⟩ :: _ | ⟨.with_, true⟩ :: _ => { w with stack := w.stack.enterElse }
  | _ => w

def ensureFrame (w : Walk) : Walk :=
  match w.groups with
  | ⟨kind, false⟩ :: groups => ⟨w.stack.push .if_ w.stack.top.dot, ⟨kind, true⟩ :: groups⟩
  | _ => w

/-- Declares the variables of an `if` or `else if`, in a frame of their own. -/
def declareConditional (w : Walk) (decl : Option Declaration) (type? : Option TypeRef) :
    Walk × List Problem :=
  if decl.isSome then
    let w := w.ensureFrame
    let (stack, problems) := w.stack.declare decl type?
    ({ w with stack }, problems)
  else (w, [])

def enter (w : Walk) (kind : BlockKind) (stack : ScopeStack) : Walk :=
  ⟨stack, ⟨kind, true⟩ :: w.groups⟩

def edge (file : String) (pos : Position) (b : BlockOpen) (kind : EdgeKind)
    (context : Option TypeNode) : Option Edge :=
  b.name.map fun name =>
    { file, name, kind, context := trimmed b.expr, contextType := context.map (·.label)
      line := pos.line, col := pos.col }

def openRange (o : Options) (w : Walk) (b : BlockOpen) : Effect :=
  let header := w.stack.check o b.expr b.path
  let (elem, more) := w.stack.elementOf b.expr header.type?
  let (stack, declared) := (w.stack.push .range elem).declareRange b.decl elem
  { walk := w.enter .range stack
    problems := header.problems ++ more ++ declared
    checked := header.count }

def openWith (o : Options) (w : Walk) (b : BlockOpen) : Effect :=
  let header := w.stack.check o b.expr b.path
  let dot := header.type?.getD (.own .unknown)
  let (stack, declared) := (w.stack.push .with_ dot).declare b.decl (some dot)
  { walk := w.enter .with_ stack
    problems := header.problems ++ declared
    checked := header.count }

def openIf (o : Options) (w : Walk) (b : BlockOpen) : Effect :=
  let header := w.stack.check o b.expr b.path
  let w : Walk := { w with groups := ⟨.if_, false⟩ :: w.groups }
  let (w, declared) := w.declareConditional b.decl header.type?
  { walk := w, problems := header.problems ++ declared, checked := header.count }

def openBranch (o : Options) (w : Walk) (b : BlockOpen) : Effect :=
  if b.group.isNone then { walk := w } else
  let w := w.enterBranch
  if b.kind = .elseIf then
    let header := w.stack.check o b.expr b.path
    let (w, declared) := w.declareConditional b.decl header.type?
    { walk := w, problems := header.problems ++ declared, checked := header.count }
  else { walk := w }

def openDefine (file : String) (pos : Position) (w : Walk) (b : BlockOpen) : Effect :=
  { walk := w.enter .define (w.stack.pushDetached .define .root)
    edge := edge file pos b .define none }

def openBlock (o : Options) (file : String) (pos : Position) (w : Walk) (b : BlockOpen) : Effect :=
  let header := w.stack.check o b.expr b.path
  let dot :=
    if trimmed b.expr = "" then
      match o.blockContext with
      | .root => .root
      | .inherit => w.stack.top.dot
    else header.type?.getD (.own .unknown)
  { walk := w.enter .block (w.stack.pushDetached .block dot)
    problems := header.problems
    edge := edge file pos b .block (some (dot.type w.stack.root))
    checked := header.count }

def callTemplate (o : Options) (file : String) (pos : Position) (w : Walk) (b : BlockOpen) :
    Effect :=
  let header := w.stack.check o b.expr b.path
  { walk := w
    problems := header.problems
    edge := edge file pos b .template (header.type?.map (TypeRef.type w.stack.root))
    checked := header.count }

def openConstruct (o : Options) (file : String) (pos : Position) (w : Walk) (b : BlockOpen) :
    Effect :=
  match b.kind with
  | .range => w.openRange o b
  | .with_ => w.openWith o b
  | .if_ => w.openIf o b
  | .elseIf | .else_ => w.openBranch o b
  | .define => w.openDefine file pos b
  | .block => w.openBlock o file pos b
  | .template => w.callTemplate o file pos b

def close (w : Walk) (opener : Option Nat) : Walk :=
  match opener, w.groups with
  | some _, g :: groups => ⟨if g.pushed then w.stack.pop else w.stack, groups⟩
  | _, _ => w

def action (o : Options) (w : Walk) (a : Action) : Effect :=
  if trimmed a.expr = "" then { walk := w } else
  let checked := w.stack.check o a.expr a.path
  let (stack, declared) := w.stack.declare a.decl checked.type?
  { walk := { w with stack }
    problems := checked.problems ++ declared
    checked := checked.count }

def effect (o : Options) (file : String) (w : Walk) (n : Node) : Effect :=
  match n.body with
  | .action a => w.action o a
  | .blockOpen b => w.openConstruct o file n.pos b
  | .blockClose opener => { walk := w.close opener }
  | .text | .comment _ | .loopControl _ | .malformed _ => { walk := w }

def step (o : Options) (file : String) (w : Walk) (n : Node) : Walk × Findings :=
  let e := w.effect o file n
  (e.walk, {
    diagnostics := e.problems.map (Diagnostic.of file n.pos n.raw)
    edges := e.edge.toList
    checked := e.checked })

def run (o : Options) (file : String) (w : Walk) : List Node → Walk × Findings
  | [] => (w, {})
  | n :: ns =>
    let (w, found) := w.step o file n
    let (w, more) := w.run o file ns
    (w, found ++ more)

end Walk

namespace Context

def walk (c : Context) : Walk := { stack := c.stack }

end Context

def ParseIssue.diagnostic (file : String) (i : ParseIssue) : Diagnostic :=
  Diagnostic.of file i.pos i.raw (.issue i.error i.raw)

namespace Template

/-- Everything that is found in a template: the issues of reading it, then what the walk finds. -/
def analyze (t : Template) (o : Options) (c : Context) : Findings :=
  let issues : Findings := { diagnostics := t.issues.map (·.diagnostic c.file) }
  (issues ++ (c.walk.run o c.file t.nodes).2).sorted

end Template

def check (o : Options) (c : Context) (source : String) : Findings :=
  (Template.parse o.delimiters source).analyze o c

end TemplateLint
