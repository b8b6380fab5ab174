import TemplateLint.Analysis.Check

/-! Questions about a place in a source: what is under the cursor, and what could be typed there. -/
namespace TemplateLint
open Text

namespace Text

/-- Cuts the text after `n` bytes; `none` inside a character and past the end. -/
def splitBytes? : Nat → List Char → Option (List Char × List Char)
  | 0, cs => some ([], cs)
  | _ + 1, [] => none
  | n + 1, c :: cs =>
    if c.utf8Size ≤ n + 1 then
      (splitBytes? (n + 1 - c.utf8Size) cs).map fun parts => (c :: parts.1, parts.2)
    else none

def slice? (s : Span) (cs : List Char) : Option (List Char) := do
  if s.stop < s.start then none
  let (_, rest) ← splitBytes? s.start cs
  let (middle, _) ← splitBytes? (s.stop - s.start) rest
  return middle

def lastOffset? (pat : List Char) : List Char → Option Nat
  | [] => if pat = [] then some 0 else none
  | c :: cs =>
    match lastOffset? pat cs with
    | some n => some (c.utf8Size + n)
    | none => if (strip? pat (c :: cs)).isSome then some 0 else none

end Text

namespace Template

/-- The scope that the node at `index` sees; past the last node, the scope at the end. -/
def scopeAt (t : Template) (o : Options) (c : Context) (index : Nat) : ScopeStack :=
  let w := (c.walk.run o c.file (t.nodes.take index)).1
  match t.nodes[index]?.map Node.body with
  | some (.blockOpen b) => (if b.kind.isBranch then w.enterBranch else w).stack
  | _ => w.stack

end Template

structure Hover where
  text : String
  type : InferredType
  span : Span
deriving Repr

namespace Path

/-- The shortest beginning of the path whose text goes past `offset`. -/
def upTo (p : Path) (offset : Nat) : Path :=
  let least := if p.root = .dot ∧ p.segments ≠ [] then 1 else 0
  let cuts := (List.range (p.segments.length + 1)).drop least
  ((cuts.map p.take).find? fun q => offset < byteLength q.chars).getD p

end Path

def NodeBody.pipeline? : NodeBody → Option String
  | .action a => some a.expr
  | .blockOpen b => some b.expr
  | _ => none

def hover? (o : Options) (c : Context) (source : String) (offset : Nat) : Option Hover := do
  let template := Template.parse o.delimiters source
  let (index, node) ← template.nodeAt? offset
  let text ← node.body.pipeline?
  if trimmed text = "" then none
  let base := node.span.start + (← lastOffset? text.toList node.raw.toList)
  let expr ← (Expr.parse text).toOption
  if offset < base then none
  let target ← expr.at? (offset - base)
  let scope := template.scopeAt o c index
  let start := base + target.span.start
  match target.asPath? with
  | some p =>
    let p := p.upTo (offset - start)
    let ref ← (scope.resolve p).toOption
    return { text := p.toString, type := .ofNode (ref.type scope.root)
             span := ⟨start, start + byteLength p.chars⟩ }
  | none =>
    let type ← (target.infer scope.env o.funcs).toOption
    let part ← slice? target.span text.toList
    return { text := String.ofList part, type, span := ⟨start, base + target.span.stop⟩ }

def inferAt? (o : Options) (c : Context) (source : String) (offset : Nat) (text : String) :
    Option InferredType := do
  let template := Template.parse o.delimiters source
  let index := (template.nodes.findIdx? fun n => offset < n.span.stop).getD template.nodes.length
  let expr ← (Expr.parse text).toOption
  (expr.infer (template.scopeAt o c index).env o.funcs).toOption

inductive CompletionKind where
  | field
  | local_
  | function
deriving DecidableEq, Repr

structure Completion where
  label : String
  /-- Type of a field or variable, arity of a function. -/
  detail : String
  kind : CompletionKind
deriving DecidableEq, Repr

def isPathChar (c : Char) : Bool := isLetter c || isNumeral c || c == '_' || c == '.' || c == '$'

def typedPath (before : List Char) : List Char := (before.reverse.takeWhile isPathChar).reverse

def splitLastDot? (cs : List Char) : Option (List Char × List Char) :=
  match cs.reverse.dropWhile (· != '.') with
  | [] => none
  | _ :: base => some (base.reverse, (cs.reverse.takeWhile (· != '.')).reverse)

def completeField (s : ScopeStack) (base typed : List Char) : List Completion :=
  let path := if base = [] then some Path.dot else Path.ofChars? base
  match path.bind fun p => (s.resolve p).toOption with
  | none => []
  | some ref =>
    ((ref.type s.root).fields.filter fun f => typed.isPrefixOf f.name.toList).map fun f =>
      { label := f.name, detail := f.label, kind := .field }

def completeVariable (s : ScopeStack) (typed : List Char) : List Completion :=
  (s.visibleLocals.entries.filter fun (name, _) => typed.isPrefixOf name.toList).map
    fun (name, ref) =>
      { label := "$" ++ name, detail := (ref.type s.root).label, kind := .local_ }

def completeFunction (funcs : FuncTable) (typed : List Char) : List Completion :=
  (funcs.entries.filter fun (name, _) => typed.isPrefixOf name.toList).map fun (name, s) =>
    { label := name, detail := "arity " ++ s.arity.toString, kind := .function }

def complete (o : Options) (c : Context) (source : String) (offset : Nat) : List Completion :=
  let template := Template.parse o.delimiters source
  match splitBytes? offset source.toList, template.nodeAt? offset with
  | some (before, _), some (index, _) =>
    let scope := template.scopeAt o c index
    let typed := typedPath before
    match splitLastDot? typed, typed with
    | some (base, name), _ => completeField scope base name
    | none, '$' :: name => completeVariable scope name
    | none, name => completeFunction o.funcs name
  | _, _ => []

end TemplateLint
