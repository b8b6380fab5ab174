import TemplateLint.Path.Parser
import TemplateLint.Template.NameLiteral
import TemplateLint.Template.Node

/-! Reading a template. Reading never fails: every problem is an issue beside the node it concerns.

A node is read in two steps. The first looks at its text alone; the second pairs constructs with
their branches and their `end`, by nesting. -/
namespace TemplateLint
open Text

def splitWord (cs : List Char) : List Char × List Char :=
  (cs.takeWhile isNameChar, trim (cs.dropWhile isNameChar))

/-- Text without any number of copies of `pat` at its front; the fuel is the text's length. -/
def dropCopies (pat : List Char) : Nat → List Char → List Char
  | 0, cs => cs
  | fuel + 1, cs =>
    match strip? pat cs with
    | some rest => dropCopies pat fuel rest
    | none => cs

def commentText (inner : List Char) : List Char :=
  let cs := trim inner
  let cs := dropCopies ['/', '*'] cs.length cs
  let cs := (dropCopies ['/', '*'] cs.length cs.reverse).reverse
  trim cs

namespace BlockOpen

def withPipeline (block : BlockOpen) (cs : List Char) : BlockOpen × List ParseError :=
  let (decl, expr) := Declaration.split cs
  ({ block with decl, expr := String.ofList expr, path := Path.ofChars? expr },
    if expr = [] then [.missingPipeline block.kind.keyword] else [])

def readConstruct (kind : BlockKind) (rest : List Char) : BlockOpen × List ParseError :=
  withPipeline { kind, args := String.ofList rest } rest

/-- Reads the name after `define`, `block` or `template`, and the pipeline of the latter two. -/
def readNamed (kind : BlockKind) (rest : List Char) : BlockOpen × List ParseError :=
  let block : BlockOpen := { kind, args := String.ofList rest }
  match NameLiteral.read? rest with
  | none => (block, [.missingTemplateName kind.keyword])
  | some (name, tail) =>
    let tail := trim tail
    let block := { block with name := some (String.ofList name) }
    if kind = .define then
      (block, if tail = [] then [] else [.trailingTokens kind.keyword])
    else ({ block with path := Path.ofChars? tail, expr := String.ofList tail }, [])

def readElse (rest : List Char) : BlockOpen × List ParseError :=
  let (word, tail) := splitWord rest
  let args := String.ofList rest
  if word = ['i', 'f'] then withPipeline { kind := .elseIf, args } tail
  else ({ kind := .else_, args }, if rest = [] then [] else [.unsupportedElse args])

end BlockOpen

namespace NodeBody

def trailing (keyword : String) (rest : List Char) : List ParseError :=
  if rest = [] then [] else [.trailingTokens keyword]

def readAction (parts : ActionText) (inner : List Char) : NodeBody × List ParseError :=
  let (word, rest) := splitWord inner
  let opened (read : BlockOpen × List ParseError) : NodeBody × List ParseError :=
    (blockOpen read.1, read.2)
  match String.ofList word with
  | "if" => opened (BlockOpen.readConstruct .if_ rest)
  | "range" => opened (BlockOpen.readConstruct .range rest)
  | "with" => opened (BlockOpen.readConstruct .with_ rest)
  | "define" => opened (BlockOpen.readNamed .define rest)
  | "block" => opened (BlockOpen.readNamed .block rest)
  | "template" => opened (BlockOpen.readNamed .template rest)
  | "else" => opened (BlockOpen.readElse rest)
  | "end" => (blockClose none, trailing "end" rest)
  | "break" => (loopControl .break_, trailing "break" rest)
  | "continue" => (loopControl .continue_, trailing "continue" rest)
  | _ =>
    let (decl, expr) := Declaration.split inner
    (action {
      expr := String.ofList expr
      decl
      path := Path.ofChars? expr
      trimLeft := parts.trimLeft
      trimRight := parts.trimRight },
      if decl.isSome ∧ expr = [] then [.missingPipeline ":="] else [])

/-- Reads a piece on its own, with its issues; what pairs it with other nodes is still missing. -/
def read : Piece → NodeBody × List ParseError
  | .text _ => (text, [])
  | .malformed fault _ => (malformed (.fault fault), [.fault fault])
  | .action parts =>
    let inner := trim parts.inner
    if parts.comment then (comment (String.ofList (commentText parts.inner)), [])
    else if inner = [] then (malformed .emptyAction, [.emptyAction])
    else readAction parts inner

end NodeBody

structure OpenConstruct where
  node : Nat
  kind : BlockKind
  elseSeen : Bool := false
deriving DecidableEq, Repr

namespace OpenConstruct

/-- Pairs the node at `index` with the constructs open before it, innermost first. Gives the node,
the issues that the pairing adds, and the constructs open after it. -/
def step (index : Nat) (body : NodeBody) (constructs : List OpenConstruct) :
    NodeBody × List ParseError × List OpenConstruct :=
  match body with
  | .blockOpen block =>
    if block.kind.hasBody then (body, [], { node := index, kind := block.kind } :: constructs)
    else if block.kind.isBranch then
      match constructs with
      | top :: outer =>
        if top.kind.acceptsElse then
          (.blockOpen { block with group := some top.node },
            if top.elseSeen then [.duplicateElse] else [],
            { top with elseSeen := top.elseSeen || block.kind = .else_ } :: outer)
        else (body, [.unexpectedElse block.kind.keyword], constructs)
      | [] => (body, [.unexpectedElse block.kind.keyword], [])
    else (body, [], constructs)
  | .blockClose _ =>
    match constructs with
    | top :: outer => (.blockClose (some top.node), [], outer)
    | [] => (body, [.unexpectedEnd], [])
  | _ => (body, [], constructs)

def pair (index : Nat) (constructs : List OpenConstruct) :
    List (NodeBody × List ParseError) →
      List (NodeBody × List ParseError) × List OpenConstruct
  | [] => ([], constructs)
  | (body, errors) :: rest =>
    let (body, more, constructs) := step index body constructs
    let (nodes, left) := pair (index + 1) constructs rest
    ((body, errors ++ more) :: nodes, left)

end OpenConstruct

namespace NodeBody

def withClose (bodies : List NodeBody) (index : Nat) : NodeBody → NodeBody
  | blockOpen block =>
    blockOpen { block with close := bodies.findIdx? fun b => b = blockClose (some index) }
  | body => body

end NodeBody

def Piece.spans (start : Nat) : List Piece → List Span
  | [] => []
  | p :: ps =>
    let stop := start + byteLength p.raw
    ⟨start, stop⟩ :: Piece.spans stop ps

namespace Template

def node (source : List Char) (piece : Piece) (span : Span) (body : NodeBody) : Node :=
  { raw := String.ofList piece.raw, span, pos := .ofOffset source span.start, body }

def issue (n : Node) (error : ParseError) : ParseIssue :=
  { error, raw := n.raw, span := n.span, pos := n.pos }

def ofPieces (source : List Char) (pieces : List Piece) : Template :=
  let (paired, unclosed) := OpenConstruct.pair 0 [] (pieces.map NodeBody.read)
  let bodies := paired.map Prod.fst
  let bodies := bodies.zipIdx.map fun (b, i) => b.withClose bodies i
  let nodes := List.zipWith (fun (p, s) b => node source p s b)
    (pieces.zip (Piece.spans 0 pieces)) bodies
  { nodes
    issues :=
      (nodes.zip paired).flatMap (fun (n, _, errors) => errors.map (issue n)) ++
      unclosed.reverse.filterMap fun c =>
        nodes[c.node]?.map fun n => issue n (.unclosedBlock c.kind.keyword) }

def parse (delimiters : Delimiters) (source : String) : Template :=
  ofPieces source.toList
    (Piece.scan delimiters.left.toList delimiters.right.toList source.toList)

end Template
end TemplateLint
