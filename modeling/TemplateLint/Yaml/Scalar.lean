import TemplateLint.Yaml.Token

/-! Scalars of a YAML stream: what their texts are, line folding and escapes included. A reader
takes the text after the indicator and gives back what it left. The only line breaks are line feed,
line separator and paragraph separator; see `unifyBreaks`. -/
namespace TemplateLint.Yaml

def unifyBreaks : List Char → List Char
  | [] => []
  | '\r' :: '\n' :: cs => '\n' :: unifyBreaks cs
  | c :: cs => (if c = '\r' ∨ c = '\x85' then '\n' else c) :: unifyBreaks cs

def isAllowed (c : Char) : Bool :=
  c == '\t' || c == '\n' || c == '\r' || c == '\x85' ||
    (0x20 ≤ c.toNat && c.toNat ≤ 0x7e) || (0xa0 ≤ c.toNat && c.toNat ≠ 0xfffe && c.toNat ≠ 0xffff)

def isBreak (c : Char) : Bool := c == '\n' || c == '\u2028' || c == '\u2029'

def isPad (c : Char) : Bool := c == ' ' || c == '\t'

def isGap (c : Char) : Bool := isPad c || isBreak c

def atGap : List Char → Bool
  | [] => true
  | c :: _ => isGap c

def atBreak : List Char → Bool
  | [] => true
  | c :: _ => isBreak c

def atDivider : List Char → Bool
  | '-' :: '-' :: '-' :: cs => atGap cs
  | '.' :: '.' :: '.' :: cs => atGap cs
  | _ => false

structure Gap where
  pad : List Char := []
  breaks : List Char := []
  indent : Nat := 0
deriving Repr

namespace Gap

def isFold (g : Gap) : Bool := g.breaks ≠ []

/-- A single line feed becomes a space, and of several the first is dropped. Without a line break
the padding stays. -/
def text (g : Gap) : List Char :=
  match g.breaks with
  | [] => g.pad
  | ['\n'] => [' ']
  | '\n' :: more => more
  | breaks => breaks

/-- The lines of a gap after its first break. A tab to the left of column `least` is refused. -/
def lines? (least : Nat) (g : Gap) : List Char → Option (Gap × List Char)
  | [] => some (g, [])
  | c :: cs =>
    if isBreak c then lines? least { g with breaks := g.breaks ++ [c], indent := 0 } cs
    else if isPad c then
      if c = '\t' ∧ g.indent < least then none
      else lines? least { g with indent := g.indent + 1 } cs
    else some (g, c :: cs)

def read? (least : Nat) (cs : List Char) : Option (Gap × List Char) :=
  let g : Gap := { pad := cs.takeWhile isPad }
  match cs.dropWhile isPad with
  | [] => some (g, [])
  | c :: rest => if isBreak c then lines? least g (c :: rest) else some (g, c :: rest)

end Gap

/-! ### Plain scalars -/

def isFlowIndicator (c : Char) : Bool := [',', '[', ']', '{', '}'].contains c

/-- One word of a plain scalar. A colon ends it before a gap, and a flow indicator inside flow
collections, where a colon right before an indicator is refused. -/
def plainWord? (inFlow : Bool) : List Char → Option (List Char × List Char)
  | [] => some ([], [])
  | c :: cs =>
    if isGap c then some ([], c :: cs)
    else if inFlow && c == ':' && cs.head?.any (fun d => isFlowIndicator d || d == '?') then none
    else if (c == ':' && atGap cs) || (inFlow && isFlowIndicator c) then some ([], c :: cs)
    else (plainWord? inFlow cs).map fun (word, rest) => (c :: word, rest)

structure Plain where
  text : List Char
  ended : Bool
  rest : List Char

def plainFrom? (inFlow : Bool) (least : Nat) (text : List Char) (gap : Gap) (lineStart : Bool)
    (cs : List Char) : Option Plain :=
  let done (gap : Gap) (text rest : List Char) : Option Plain := some ⟨text, gap.isFold, rest⟩
  if (lineStart && atDivider cs) || cs.head? = some '#' then done gap text cs else
  match plainWord? inFlow cs with
  | none => none
  | some ([], rest) => done gap text rest
  | some (word, rest) =>
    let text := text ++ gap.text ++ word
    if !rest.head?.any isGap then done {} text rest else
    match Gap.read? least rest with
    | none => none
    | some (gap, rest) =>
      if gap.isFold && !inFlow && gap.indent < least then done gap text rest
      else if rest.length < cs.length then
        plainFrom? inFlow least text gap (gap.isFold && gap.indent == 0) rest
      else none
termination_by cs.length

/-- Reads a plain scalar. `least` is the column that its further lines have to reach outside flow
collections. -/
def plain? (inFlow : Bool) (least : Nat) (cs : List Char) : Option Plain :=
  plainFrom? inFlow least [] {} false cs

/-! ### Quoted scalars -/

def hexDigit? (c : Char) : Option Nat :=
  if c.isDigit then some (c.toNat - '0'.toNat)
  else if 'a' ≤ c ∧ c ≤ 'f' then some (c.toNat - 'a'.toNat + 10)
  else if 'A' ≤ c ∧ c ≤ 'F' then some (c.toNat - 'A'.toNat + 10)
  else none

def hexNumber? : Nat → Nat → List Char → Option (Nat × List Char)
  | 0, n, cs => some (n, cs)
  | _ + 1, _, [] => none
  | k + 1, n, c :: cs => (hexDigit? c).bind fun d => hexNumber? k (n * 16 + d) cs

def charOf? (n : Nat) : Option Char := if n.isValidChar then some (Char.ofNat n) else none

def codeLength? : Char → Option Nat
  | 'x' => some 2
  | 'u' => some 4
  | 'U' => some 8
  | _ => none

def escapes : List (Char × Char) :=
  [('0', '\x00'), ('a', '\x07'), ('b', '\x08'), ('t', '\t'), ('\t', '\t'), ('n', '\n'),
    ('v', '\x0b'), ('f', '\x0c'), ('r', '\r'), ('e', '\x1b'), (' ', ' '), ('"', '"'), ('/', '/'),
    ('\\', '\\'), ('N', '\x85'), ('_', '\xa0'), ('L', '\u2028'), ('P', '\u2029')]

def escape? : List Char → Option (Char × List Char)
  | [] => none
  | c :: cs =>
    match codeLength? c with
    | some k => do
      let (n, rest) ← hexNumber? k 0 cs
      return (← charOf? n, rest)
    | none => (escapes.lookup c).map (·, cs)

inductive WordEnd where
  | quote
  | gap
  | joined
deriving DecidableEq, Repr

def quotedWord? (double : Bool) (word : List Char) (cs : List Char) :
    Option (List Char × WordEnd × List Char) :=
  match cs with
  | [] => none
  | '\'' :: '\'' :: rest =>
    if double then quotedWord? double (word ++ ['\'']) ('\'' :: rest)
    else quotedWord? double (word ++ ['\'']) rest
  | '\\' :: rest =>
    if !double then quotedWord? double (word ++ ['\\']) rest
    else if rest.head?.any isBreak then some (word, .joined, rest.tail)
    else
      match escape? rest with
      | none => none
      | some (c, after) =>
        if after.length < rest.length then quotedWord? double (word ++ [c]) after else none
  | c :: rest =>
    if isGap c then some (word, .gap, cs)
    else if c = (if double then '"' else '\'') then some (word, .quote, rest)
    else quotedWord? double (word ++ [c]) rest
termination_by cs.length
decreasing_by all_goals simp_all <;> omega

/-- Goes on with a quoted scalar. No line of it may divide documents. -/
def quotedFrom? (double : Bool) (text : List Char) (lineStart : Bool) (cs : List Char) :
    Option (List Char × List Char) :=
  if lineStart && atDivider cs then none else
  match quotedWord? double [] cs with
  | none => none
  | some (word, .quote, rest) => some (text ++ word, rest)
  | some (word, ending, rest) =>
    let gap? := if ending = .joined then Gap.lines? 0 {} rest else Gap.read? 0 rest
    match gap? with
    | none => none
    | some (gap, rest) =>
      let between := if ending = .joined then gap.breaks else gap.text
      let lineStart := (ending = .joined || gap.isFold) && gap.indent == 0
      if rest.length < cs.length then quotedFrom? double (text ++ word ++ between) lineStart rest
      else none
termination_by cs.length

def quoted? (double : Bool) (cs : List Char) : Option (List Char × List Char) :=
  quotedFrom? double [] false cs

/-! ### Block scalars -/

inductive Chomping where
  | strip
  | clip
  | keep
deriving DecidableEq, Repr

structure BlockHeader where
  chomping : Chomping := .clip
  /-- How much deeper than its surroundings the text is indented; zero if the first line says. -/
  deeper : Nat := 0
deriving DecidableEq, Repr

namespace BlockHeader

def chomping? : List Char → Option (Chomping × List Char)
  | '+' :: cs => some (.keep, cs)
  | '-' :: cs => some (.strip, cs)
  | _ => none

def digit? : List Char → Option (Nat × List Char)
  | c :: cs => if c.isDigit then some (c.toNat - '0'.toNat, cs) else none
  | [] => none

def indicators (cs : List Char) : BlockHeader × List Char :=
  match chomping? cs with
  | some (chomping, cs) =>
    match digit? cs with
    | some (deeper, cs) => (⟨chomping, deeper⟩, cs)
    | none => (⟨chomping, 0⟩, cs)
  | none =>
    match digit? cs with
    | some (deeper, cs) =>
      match chomping? cs with
      | some (chomping, cs) => (⟨chomping, deeper⟩, cs)
      | none => (⟨.clip, deeper⟩, cs)
    | none => ({}, cs)

/-- Reads the rest of the line of the indicator. A deepening by zero is refused. -/
def read? (cs : List Char) : Option (BlockHeader × List Char) :=
  let (header, rest) := indicators cs
  let zero := match chomping? cs with
    | some (_, cs) => (digit? cs).any (·.1 == 0)
    | none => (digit? cs).any (·.1 == 0)
  let rest := rest.dropWhile isPad
  let rest := if rest.head? = some '#' then rest.dropWhile (!isBreak ·) else rest
  if zero || !atBreak rest then none else some (header, rest.tail)

end BlockHeader

structure BlockGap where
  breaks : List Char := []
  column : Nat := 0
  deepest : Nat := 0
  rest : List Char := []

/-- Passes over empty lines and the indentation of the next. Up to the indentation, or anywhere if
it is still zero, a tab is refused. -/
def blockGap? (indent : Nat) (g : BlockGap) : List Char → Option BlockGap
  | [] => some { g with deepest := max g.deepest g.column, rest := [] }
  | c :: cs =>
    let inside := indent = 0 ∨ g.column < indent
    if inside ∧ c = ' ' then blockGap? indent { g with column := g.column + 1 } cs
    else if inside ∧ c = '\t' then none
    else
      let g := { g with deepest := max g.deepest g.column }
      if isBreak c then blockGap? indent { g with breaks := g.breaks ++ [c], column := 0 } cs
      else some { g with rest := c :: cs }

structure BlockText where
  text : List Char := []
  ending : List Char := []
  trailing : List Char := []
  /-- The last line begins with padding, so that it is not folded. -/
  padded : Bool := false

namespace BlockText

/-- Adds a line: a folded scalar joins it to the line before by a space, unless one of both begins
with padding or empty lines lie between. -/
def addLine (folded : Bool) (b : BlockText) (line : List Char) : List Char :=
  let padded := line.head?.any isPad
  let joint :=
    if folded ∧ b.ending = ['\n'] ∧ !b.padded ∧ !padded then
      if b.trailing = [] then [' '] else []
    else b.ending
  b.text ++ joint ++ b.trailing ++ line

def chomp (b : BlockText) : Chomping → List Char
  | .strip => b.text
  | .clip => b.text ++ b.ending
  | .keep => b.text ++ b.ending ++ b.trailing

end BlockText

def blockLines? (folded : Bool) (indent : Nat) (b : BlockText) (column : Nat) (cs : List Char) :
    Option (BlockText × List Char) :=
  if column ≠ indent ∨ cs = [] then some (b, cs) else
  let line := cs.takeWhile (!isBreak ·)
  let after := cs.dropWhile (!isBreak ·)
  match blockGap? indent {} after.tail with
  | none => none
  | some g =>
    let next : BlockText :=
      { text := b.addLine folded line, ending := after.take 1, trailing := g.breaks
        padded := line.head?.any isPad }
    if g.rest.length < cs.length then blockLines? folded indent next g.column g.rest else none
termination_by cs.length

def block? (folded : Bool) (parent : Option Nat) (cs : List Char) :
    Option (List Char × List Char) := do
  let (header, cs) ← BlockHeader.read? cs
  let given := if header.deeper = 0 then 0 else parent.getD 0 + header.deeper
  let g ← blockGap? given {} cs
  let indent := if given = 0 then max (max g.deepest (parent.elim 0 (· + 1))) 1 else given
  let (b, rest) ← blockLines? folded indent { trailing := g.breaks } g.column g.rest
  return (b.chomp header.chomping, rest)

end TemplateLint.Yaml
