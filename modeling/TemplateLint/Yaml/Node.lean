import TemplateLint.Yaml.Lexer

/-! Nodes: the tree that the tokens of a YAML document form. -/
namespace TemplateLint.Yaml

structure Props (ι : Type) where
  anchor : Option ι := none
  tag : Option TagText := none
deriving DecidableEq, Repr

inductive Node (ι : Type) where
  | reference (anchor : ι)
  | scalar (props : Props ι) (style : Style) (text : String)
  | sequence (props : Props ι) (items : List (Node ι))
  | mapping (props : Props ι) (entries : List (Node ι × Node ι))
deriving Repr, Inhabited

namespace Node

def empty {ι : Type} : Node ι := scalar {} .plain ""

end Node

abbrev Handles := List (String × TagText)

def tagText (text : String) : TagText := text.toList.map some

def defaultHandles : Handles := [("!", tagText "!"), ("!!", tagText "tag:yaml.org,2002:")]

def Handles.resolve? (handles : Handles) (handle : String) (suffix : TagText) : Option TagText :=
  if handle = "" then some suffix else (handles.lookup handle).map (· ++ suffix)

namespace Props

def read? (handles : Handles) : List Token → Option (Props String × List Token)
  | .anchor a :: .tag handle suffix :: ts | .tag handle suffix :: .anchor a :: ts =>
    (handles.resolve? handle suffix).map fun tag => (⟨some a, some tag⟩, ts)
  | .anchor a :: ts => some (⟨some a, none⟩, ts)
  | .tag handle suffix :: ts =>
    (handles.resolve? handle suffix).map fun tag => (⟨none, some tag⟩, ts)
  | ts => some ({}, ts)

end Props

namespace Node

def ahead (tokens : List Token) : List Token → Bool
  | [] => false
  | t :: _ => tokens.contains t

mutual

/-- Reads a node. `indentless` says that its entries may stand in the column of the key before
it. -/
def read? (handles : Handles) (block indentless : Bool) :
    Nat → List Token → Option (Node String × List Token)
  | 0, _ => none
  | _ + 1, .reference name :: ts => some (.reference name, ts)
  | fuel + 1, ts => do
    let (props, ts) ← Props.read? handles ts
    match ts with
    | .scalar style text :: ts => return (scalar props style text, ts)
    | .flowSequenceStart :: ts =>
      let (items, ts) ← flowItems? handles true fuel ts
      return (sequence props items, ts)
    | .flowMappingStart :: ts =>
      let (entries, ts) ← flowEntries? handles true fuel ts
      return (mapping props entries, ts)
    | ts =>
      if indentless && ahead [.blockEntry] ts then
        let (items, ts) ← indentlessItems? handles fuel ts
        return (sequence props items, ts)
      else if block && ahead [.blockSequenceStart] ts then
        let (items, ts) ← blockItems? handles fuel ts.tail
        return (sequence props items, ts)
      else if block && ahead [.blockMappingStart] ts then
        let (entries, ts) ← blockEntries? handles fuel ts.tail
        return (mapping props entries, ts)
      else if props ≠ {} then return (scalar props .plain "", ts)
      else none

def readUnless? (stop : List Token) (handles : Handles) (block indentless : Bool) :
    Nat → List Token → Option (Node String × List Token)
  | 0, _ => none
  | fuel + 1, ts =>
    if ahead stop ts then some (empty, ts) else read? handles block indentless fuel ts

def valueUnless? (stop : List Token) (handles : Handles) (block indentless : Bool) :
    Nat → List Token → Option (Node String × List Token)
  | 0, _ => none
  | fuel + 1, .value :: ts => readUnless? stop handles block indentless fuel ts
  | _ + 1, ts => some (empty, ts)

def blockItems? (handles : Handles) : Nat → List Token → Option (List (Node String) × List Token)
  | 0, _ => none
  | _ + 1, .blockEnd :: ts => some ([], ts)
  | fuel + 1, .blockEntry :: ts => do
    let (item, ts) ← readUnless? [.blockEntry, .blockEnd] handles true false fuel ts
    let (items, ts) ← blockItems? handles fuel ts
    return (item :: items, ts)
  | _, _ => none

def indentlessItems? (handles : Handles) :
    Nat → List Token → Option (List (Node String) × List Token)
  | 0, _ => none
  | fuel + 1, .blockEntry :: ts => do
    let (item, ts) ← readUnless? [.blockEntry, .key, .value, .blockEnd] handles true false fuel ts
    let (items, ts) ← indentlessItems? handles fuel ts
    return (item :: items, ts)
  | _ + 1, ts => some ([], ts)

def blockEntries? (handles : Handles) :
    Nat → List Token → Option (List (Node String × Node String) × List Token)
  | 0, _ => none
  | _ + 1, .blockEnd :: ts => some ([], ts)
  | fuel + 1, .key :: ts => do
    let (key, ts) ← readUnless? [.key, .value, .blockEnd] handles true true fuel ts
    let (value, ts) ← valueUnless? [.key, .value, .blockEnd] handles true true fuel ts
    let (entries, ts) ← blockEntries? handles fuel ts
    return ((key, value) :: entries, ts)
  | _, _ => none

/-- The entry of a flow sequence that is a mapping with one key. An indicator in the place of the
key is passed over. -/
def flowPair? (handles : Handles) : Nat → List Token → Option (Node String × List Token)
  | 0, _ => none
  | fuel + 1, ts => do
    let (key, ts) ←
      if ahead [.value, .flowEntry, .flowSequenceEnd] ts then some (empty, ts.tail)
      else read? handles false false fuel ts
    let (value, ts) ← valueUnless? [.flowEntry, .flowSequenceEnd] handles false false fuel ts
    return (mapping {} [(key, value)], ts)

def flowItems? (handles : Handles) (first : Bool) :
    Nat → List Token → Option (List (Node String) × List Token)
  | 0, _ => none
  | _ + 1, .flowSequenceEnd :: ts => some ([], ts)
  | fuel + 1, ts => do
    let ts ← if first then some ts else if ahead [.flowEntry] ts then some ts.tail else none
    match ts with
    | .flowSequenceEnd :: ts => return ([], ts)
    | .key :: ts =>
      let (item, ts) ← flowPair? handles fuel ts
      let (items, ts) ← flowItems? handles false fuel ts
      return (item :: items, ts)
    | ts =>
      let (item, ts) ← read? handles false false fuel ts
      let (items, ts) ← flowItems? handles false fuel ts
      return (item :: items, ts)

def flowEntries? (handles : Handles) (first : Bool) :
    Nat → List Token → Option (List (Node String × Node String) × List Token)
  | 0, _ => none
  | _ + 1, .flowMappingEnd :: ts => some ([], ts)
  | fuel + 1, ts => do
    let ts ← if first then some ts else if ahead [.flowEntry] ts then some ts.tail else none
    match ts with
    | .flowMappingEnd :: ts => return ([], ts)
    | .key :: ts =>
      let (key, ts) ← readUnless? [.value, .flowEntry, .flowMappingEnd] handles false false fuel ts
      let (value, ts) ← valueUnless? [.flowEntry, .flowMappingEnd] handles false false fuel ts
      let (entries, ts) ← flowEntries? handles false fuel ts
      return ((key, value) :: entries, ts)
    | ts =>
      let (key, ts) ← read? handles false false fuel ts
      let (entries, ts) ← flowEntries? handles false fuel ts
      return ((key, empty) :: entries, ts)

end

/-- The directives before a document: one version at most, which has to be a known one, and each
handle once. -/
def directives? : Bool → Handles → List Token → Option (Handles × List Token)
  | versioned, handles, .version major minor :: ts =>
    if versioned ∨ major ≠ 1 ∨ (minor ≠ 1 ∧ minor ≠ 2) then none
    else directives? true handles ts
  | versioned, handles, .tagHandle handle stem :: ts =>
    if (handles.lookup handle).isSome then none
    else directives? versioned (handles ++ [(handle, stem)]) ts
  | _, handles, ts => some (handles ++ defaultHandles, ts)

def explicit? (ts : List Token) : Option (Handles × List Token) := do
  match ← directives? false [] ts with
  | (handles, .documentStart :: ts) => return (handles, ts)
  | _ => none

/-- Reads the one document of a stream: `none` if it is malformed or not the only one, and
`some none` if there is nothing in the stream. Each token is passed in at most three steps. -/
def ofTokens? (ts : List Token) : Option (Option (Node String)) := do
  let fuel := 3 * ts.length + 3
  let (node, ts) ← match ts with
    | [] => return none
    | .version .. :: _ | .tagHandle .. :: _ | .documentStart :: _ => do
      let (handles, ts) ← explicit? ts
      match ts with
      | [] | .version .. :: _ | .tagHandle .. :: _ | .documentStart :: _ | .documentEnd :: _ =>
        pure (empty, ts)
      | ts => read? handles true false fuel ts
    | ts => read? defaultHandles true false fuel ts
  if ts.all (· == .documentEnd) then some node else none

def parse? (text : String) : Option (Option (Node String)) := do
  ofTokens? (← Token.scan? text.toList)

end Node
end TemplateLint.Yaml
