import TemplateLint.Template.Parser

/-! How constructs are paired with their branches and their ends. Which constructs are open at a
node can be read off the finished nodes alone; each node then does one of a few things to them. -/
namespace TemplateLint

namespace BlockKind

theorem hasBody_eq_false_of_isBranch {kind : BlockKind} (h : kind.isBranch = true) :
    kind.hasBody = false := by
  cases kind <;> first | rfl | cases h

theorem isBranch_eq_false_of_hasBody {kind : BlockKind} (h : kind.hasBody = true) :
    kind.isBranch = false := by
  cases kind <;> first | rfl | cases h

end BlockKind

namespace NodeBody

def isPlain : NodeBody → Bool
  | blockOpen _ | blockClose _ => false
  | text | comment _ | action _ | loopControl _ | malformed _ => true

def group? : NodeBody → Option Nat
  | blockOpen b => b.group
  | _ => none

end NodeBody

namespace Template

def body? (t : Template) (index : Nat) : Option NodeBody := t.nodes[index]?.map Node.body

def block? (t : Template) (index : Nat) : Option BlockOpen :=
  match t.body? index with
  | some (.blockOpen b) => some b
  | _ => none

def staysOpen (t : Template) (index opener : Nat) : Bool :=
  (t.block? opener).any fun b => b.kind.hasBody && b.close.all (index ≤ ·)

/-- The openings before the node at `index` whose ends come later or not at all, innermost first. -/
def openBefore (t : Template) (index : Nat) : List Nat :=
  (List.range index).reverse.filter (t.staysOpen index)

/-- What the node at `index` does to the constructs that are open before it. -/
inductive Turn (t : Template) (index : Nat) : NodeBody → List Nat → List Nat → Prop where
  | opens {b : BlockOpen} {opened : List Nat} (body : b.kind.hasBody = true)
      (ungrouped : b.group = none) : Turn t index (.blockOpen b) opened (index :: opened)
  | branch {b top : BlockOpen} {c : Nat} {opened : List Nat} (isBranch : b.kind.isBranch = true)
      (group : b.group = some c) (opener : t.block? c = some top)
      (accepts : top.kind.acceptsElse = true) :
      Turn t index (.blockOpen b) (c :: opened) (c :: opened)
  | strayBranch {b : BlockOpen} {opened : List Nat} (isBranch : b.kind.isBranch = true)
      (ungrouped : b.group = none)
      (refused : ∀ c ∈ opened.head?, ∀ top, t.block? c = some top → top.kind.acceptsElse = false) :
      Turn t index (.blockOpen b) opened opened
  | call {b : BlockOpen} {opened : List Nat} (kind : b.kind = .template)
      (ungrouped : b.group = none) : Turn t index (.blockOpen b) opened opened
  | closes {c : Nat} {opened : List Nat} : Turn t index (.blockClose (some c)) (c :: opened) opened
  | strayEnd : Turn t index (.blockClose none) [] []
  | plain {body : NodeBody} {opened : List Nat} (isPlain : body.isPlain = true) :
      Turn t index body opened opened

theorem block?_eq_some_iff {t : Template} {index : Nat} {b : BlockOpen} :
    t.block? index = some b ↔ t.body? index = some (.blockOpen b) := by
  unfold block?
  split
  · next b' h => simp [h]
  · next h =>
    simp only [reduceCtorEq, false_iff]
    exact h b

theorem mem_openBefore {t : Template} {index opener : Nat} :
    opener ∈ t.openBefore index ↔ opener < index ∧
      ∃ b, t.block? opener = some b ∧ b.kind.hasBody = true ∧
        ∀ j, b.close = some j → index ≤ j := by
  simp only [openBefore, List.mem_filter, List.mem_reverse, List.mem_range, staysOpen,
    Option.any_eq_true, Bool.and_eq_true, Option.all_eq_true, decide_eq_true_eq]

theorem lt_of_mem_openBefore {t : Template} {index opener : Nat}
    (h : opener ∈ t.openBefore index) : opener < index :=
  (mem_openBefore.1 h).1

theorem mem_openBefore_of_le {t : Template} {index earlier opener : Nat}
    (h : opener ∈ t.openBefore index) (hlt : opener < earlier) (hle : earlier ≤ index) :
    opener ∈ t.openBefore earlier := by
  obtain ⟨-, b, hb, hbody, hclose⟩ := mem_openBefore.1 h
  refine mem_openBefore.2 ⟨hlt, b, hb, hbody, ?_⟩
  intro j hj
  have := hclose j hj
  omega

theorem pairwise_openBefore (t : Template) (index : Nat) :
    (t.openBefore index).Pairwise (· > ·) := by
  apply List.Pairwise.filter
  rw [List.pairwise_reverse]
  exact List.pairwise_lt_range

end Template

namespace OpenConstruct

@[simp] theorem length_pair (index : Nat) (cs : List OpenConstruct)
    (items : List (NodeBody × List ParseError)) :
    (pair index cs items).1.length = items.length := by
  induction items generalizing index cs with
  | nil => rfl
  | cons item items ih =>
    obtain ⟨body, errors⟩ := item
    simp [pair, ih]

theorem pair_append (index : Nat) (cs : List OpenConstruct)
    (xs ys : List (NodeBody × List ParseError)) :
    pair index cs (xs ++ ys) =
      ((pair index cs xs).1 ++ (pair (index + xs.length) (pair index cs xs).2 ys).1,
        (pair (index + xs.length) (pair index cs xs).2 ys).2) := by
  induction xs generalizing index cs with
  | nil => simp [pair]
  | cons x xs ih =>
    obtain ⟨body, errors⟩ := x
    have harith : index + 1 + xs.length = index + (xs.length + 1) := by omega
    simp only [List.cons_append, pair, ih, List.length_cons, harith]

def after (items : List (NodeBody × List ParseError)) (index : Nat) : List OpenConstruct :=
  (pair 0 [] (items.take index)).2

variable {items : List (NodeBody × List ParseError)} {index : Nat} {body : NodeBody}
  {errors : List ParseError}

theorem after_succ (h : items[index]? = some (body, errors)) :
    after items (index + 1) = (step index body (after items index)).2.2 := by
  obtain ⟨hlt, hget⟩ := List.getElem?_eq_some_iff.1 h
  have hlen : (items.take index).length = index := by
    rw [List.length_take]
    omega
  unfold after
  rw [List.take_succ_eq_append_getElem hlt, hget, pair_append, hlen, Nat.zero_add]
  rfl

theorem getElem?_pair (h : items[index]? = some (body, errors)) :
    (pair 0 [] items).1[index]? =
      some ((step index body (after items index)).1,
        errors ++ (step index body (after items index)).2.1) := by
  obtain ⟨hlt, hget⟩ := List.getElem?_eq_some_iff.1 h
  have hlen : (items.take index).length = index := by
    rw [List.length_take]
    omega
  have hsplit : items = items.take index ++ (body, errors) :: items.drop (index + 1) := by
    rw [← hget, ← List.drop_eq_getElem_cons hlt, List.take_append_drop]
  have hpair : (pair 0 [] items).1 = (pair 0 [] (items.take index)).1 ++
      (pair index (after items index) ((body, errors) :: items.drop (index + 1))).1 := by
    conv => lhs; rw [hsplit]
    rw [pair_append, hlen, Nat.zero_add]
    rfl
  rw [hpair, List.getElem?_append_right (by simp [hlen])]
  simp [pair, hlen]

end OpenConstruct

def Piece.isText : Piece → Bool
  | text _ => true
  | action _ | malformed _ _ => false

theorem Piece.length_spans (start : Nat) (ps : List Piece) :
    (Piece.spans start ps).length = ps.length := by
  induction ps generalizing start with
  | nil => rfl
  | cons p ps ih => simp [Piece.spans, ih]

namespace Template

/-- The bodies of the nodes before the openings are told their ends. -/
def unclosedBodies (pieces : List Piece) : List NodeBody :=
  (OpenConstruct.pair 0 [] (pieces.map NodeBody.read)).1.map Prod.fst

theorem length_unclosedBodies (pieces : List Piece) :
    (unclosedBodies pieces).length = pieces.length := by
  simp [unclosedBodies]

theorem nodes_ofPieces (source : List Char) (pieces : List Piece) :
    (ofPieces source pieces).nodes =
      ((pieces.zip (Piece.spans 0 pieces)).zip
        ((unclosedBodies pieces).zipIdx.map fun x => x.1.withClose (unclosedBodies pieces) x.2)).map
          fun x => node source x.1.1 x.1.2 x.2 := by
  change List.zipWith (fun (x : Piece × Span) b => node source x.1 x.2 b) _ _ = _
  rw [← List.map_uncurry_zip_eq_zipWith]
  rfl

theorem map_place_nodes (source : List Char) (pieces : List Piece) :
    (ofPieces source pieces).nodes.map (fun n => (n.raw, n.span)) =
      (pieces.zip (Piece.spans 0 pieces)).map fun x => (String.ofList x.1.raw, x.2) := by
  have hplaces : ((pieces.zip (Piece.spans 0 pieces)).zip ((unclosedBodies pieces).zipIdx.map
      fun x => x.1.withClose (unclosedBodies pieces) x.2)).map Prod.fst =
        pieces.zip (Piece.spans 0 pieces) :=
    List.map_fst_zip (by simp [Piece.length_spans, length_unclosedBodies])
  rw [nodes_ofPieces, List.map_map]
  conv => rhs; rw [← hplaces, List.map_map]
  rfl

theorem body?_ofPieces (source : List Char) (pieces : List Piece) (index : Nat) :
    (ofPieces source pieces).body? index =
      (unclosedBodies pieces)[index]?.map (NodeBody.withClose (unclosedBodies pieces) index) := by
  have hbodies : (ofPieces source pieces).nodes.map Node.body =
      (unclosedBodies pieces).zipIdx.map fun x => x.1.withClose (unclosedBodies pieces) x.2 := by
    rw [nodes_ofPieces, List.map_map]
    exact List.map_snd_zip (by simp [Piece.length_spans, length_unclosedBodies])
  rw [body?, ← List.getElem?_map, hbodies, List.getElem?_map, List.getElem?_zipIdx, Option.map_map,
    Nat.zero_add]
  rfl

end Template

namespace NodeBody

def Unpaired : NodeBody → Prop
  | blockOpen b => b.group = none
  | blockClose opener => opener = none
  | _ => True

theorem unpaired_readAction (parts : ActionText) (inner : List Char) :
    (readAction parts inner).1.Unpaired := by
  have hnamed (kind : BlockKind) (rest : List Char) :
      (BlockOpen.readNamed kind rest).1.group = none := by
    unfold BlockOpen.readNamed
    split
    · rfl
    · dsimp only
      split <;> rfl
  have helse (rest : List Char) : (BlockOpen.readElse rest).1.group = none := by
    unfold BlockOpen.readElse
    dsimp only
    split <;> rfl
  unfold readAction
  dsimp only
  split
  case h_1 | h_2 | h_3 => rfl
  case h_4 | h_5 | h_6 => exact hnamed _ _
  case h_7 => exact helse _
  case h_8 => rfl
  case h_9 | h_10 | h_11 => exact trivial

theorem unpaired_read (p : Piece) : (read p).1.Unpaired := by
  cases p with
  | text cs => exact trivial
  | malformed fault cs => exact trivial
  | action parts =>
    unfold read
    dsimp only
    split
    · exact trivial
    · split
      · exact trivial
      · exact unpaired_readAction parts _

theorem read_eq_text_iff {p : Piece} : (read p).1 = .text ↔ p.isText = true := by
  cases p with
  | text cs => exact ⟨fun _ => rfl, fun _ => rfl⟩
  | malformed fault cs =>
    constructor
    · intro h
      cases h
    · intro h
      cases h
  | action parts =>
    constructor
    · intro h
      unfold read readAction at h
      dsimp only at h
      repeat' split at h
      all_goals cases h
    · intro h
      cases h

theorem step_eq_or (index : Nat) (body : NodeBody) (cs : List OpenConstruct)
    (bodies : List NodeBody) :
    (OpenConstruct.step index body cs).1.withClose bodies index = body ∨
      ((OpenConstruct.step index body cs).1.withClose bodies index).isPlain = false ∧
        body.isPlain = false := by
  cases body with
  | text | comment _ | action _ | loopControl _ | malformed _ => exact .inl rfl
  | blockClose opener =>
    unfold OpenConstruct.step
    dsimp only
    split <;> exact .inr ⟨rfl, rfl⟩
  | blockOpen b =>
    unfold OpenConstruct.step
    dsimp only
    repeat' split
    all_goals exact .inr ⟨rfl, rfl⟩

end NodeBody

namespace Template

def Lists (t : Template) (c : OpenConstruct) : Prop :=
  ∃ b, t.block? c.node = some b ∧ b.kind = c.kind

section

variable {t : Template} {index : Nat} {bodies : List NodeBody} {cs : List OpenConstruct}
  {block : BlockOpen}

theorem turn_step_opens (hgroup : block.group = none) (hbody : block.kind.hasBody = true)
    (hcs : ∀ c ∈ cs, t.Lists c)
    (hindex : t.body? index = some ((NodeBody.blockOpen block).withClose bodies index)) :
    Turn t index ((OpenConstruct.step index (.blockOpen block) cs).1.withClose bodies index)
        (cs.map OpenConstruct.node)
        ((OpenConstruct.step index (.blockOpen block) cs).2.2.map OpenConstruct.node) ∧
      ∀ c ∈ (OpenConstruct.step index (.blockOpen block) cs).2.2, t.Lists c := by
  unfold OpenConstruct.step
  dsimp only
  rw [if_pos hbody]
  refine ⟨.opens hbody hgroup, ?_⟩
  intro c hc
  rcases List.mem_cons.1 hc with rfl | hc
  · exact ⟨_, block?_eq_some_iff.2 hindex, rfl⟩
  · exact hcs c hc

theorem turn_step_branch (hgroup : block.group = none) (hbranch : block.kind.isBranch = true)
    (hcs : ∀ c ∈ cs, t.Lists c) :
    Turn t index ((OpenConstruct.step index (.blockOpen block) cs).1.withClose bodies index)
        (cs.map OpenConstruct.node)
        ((OpenConstruct.step index (.blockOpen block) cs).2.2.map OpenConstruct.node) ∧
      ∀ c ∈ (OpenConstruct.step index (.blockOpen block) cs).2.2, t.Lists c := by
  have hbody : ¬block.kind.hasBody = true := by
    rw [BlockKind.hasBody_eq_false_of_isBranch hbranch]
    exact Bool.false_ne_true
  unfold OpenConstruct.step
  dsimp only
  rw [if_neg hbody, if_pos hbranch]
  cases cs with
  | nil => exact ⟨.strayBranch hbranch hgroup (by simp), hcs⟩
  | cons top outer =>
    obtain ⟨opener, hopener, hkind⟩ := hcs top (by simp)
    dsimp only
    by_cases haccepts : top.kind.acceptsElse = true
    · rw [if_pos haccepts]
      refine ⟨.branch hbranch rfl hopener (hkind ▸ haccepts), ?_⟩
      intro c hc
      rcases List.mem_cons.1 hc with rfl | hc
      · exact ⟨opener, hopener, hkind⟩
      · exact hcs c (by simp [hc])
    · rw [if_neg haccepts]
      refine ⟨.strayBranch hbranch hgroup ?_, hcs⟩
      intro c hc b hb
      cases Option.mem_def.1 hc
      cases hopener.symm.trans hb
      rw [hkind]
      exact Bool.eq_false_iff.2 haccepts

/-- One step of pairing, as seen in the finished template. -/
theorem turn_step {raw body : NodeBody} (hraw : raw.Unpaired) (hcs : ∀ c ∈ cs, t.Lists c)
    (hbody : body = (OpenConstruct.step index raw cs).1.withClose bodies index)
    (hindex : t.body? index = some body) :
    Turn t index body (cs.map OpenConstruct.node)
        ((OpenConstruct.step index raw cs).2.2.map OpenConstruct.node) ∧
      ∀ c ∈ (OpenConstruct.step index raw cs).2.2, t.Lists c := by
  subst hbody
  cases raw with
  | blockOpen block =>
    by_cases hb : block.kind.hasBody = true
    · apply turn_step_opens hraw hb hcs
      unfold OpenConstruct.step at hindex
      dsimp only at hindex
      rwa [if_pos hb] at hindex
    · by_cases hbranch : block.kind.isBranch = true
      · exact turn_step_branch hraw hbranch hcs
      · have hkind : block.kind = .template := by
          cases hk : block.kind <;> simp_all [BlockKind.hasBody, BlockKind.isBranch]
        unfold OpenConstruct.step
        dsimp only
        rw [if_neg hb, if_neg hbranch]
        exact ⟨.call hkind hraw, hcs⟩
  | blockClose opener =>
    change opener = none at hraw
    subst hraw
    cases cs with
    | nil => exact ⟨.strayEnd, hcs⟩
    | cons top outer => exact ⟨.closes, fun c hc => hcs c (List.mem_cons_of_mem top hc)⟩
  | text => exact ⟨.plain rfl, hcs⟩
  | comment _ => exact ⟨.plain rfl, hcs⟩
  | action _ => exact ⟨.plain rfl, hcs⟩
  | loopControl _ => exact ⟨.plain rfl, hcs⟩
  | malformed _ => exact ⟨.plain rfl, hcs⟩

end

section

variable {source : List Char} {pieces : List Piece} {i j : Nat} {b : BlockOpen}

theorem body?_eq_blockClose_iff {opener : Option Nat} :
    (ofPieces source pieces).body? j = some (.blockClose opener) ↔
      (unclosedBodies pieces)[j]? = some (.blockClose opener) := by
  rw [body?_ofPieces, Option.map_eq_some_iff]
  constructor
  · rintro ⟨body, hbody, hclose⟩
    cases body with
    | blockClose opener' =>
      cases hclose
      exact hbody
    | text | comment _ | action _ | blockOpen _ | loopControl _ | malformed _ => cases hclose
  · intro h
    exact ⟨_, h, rfl⟩

theorem close_eq_findIdx? (hb : (ofPieces source pieces).block? i = some b) :
    b.close = (unclosedBodies pieces).findIdx? fun body => body = .blockClose (some i) := by
  rw [block?_eq_some_iff, body?_ofPieces, Option.map_eq_some_iff] at hb
  obtain ⟨body, -, hclose⟩ := hb
  cases body with
  | blockOpen b' =>
    cases hclose
    rfl
  | text | comment _ | action _ | blockClose _ | loopControl _ | malformed _ => cases hclose

theorem close_eq_some_iff (hb : (ofPieces source pieces).block? i = some b) :
    b.close = some j ↔
      (ofPieces source pieces).body? j = some (.blockClose (some i)) ∧
        ∀ k < j, (ofPieces source pieces).body? k ≠ some (.blockClose (some i)) := by
  simp only [close_eq_findIdx? hb, ne_eq, body?_eq_blockClose_iff,
    List.findIdx?_eq_some_iff_getElem, decide_eq_true_eq, List.getElem?_eq_some_iff]
  constructor
  · rintro ⟨hlt, hj, hfirst⟩
    refine ⟨⟨hlt, hj⟩, ?_⟩
    rintro k hk ⟨hlt', hk'⟩
    exact hfirst k hk hk'
  · rintro ⟨⟨hlt, hj⟩, hfirst⟩
    exact ⟨hlt, hj, fun k hk hk' => hfirst k hk ⟨by omega, hk'⟩⟩

theorem close_isSome_of_blockClose (hb : (ofPieces source pieces).block? i = some b)
    (hj : (ofPieces source pieces).body? j = some (.blockClose (some i))) :
    ∃ k ≤ j, b.close = some k := by
  cases hc : b.close with
  | none =>
    rw [close_eq_findIdx? hb, List.findIdx?_eq_none_iff] at hc
    have hmem := List.mem_of_getElem? (body?_eq_blockClose_iff.1 hj)
    simpa using hc _ hmem
  | some k =>
    refine ⟨k, ?_, rfl⟩
    rcases Nat.lt_or_ge j k with hlt | hge
    · exact absurd hj (((close_eq_some_iff hb).1 hc).2 j hlt)
    · exact hge

theorem staysOpen_iff {index : Nat} :
    (ofPieces source pieces).staysOpen index i = true ↔
      (∃ b, (ofPieces source pieces).block? i = some b ∧ b.kind.hasBody = true) ∧
        ∀ k < index, (ofPieces source pieces).body? k ≠ some (.blockClose (some i)) := by
  simp only [staysOpen, Option.any_eq_true, Bool.and_eq_true, Option.all_eq_true,
    decide_eq_true_eq]
  constructor
  · rintro ⟨b, hb, hbody, hclose⟩
    refine ⟨⟨b, hb, hbody⟩, ?_⟩
    intro k hk hk'
    obtain ⟨j, hj, hj'⟩ := close_isSome_of_blockClose hb hk'
    have := hclose j hj'
    omega
  · rintro ⟨⟨b, hb, hbody⟩, hends⟩
    refine ⟨b, hb, hbody, ?_⟩
    intro j hj
    rcases Nat.lt_or_ge j index with hji | hge
    · exact absurd ((close_eq_some_iff hb).1 hj).1 (hends j hji)
    · exact hge

def parserStack (pieces : List Piece) (index : Nat) : List Nat :=
  (OpenConstruct.after (pieces.map NodeBody.read) index).map OpenConstruct.node

theorem exists_read_of_body? {index : Nat} {body : NodeBody}
    (h : (ofPieces source pieces).body? index = some body) :
    ∃ p, (pieces.map NodeBody.read)[index]? = some (NodeBody.read p) ∧
      body = (OpenConstruct.step index (NodeBody.read p).1
        (OpenConstruct.after (pieces.map NodeBody.read) index)).1.withClose
          (unclosedBodies pieces) index := by
  rw [body?_ofPieces, Option.map_eq_some_iff] at h
  obtain ⟨paired, hget, hbody⟩ := h
  have hlt : index < pieces.length := by
    rw [← length_unclosedBodies]
    exact (List.getElem?_eq_some_iff.1 hget).1
  have hitem : (pieces.map NodeBody.read)[index]? = some (NodeBody.read pieces[index]) := by
    rw [List.getElem?_map, List.getElem?_eq_getElem hlt]
    rfl
  rw [unclosedBodies, List.getElem?_map, OpenConstruct.getElem?_pair hitem] at hget
  cases hget
  exact ⟨_, hitem, hbody.symm⟩

theorem turn_after {index : Nat}
    (hlists : ∀ c ∈ OpenConstruct.after (pieces.map NodeBody.read) index,
      (ofPieces source pieces).Lists c) {body : NodeBody}
    (h : (ofPieces source pieces).body? index = some body) :
    Turn (ofPieces source pieces) index body (parserStack pieces index)
        (parserStack pieces (index + 1)) ∧
      ∀ c ∈ OpenConstruct.after (pieces.map NodeBody.read) (index + 1),
        (ofPieces source pieces).Lists c := by
  obtain ⟨p, hitem, hbody⟩ := exists_read_of_body? h
  rw [parserStack, parserStack, OpenConstruct.after_succ hitem]
  exact turn_step (NodeBody.unpaired_read p) hlists hbody h

theorem after_succ_of_body?_eq_none {index : Nat}
    (h : (ofPieces source pieces).body? index = none) :
    OpenConstruct.after (pieces.map NodeBody.read) (index + 1) =
      OpenConstruct.after (pieces.map NodeBody.read) index := by
  rw [body?_ofPieces, Option.map_eq_none_iff, List.getElem?_eq_none_iff,
    length_unclosedBodies] at h
  unfold OpenConstruct.after
  rw [List.take_of_length_le (by simp; omega), List.take_of_length_le (by simpa using h)]

theorem lists_after (index : Nat) :
    ∀ c ∈ OpenConstruct.after (pieces.map NodeBody.read) index,
      (ofPieces source pieces).Lists c := by
  induction index with
  | zero =>
    intro c hc
    simp [OpenConstruct.after, OpenConstruct.pair] at hc
  | succ index ih =>
    cases h : (ofPieces source pieces).body? index with
    | none =>
      rw [after_succ_of_body?_eq_none h]
      exact ih
    | some body => exact (turn_after ih h).2

theorem turn_parserStack {index : Nat} {body : NodeBody}
    (h : (ofPieces source pieces).body? index = some body) :
    Turn (ofPieces source pieces) index body (parserStack pieces index)
      (parserStack pieces (index + 1)) :=
  (turn_after (lists_after index) h).1

theorem Turn.lt {t : Template} {index : Nat} {body : NodeBody} {opened next : List Nat}
    (h : Turn t index body opened next) (hlt : ∀ c ∈ opened, c < index) :
    ∀ c ∈ next, c < index + 1 := by
  intro c hc
  cases h with
  | opens =>
    rcases List.mem_cons.1 hc with rfl | hc
    · omega
    · have := hlt c hc
      omega
  | closes =>
    have := hlt c (List.mem_cons_of_mem _ hc)
    omega
  | branch | strayBranch | call | strayEnd | plain =>
    have := hlt c hc
    omega

theorem Turn.eq_cons_of_group {t : Template} {index c : Nat} {body : NodeBody}
    {opened next : List Nat} (h : Turn t index body opened next) (hgroup : body.group? = some c) :
    ∃ b rest, body = .blockOpen b ∧ b.kind.isBranch = true ∧ opened = c :: rest := by
  cases h with
  | @branch b _ _ rest isBranch group =>
    cases group.symm.trans hgroup
    exact ⟨b, rest, rfl, isBranch, rfl⟩
  | opens _ ungrouped | strayBranch _ ungrouped | call _ ungrouped =>
    cases ungrouped.symm.trans hgroup
  | closes | strayEnd => cases hgroup
  | plain isPlain =>
    cases body with
    | blockOpen _ => cases isPlain
    | text | comment _ | action _ | blockClose _ | loopControl _ | malformed _ => cases hgroup

theorem lt_of_mem_parserStack {index : Nat} : ∀ c ∈ parserStack pieces index, c < index := by
  induction index with
  | zero =>
    intro c hc
    simp [parserStack, OpenConstruct.after, OpenConstruct.pair] at hc
  | succ index ih =>
    cases h : (ofPieces [] pieces).body? index with
    | none =>
      intro c hc
      rw [parserStack, after_succ_of_body?_eq_none h] at hc
      have := ih c hc
      omega
    | some body => exact (turn_parserStack h).lt ih

theorem lt_of_blockClose (h : (ofPieces source pieces).body? j = some (.blockClose (some i))) :
    i < j := by
  have hturn := turn_parserStack h
  generalize hstack : parserStack pieces j = stack at hturn
  cases hturn with
  | closes =>
    have hmem : i ∈ parserStack pieces j := by simp [hstack]
    exact lt_of_mem_parserStack i hmem
  | plain isPlain => cases isPlain

theorem openBefore_succ (t : Template) (index : Nat) :
    t.openBefore (index + 1) =
      (if t.staysOpen (index + 1) index then [index] else []) ++
        (List.range index).reverse.filter (t.staysOpen (index + 1)) := by
  rw [openBefore, List.range_succ, List.reverse_append, List.reverse_singleton,
    List.singleton_append, List.filter_cons]
  split <;> rfl

theorem filter_staysOpen_succ {index : Nat}
    (h : ∀ c, (ofPieces source pieces).body? index ≠ some (.blockClose (some c))) :
    (List.range index).reverse.filter ((ofPieces source pieces).staysOpen (index + 1)) =
      (ofPieces source pieces).openBefore index := by
  apply List.filter_congr
  intro c hc
  rw [Bool.eq_iff_iff, staysOpen_iff, staysOpen_iff]
  constructor
  · rintro ⟨hb, hends⟩
    exact ⟨hb, fun k hk => hends k (by omega)⟩
  · rintro ⟨hb, hends⟩
    refine ⟨hb, ?_⟩
    intro k hk
    rcases Nat.lt_succ_iff_lt_or_eq.1 hk with hlt | rfl
    · exact hends k hlt
    · exact h c

theorem filter_staysOpen_closes {index c : Nat}
    (h : (ofPieces source pieces).body? index = some (.blockClose (some c))) :
    (List.range index).reverse.filter ((ofPieces source pieces).staysOpen (index + 1)) =
      ((ofPieces source pieces).openBefore index).filter (· ≠ c) := by
  rw [openBefore, List.filter_filter]
  apply List.filter_congr
  intro k hk
  rw [Bool.eq_iff_iff, Bool.and_eq_true, staysOpen_iff, staysOpen_iff, decide_eq_true_eq]
  constructor
  · rintro ⟨hb, hends⟩
    refine ⟨?_, hb, fun l hl => hends l (by omega)⟩
    rintro rfl
    exact hends index (by omega) h
  · rintro ⟨hne, hb, hends⟩
    refine ⟨hb, ?_⟩
    intro l hl
    rcases Nat.lt_succ_iff_lt_or_eq.1 hl with hlt | rfl
    · exact hends l hlt
    · rw [h]
      intro heq
      cases heq
      exact hne rfl

theorem staysOpen_self {index : Nat} :
    (ofPieces source pieces).staysOpen (index + 1) index = true ↔
      ∃ b, (ofPieces source pieces).block? index = some b ∧ b.kind.hasBody = true := by
  rw [staysOpen_iff, and_iff_left_iff_imp]
  intro _ k hk h
  have := lt_of_blockClose h
  omega

theorem openBefore_succ_of_opens {index : Nat} {b : BlockOpen}
    (hb : (ofPieces source pieces).body? index = some (.blockOpen b))
    (hbody : b.kind.hasBody = true) :
    (ofPieces source pieces).openBefore (index + 1) =
      index :: (ofPieces source pieces).openBefore index := by
  have hself : (ofPieces source pieces).staysOpen (index + 1) index = true :=
    staysOpen_self.2 ⟨b, block?_eq_some_iff.2 hb, hbody⟩
  rw [openBefore_succ, if_pos hself, filter_staysOpen_succ (by simp [hb])]
  rfl

theorem openBefore_succ_of_closes {index c : Nat} {opened : List Nat}
    (h : (ofPieces source pieces).body? index = some (.blockClose (some c)))
    (hopened : (ofPieces source pieces).openBefore index = c :: opened) :
    (ofPieces source pieces).openBefore (index + 1) = opened := by
  have hself : ¬(ofPieces source pieces).staysOpen (index + 1) index = true := by
    simp [staysOpen_self, block?_eq_some_iff, h]
  have hpairwise := pairwise_openBefore (ofPieces source pieces) index
  rw [hopened, List.pairwise_cons] at hpairwise
  rw [openBefore_succ, if_neg hself, filter_staysOpen_closes h, hopened, List.nil_append,
    List.filter_cons_of_neg (by simp), List.filter_eq_self]
  intro k hk
  have := hpairwise.1 k hk
  simp only [ne_eq, decide_eq_true_eq]
  omega

theorem openBefore_succ_of_passes {index : Nat}
    (hblock : ∀ b, (ofPieces source pieces).body? index = some (.blockOpen b) →
      b.kind.hasBody = false)
    (hend : ∀ c, (ofPieces source pieces).body? index ≠ some (.blockClose (some c))) :
    (ofPieces source pieces).openBefore (index + 1) =
      (ofPieces source pieces).openBefore index := by
  have hself : ¬(ofPieces source pieces).staysOpen (index + 1) index = true := by
    rw [staysOpen_self]
    rintro ⟨b, hb, hbody⟩
    rw [hblock b (block?_eq_some_iff.1 hb)] at hbody
    cases hbody
  rw [openBefore_succ, if_neg hself, filter_staysOpen_succ hend]
  rfl

/-- What is on the parser's stack are the constructs that the finished template shows as open. -/
theorem parserStack_eq_openBefore (index : Nat) :
    parserStack pieces index = (ofPieces source pieces).openBefore index := by
  induction index with
  | zero => rfl
  | succ index ih =>
    cases h : (ofPieces source pieces).body? index with
    | none =>
      rw [openBefore_succ_of_passes (by simp [h]) (by simp [h]), ← ih, parserStack,
        after_succ_of_body?_eq_none h]
      rfl
    | some body =>
      have hturn := turn_parserStack h
      rw [ih] at hturn
      generalize hnext : parserStack pieces (index + 1) = next at hturn
      generalize hopened : (ofPieces source pieces).openBefore index = opened at hturn
      cases hturn with
      | opens hbody _ => rw [openBefore_succ_of_opens h hbody, hopened]
      | closes => exact (openBefore_succ_of_closes h hopened).symm
      | branch hbranch _ _ _ | strayBranch hbranch _ _ =>
        rw [← hopened]
        refine (openBefore_succ_of_passes ?_ (by simp [h])).symm
        intro b hb
        rw [h] at hb
        cases hb
        exact BlockKind.hasBody_eq_false_of_isBranch hbranch
      | call hkind _ =>
        rw [← hopened]
        refine (openBefore_succ_of_passes ?_ (by simp [h])).symm
        intro b hb
        rw [h] at hb
        cases hb
        rw [hkind]
        rfl
      | strayEnd =>
        rw [← hopened]
        exact (openBefore_succ_of_passes (by simp [h]) (by simp [h])).symm
      | plain isPlain =>
        rw [← hopened]
        refine (openBefore_succ_of_passes ?_ ?_).symm
        · intro b hb
          rw [h] at hb
          cases hb
          cases isPlain
        · intro c hc
          rw [h] at hc
          cases hc
          cases isPlain

end

/-- Openings, branches and ends fit together: every node takes its turn on the constructs that are
open before it, and the end of a construct is the first one that names it. -/
structure WellPaired (t : Template) : Prop where
  turn : ∀ {index : Nat} {body : NodeBody}, t.body? index = some body →
    Turn t index body (t.openBefore index) (t.openBefore (index + 1))
  past : ∀ {index : Nat}, t.body? index = none → t.openBefore (index + 1) = t.openBefore index
  close_iff : ∀ {i j : Nat} {b : BlockOpen}, t.block? i = some b →
    (b.close = some j ↔ t.body? j = some (.blockClose (some i)) ∧
      ∀ k < j, t.body? k ≠ some (.blockClose (some i)))

theorem wellPaired_parse (d : Delimiters) (source : String) : (parse d source).WellPaired where
  turn := by
    intro index body h
    have hturn := turn_parserStack h
    rwa [parserStack_eq_openBefore, parserStack_eq_openBefore] at hturn
  past := by
    intro index h
    unfold parse at h
    exact openBefore_succ_of_passes (by simp [h]) (by simp [h])
  close_iff := close_eq_some_iff

theorem WellPaired.openBefore_of_blockClose {t : Template} (ht : t.WellPaired) {i j : Nat}
    (h : t.body? j = some (.blockClose (some i))) :
    t.openBefore j = i :: t.openBefore (j + 1) := by
  have hturn := ht.turn h
  generalize t.openBefore j = opened at hturn ⊢
  generalize t.openBefore (j + 1) = after at hturn ⊢
  cases hturn with
  | closes => rfl
  | plain isPlain => cases isPlain

end Template
end TemplateLint
