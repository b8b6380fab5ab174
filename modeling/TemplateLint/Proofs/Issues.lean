import Mathlib.Data.List.Basic
import TemplateLint.Proofs.Pairing

/-! The issues of a template. Every one is about a node that is not text, and carries its text and
place. Those of the pairing are there exactly once for each node that is out of place: first the
branches and ends that belong to no construct, as they come, then the constructs without an end. -/
namespace TemplateLint

/-- Errors of how nodes go together, as against errors of one node's text. -/
def ParseError.isMispairing : ParseError → Bool
  | unexpectedElse _ | unexpectedEnd | unclosedBlock _ => true
  | fault _ | emptyAction | missingPipeline _ | missingTemplateName _ | duplicateElse
  | unsupportedElse _ | trailingTokens _ => false

namespace NodeBody

def stray? : NodeBody → Option ParseError
  | blockOpen b =>
    if b.kind.isBranch && b.group.isNone then some (.unexpectedElse b.kind.keyword) else none
  | blockClose none => some .unexpectedEnd
  | _ => none

def unclosed? : NodeBody → Option ParseError
  | blockOpen b =>
    if b.kind.hasBody && b.close.isNone then some (.unclosedBlock b.kind.keyword) else none
  | _ => none

theorem unclosed?_eq_some_iff {body : NodeBody} {e : ParseError} :
    body.unclosed? = some e ↔ ∃ b, body = .blockOpen b ∧ b.kind.hasBody = true ∧ b.close = none ∧
      e = .unclosedBlock b.kind.keyword := by
  cases body with
  | blockOpen b =>
    simp only [unclosed?, Option.ite_none_right_eq_some, Bool.and_eq_true,
      Option.isNone_iff_eq_none, Option.some.injEq, blockOpen.injEq, and_assoc]
    constructor
    · rintro ⟨hbody, hclose, rfl⟩
      exact ⟨b, rfl, hbody, hclose, rfl⟩
    · rintro ⟨_, rfl, hbody, hclose, rfl⟩
      exact ⟨hbody, hclose, rfl⟩
  | text | comment _ | action _ | blockClose _ | loopControl _ | malformed _ => simp [unclosed?]

theorem stray?_withClose (bodies : List NodeBody) (index : Nat) (body : NodeBody) :
    (body.withClose bodies index).stray? = body.stray? := by
  cases body <;> rfl

theorem any_isMispairing_withPipeline (b : BlockOpen) (cs : List Char) :
    (b.withPipeline cs).2.any ParseError.isMispairing = false := by
  unfold BlockOpen.withPipeline
  dsimp only
  split <;> rfl

theorem any_isMispairing_readNamed (kind : BlockKind) (rest : List Char) :
    (BlockOpen.readNamed kind rest).2.any ParseError.isMispairing = false := by
  unfold BlockOpen.readNamed
  split
  · rfl
  · dsimp only
    split
    · split <;> rfl
    · rfl

theorem any_isMispairing_readElse (rest : List Char) :
    (BlockOpen.readElse rest).2.any ParseError.isMispairing = false := by
  unfold BlockOpen.readElse
  dsimp only
  split
  · exact any_isMispairing_withPipeline _ _
  · dsimp only
    split <;> rfl

theorem any_isMispairing_trailing (keyword : String) (rest : List Char) :
    (trailing keyword rest).any ParseError.isMispairing = false := by
  unfold trailing
  split <;> rfl

theorem any_isMispairing_readAction (parts : ActionText) (inner : List Char) :
    (readAction parts inner).2.any ParseError.isMispairing = false := by
  unfold readAction
  dsimp only
  split
  case h_1 | h_2 | h_3 => exact any_isMispairing_withPipeline _ _
  case h_4 | h_5 | h_6 => exact any_isMispairing_readNamed _ _
  case h_7 => exact any_isMispairing_readElse _
  case h_8 | h_9 | h_10 => exact any_isMispairing_trailing _ _
  case h_11 =>
    dsimp only
    split <;> rfl

theorem filter_read (p : Piece) : (read p).2.filter ParseError.isMispairing = [] := by
  have hany : (read p).2.any ParseError.isMispairing = false := by
    cases p with
    | text cs | malformed fault cs => rfl
    | action parts =>
      unfold read
      dsimp only
      split
      · rfl
      · split
        · rfl
        · exact any_isMispairing_readAction _ _
  rw [List.filter_eq_nil_iff]
  exact List.any_eq_false.1 hany

theorem errors_eq_nil_of_text {p : Piece} (h : (read p).1 = .text) : (read p).2 = [] := by
  have htext := read_eq_text_iff.1 h
  cases p with
  | text cs => rfl
  | malformed | action => cases htext

end NodeBody

namespace OpenConstruct

variable (index : Nat) (cs : List OpenConstruct)

theorem filter_step {body : NodeBody} (h : body.Unpaired) :
    (step index body cs).2.1.filter ParseError.isMispairing =
      (step index body cs).1.stray?.toList := by
  cases body with
  | blockOpen b =>
    have hgroup : b.group = none := h
    unfold step
    dsimp only
    split
    · next hbody =>
      simp [NodeBody.stray?, BlockKind.isBranch_eq_false_of_hasBody hbody]
    · split
      · next hbranch =>
        split
        · split
          · simp only [NodeBody.stray?, Option.isNone_some, Bool.and_false]
            split <;> rfl
          · simp [NodeBody.stray?, hbranch, hgroup, ParseError.isMispairing]
        · simp [NodeBody.stray?, hbranch, hgroup, ParseError.isMispairing]
      · next hbranch => simp [NodeBody.stray?, hbranch]
  | blockClose opener =>
    cases h
    cases cs <;> rfl
  | text | comment _ | action _ | loopControl _ | malformed _ => rfl

theorem of_step_eq_text {body : NodeBody} (h : (step index body cs).1 = .text) :
    body = .text ∧ (step index body cs).2.1 = [] := by
  cases body with
  | text => exact ⟨rfl, rfl⟩
  | blockOpen b =>
    unfold step at h
    dsimp only at h
    repeat' split at h
    all_goals cases h
  | blockClose opener =>
    unfold step at h
    dsimp only at h
    split at h <;> cases h
  | comment _ | action _ | loopControl _ | malformed _ => cases h

end OpenConstruct

namespace Template

section

variable {source : List Char} {pieces : List Piece}

def flagged (source : List Char) (pieces : List Piece) :
    List (Node × NodeBody × List ParseError) :=
  (ofPieces source pieces).nodes.zip (OpenConstruct.pair 0 [] (pieces.map NodeBody.read)).1

theorem length_nodes_ofPieces (source : List Char) (pieces : List Piece) :
    (ofPieces source pieces).nodes.length = pieces.length := by
  simp [nodes_ofPieces, Piece.length_spans, length_unclosedBodies]

theorem map_fst_flagged (source : List Char) (pieces : List Piece) :
    (flagged source pieces).map Prod.fst = (ofPieces source pieces).nodes := by
  apply List.map_fst_zip
  simp [length_nodes_ofPieces]

theorem exists_step_of_mem_flagged {n : Node} {body : NodeBody} {errors : List ParseError}
    (h : (n, body, errors) ∈ flagged source pieces) :
    ∃ index p cs,
      n.body = (OpenConstruct.step index (NodeBody.read p).1 cs).1.withClose
        (unclosedBodies pieces) index ∧
      errors = (NodeBody.read p).2 ++ (OpenConstruct.step index (NodeBody.read p).1 cs).2.1 := by
  obtain ⟨index, hindex⟩ := List.mem_iff_getElem?.1 h
  obtain ⟨hnode, hpaired⟩ := List.getElem?_zip_eq_some.1 hindex
  have hlt : index < pieces.length := by
    rw [← length_nodes_ofPieces source pieces]
    exact (List.getElem?_eq_some_iff.1 hnode).1
  have hitem : (pieces.map NodeBody.read)[index]? = some (NodeBody.read pieces[index]) := by
    rw [List.getElem?_map, List.getElem?_eq_getElem hlt]
    rfl
  have hbody := body?_ofPieces source pieces index
  rw [body?, hnode, unclosedBodies, List.getElem?_map, OpenConstruct.getElem?_pair hitem] at hbody
  rw [OpenConstruct.getElem?_pair hitem] at hpaired
  cases hpaired
  exact ⟨index, pieces[index], _, Option.some.inj hbody, rfl⟩

theorem filter_of_mem_flagged {n : Node} {body : NodeBody} {errors : List ParseError}
    (h : (n, body, errors) ∈ flagged source pieces) :
    errors.filter ParseError.isMispairing = n.body.stray?.toList := by
  obtain ⟨index, p, cs, hbody, rfl⟩ := exists_step_of_mem_flagged h
  rw [List.filter_append, NodeBody.filter_read, List.nil_append, hbody,
    NodeBody.stray?_withClose]
  exact OpenConstruct.filter_step index cs (NodeBody.unpaired_read p)

theorem isText_of_mem_flagged {n : Node} {body : NodeBody} {errors : List ParseError}
    (h : (n, body, errors) ∈ flagged source pieces) (hne : errors ≠ []) : n.isText = false := by
  obtain ⟨index, p, cs, hbody, rfl⟩ := exists_step_of_mem_flagged h
  refine decide_eq_false fun htext => hne ?_
  have hstep : (OpenConstruct.step index (NodeBody.read p).1 cs).1 = .text := by
    rw [hbody] at htext
    generalize (OpenConstruct.step index (NodeBody.read p).1 cs).1 = paired at htext
    cases paired with
    | text => rfl
    | blockOpen _ | blockClose _ | comment _ | action _ | loopControl _ | malformed _ => cases htext
  obtain ⟨hread, hmore⟩ := OpenConstruct.of_step_eq_text index cs hstep
  rw [hmore, NodeBody.errors_eq_nil_of_text hread, List.append_nil]

def leftOpen (pieces : List Piece) : List OpenConstruct :=
  (OpenConstruct.pair 0 [] (pieces.map NodeBody.read)).2

theorem issues_ofPieces (source : List Char) (pieces : List Piece) :
    (ofPieces source pieces).issues =
      (flagged source pieces).flatMap (fun x => x.2.2.map (issue x.1)) ++
        (leftOpen pieces).reverse.filterMap fun c =>
          (ofPieces source pieces).nodes[c.node]?.map fun n =>
            issue n (.unclosedBlock c.kind.keyword) :=
  rfl

theorem leftOpen_eq_after (pieces : List Piece) :
    leftOpen pieces = OpenConstruct.after (pieces.map NodeBody.read) pieces.length := by
  unfold leftOpen OpenConstruct.after
  rw [List.take_of_length_le (by simp)]

theorem close_lt {i j : Nat} {b : BlockOpen} (hb : (ofPieces source pieces).block? i = some b)
    (hj : b.close = some j) : j < (ofPieces source pieces).nodes.length := by
  have hend := ((close_eq_some_iff hb).1 hj).1
  obtain ⟨n, hn, -⟩ := Option.map_eq_some_iff.1 hend
  exact (List.getElem?_eq_some_iff.1 hn).1

theorem staysOpen_length {index : Nat} :
    (ofPieces source pieces).staysOpen (ofPieces source pieces).nodes.length index = true ↔
      ∃ b, (ofPieces source pieces).block? index = some b ∧ b.kind.hasBody = true ∧
        b.close = none := by
  simp only [staysOpen, Option.any_eq_true, Bool.and_eq_true, Option.all_eq_true,
    decide_eq_true_eq]
  refine exists_congr fun b => and_congr_right fun hb => and_congr_right fun _ => ?_
  constructor
  · intro hlate
    refine Option.eq_none_iff_forall_ne_some.2 fun j hj => ?_
    have hlt := close_lt hb hj
    have hle := hlate j hj
    omega
  · intro hnone j hj
    rw [hnone] at hj
    cases hj

end

def unclosedIssue? (t : Template) (index : Nat) : Option ParseIssue :=
  t.nodes[index]?.bind fun n => n.body.unclosed?.map (issue n)

theorem exists_block_of_unclosedIssue? {t : Template} {index : Nat} {i : ParseIssue}
    (h : t.unclosedIssue? index = some i) :
    ∃ b, t.block? index = some b ∧ b.kind.hasBody = true ∧ b.close = none := by
  obtain ⟨n, hn, hi⟩ := Option.bind_eq_some_iff.1 h
  obtain ⟨e, he, -⟩ := Option.map_eq_some_iff.1 hi
  obtain ⟨b, hopen, hbody, hclose, -⟩ := NodeBody.unclosed?_eq_some_iff.1 he
  refine ⟨b, block?_eq_some_iff.2 ?_, hbody, hclose⟩
  rw [body?, hn, Option.map_some, hopen]

theorem unclosedIssue?_of_block {t : Template} {index : Nat} {b : BlockOpen}
    (hb : t.block? index = some b) (hbody : b.kind.hasBody = true) (hclose : b.close = none) :
    t.unclosedIssue? index =
      t.nodes[index]?.map fun n => issue n (.unclosedBlock b.kind.keyword) := by
  obtain ⟨n, hn, hopen⟩ := Option.map_eq_some_iff.1 (block?_eq_some_iff.1 hb)
  have herror := NodeBody.unclosed?_eq_some_iff.2 ⟨b, hopen, hbody, hclose, rfl⟩
  simp [unclosedIssue?, hn, herror]

theorem filterMap_range_unclosedIssue? (t : Template) :
    (List.range t.nodes.length).filterMap t.unclosedIssue? =
      t.nodes.filterMap fun n => n.body.unclosed?.map (issue n) := by
  unfold unclosedIssue?
  induction t.nodes with
  | nil => rfl
  | cons n ns ih =>
    rw [List.length_cons, List.range_succ_eq_map, List.filterMap_cons, List.filterMap_map,
      List.filterMap_cons, ← ih]
    rfl

theorem filterMap_leftOpen (source : List Char) (pieces : List Piece) :
    ((leftOpen pieces).reverse.filterMap fun c =>
        (ofPieces source pieces).nodes[c.node]?.map fun n =>
          issue n (.unclosedBlock c.kind.keyword)) =
      (ofPieces source pieces).nodes.filterMap fun n => n.body.unclosed?.map (issue n) := by
  have hlength := length_nodes_ofPieces source pieces
  have hnodes : (leftOpen pieces).map OpenConstruct.node =
      (ofPieces source pieces).openBefore (ofPieces source pieces).nodes.length := by
    rw [hlength, ← parserStack_eq_openBefore, parserStack, leftOpen_eq_after]
  have hopen : ∀ c ∈ leftOpen pieces,
      ((ofPieces source pieces).nodes[c.node]?.map fun n =>
        issue n (.unclosedBlock c.kind.keyword)) =
          (ofPieces source pieces).unclosedIssue? c.node := by
    intro c hc
    have hmem := List.mem_map_of_mem (f := OpenConstruct.node) hc
    rw [hnodes] at hmem
    obtain ⟨b, hb, hbody, hclose⟩ := staysOpen_length.1 (List.mem_filter.1 hmem).2
    rw [leftOpen_eq_after] at hc
    have hlists : (ofPieces source pieces).Lists c := lists_after pieces.length c hc
    obtain ⟨b', hb', hkind⟩ := hlists
    cases hb.symm.trans hb'
    rw [unclosedIssue?_of_block hb hbody hclose, hkind]
  calc
    _ = (leftOpen pieces).reverse.filterMap
          fun c => (ofPieces source pieces).unclosedIssue? c.node :=
      List.filterMap_congr fun c hc => hopen c (List.mem_reverse.1 hc)
    _ = ((leftOpen pieces).map OpenConstruct.node).reverse.filterMap
          (ofPieces source pieces).unclosedIssue? := by
      rw [← List.map_reverse, List.filterMap_map]
      rfl
    _ = (List.range (ofPieces source pieces).nodes.length).filterMap
          (ofPieces source pieces).unclosedIssue? := by
      rw [hnodes, openBefore, ← List.filter_reverse, List.reverse_reverse, List.filterMap_filter]
      refine List.filterMap_congr fun index _ => ?_
      split
      · rfl
      · next hstays =>
        cases hissue : (ofPieces source pieces).unclosedIssue? index with
        | none => rfl
        | some i => exact absurd (staysOpen_length.2 (exists_block_of_unclosedIssue? hissue)) hstays
    _ = _ := filterMap_range_unclosedIssue? _

/-- The issues of the pairing: one for each branch or end that belongs to no construct, then one for
each construct without an end, both in the order of the nodes. -/
theorem filter_issues_ofPieces (source : List Char) (pieces : List Piece) :
    (ofPieces source pieces).issues.filter (·.error.isMispairing) =
      ((ofPieces source pieces).nodes.filterMap fun n => n.body.stray?.map (issue n)) ++
        (ofPieces source pieces).nodes.filterMap fun n => n.body.unclosed?.map (issue n) := by
  rw [issues_ofPieces, List.filter_append, filterMap_leftOpen]
  congr 1
  · rw [List.filter_flatMap, List.filterMap_eq_flatMap_toList]
    conv => rhs; rw [← map_fst_flagged, List.flatMap_map]
    refine List.flatMap_congr fun x hx => ?_
    obtain ⟨n, body, errors⟩ := x
    rw [List.filter_map, Option.toList_map, ← filter_of_mem_flagged hx]
    rfl
  · rw [List.filter_eq_self]
    intro i hi
    obtain ⟨n, -, hn⟩ := List.mem_filterMap.1 hi
    obtain ⟨e, he, rfl⟩ := Option.map_eq_some_iff.1 hn
    obtain ⟨b, -, -, -, rfl⟩ := NodeBody.unclosed?_eq_some_iff.1 he
    rfl

theorem exists_node_of_mem_issues {source : List Char} {pieces : List Piece} {i : ParseIssue}
    (h : i ∈ (ofPieces source pieces).issues) :
    ∃ n ∈ (ofPieces source pieces).nodes, n.isText = false ∧ i = issue n i.error := by
  rw [issues_ofPieces, filterMap_leftOpen] at h
  rcases List.mem_append.1 h with h | h
  · obtain ⟨⟨n, body, errors⟩, hx, hi⟩ := List.mem_flatMap.1 h
    obtain ⟨e, he, rfl⟩ := List.mem_map.1 hi
    exact ⟨n, (List.of_mem_zip hx).1, isText_of_mem_flagged hx (List.ne_nil_of_mem he), rfl⟩
  · obtain ⟨n, hn, hi⟩ := List.mem_filterMap.1 h
    obtain ⟨e, he, rfl⟩ := Option.map_eq_some_iff.1 hi
    refine ⟨n, hn, decide_eq_false fun htext => ?_, rfl⟩
    rw [htext] at he
    cases he

end Template
end TemplateLint
