import TemplateLint.Proofs.Pairing
import TemplateLint.Proofs.Slices

/-! Nothing of a source is lost. The pieces between delimiters, and with them the nodes, lie side by
side from the first byte to the last, whatever the delimiters are; and every offset that is taken
from a piece falls between two characters, so that it can be used to cut the source. -/
namespace TemplateLint
open Text

namespace Span

/-- The spans lie side by side from `start` to `stop`, and none is empty. -/
def Tiles (start : Nat) : List Span → Nat → Prop
  | [], stop => start = stop
  | s :: spans, stop => s.start = start ∧ s.start < s.stop ∧ Tiles s.stop spans stop

end Span

namespace ActionText

def innerStart (a : ActionText) (s : Span) : Nat := s.start + byteLength a.opening

def innerStop (a : ActionText) (s : Span) : Nat := a.innerStart s + byteLength a.inner

end ActionText

namespace Piece

def placed (d : Delimiters) (source : String) : List (Piece × Span) :=
  let pieces := scan d.left.toList d.right.toList source.toList
  pieces.zip (spans 0 pieces)

def cuts (s : Span) : Piece → List Nat
  | action a => [s.start, a.innerStart s, a.innerStop s, s.stop]
  | text _ | malformed _ _ => [s.start, s.stop]

theorem flatMap_raw_ofText (cs : List Char) : (ofText cs).flatMap raw = cs := by
  unfold ofText
  split
  · next h => simp [h]
  · simp [raw]

theorem flatMap_raw_scan (left right source : List Char) :
    (scan left right source).flatMap raw = source := by
  fun_induction scan left right source with
  | case1 source h => exact flatMap_raw_ofText source
  | case2 source before after h ih =>
    rw [List.flatMap_append, List.flatMap_cons, flatMap_raw_ofText, ih, read_append,
      (eq_of_cut? h).2, List.append_assoc]

theorem readComment_opening {right opening lead rest tail : List Char} {trimLeft : Bool}
    {a : ActionText}
    (h : readComment right opening lead rest trimLeft = (action a, tail)) : a.opening = opening := by
  unfold readComment at h
  repeat' split at h
  all_goals cases h
  all_goals rfl

theorem readPlain_opening {right opening body tail : List Char} {trimLeft : Bool} {a : ActionText}
    (h : readPlain right opening body trimLeft = (action a, tail)) : a.opening = opening := by
  unfold readPlain at h
  repeat' split at h
  all_goals cases h
  all_goals rfl

theorem readComment_closing {right opening lead rest tail : List Char} {trimLeft : Bool}
    {a : ActionText}
    (h : readComment right opening lead rest trimLeft = (action a, tail)) :
    a.closing = (if a.trimRight then [' ', '-'] else []) ++ right := by
  unfold readComment at h
  repeat' split at h
  all_goals cases h
  all_goals rfl

theorem readPlain_closing {right opening body tail : List Char} {trimLeft : Bool} {a : ActionText}
    (h : readPlain right opening body trimLeft = (action a, tail)) :
    a.closing = (if a.trimRight then ['-'] else []) ++ right := by
  unfold readPlain at h
  repeat' split at h
  all_goals cases h
  all_goals rfl

theorem prefix_opening_of_read {left right rest tail : List Char} {a : ActionText}
    (h : read left right rest = (action a, tail)) : left <+: a.opening := by
  have hp := List.prefix_append left (openMarker rest).1
  unfold read at h
  dsimp only at h
  split at h
  · rw [readComment_opening h]
    exact hp
  · rw [readPlain_opening h]
    exact hp

/-- What has to hold of a piece for its span, and the opening of an action, to be more than
nothing. -/
def Solid (p : Piece) : Prop := p.raw ≠ [] ∧ ∀ a, p = action a → a.opening ≠ []

theorem solid_of_mem_ofText {cs : List Char} {p : Piece} (h : p ∈ ofText cs) : p.Solid := by
  unfold ofText at h
  split at h
  · simp at h
  · next hcs =>
    rw [List.mem_singleton] at h
    subst h
    exact ⟨hcs, nofun⟩

theorem solid_read {left : List Char} (hl : left ≠ []) (right rest : List Char) :
    (read left right rest).1.Solid := by
  constructor
  · intro h
    have hp := read_starts left right rest
    rw [h, List.prefix_nil] at hp
    exact hl hp
  · intro a ha h
    have hr : read left right rest = (action a, (read left right rest).2) := by rw [← ha]
    have hp := prefix_opening_of_read hr
    rw [h, List.prefix_nil] at hp
    exact hl hp

theorem solid_of_mem_scan {left right source : List Char} {p : Piece}
    (h : p ∈ scan left right source) : p.Solid := by
  fun_induction scan left right source with
  | case1 source hc => exact solid_of_mem_ofText h
  | case2 source before after hc ih =>
    rcases List.mem_append.1 h with h | h
    · exact solid_of_mem_ofText h
    · rcases List.mem_cons.1 h with rfl | h
      · exact solid_read (eq_of_cut? hc).1 right after
      · exact ih h

theorem tiles_spans (start : Nat) (ps : List Piece) (h : ∀ p ∈ ps, p.Solid) :
    Span.Tiles start (spans start ps) (start + byteLength (ps.flatMap raw)) := by
  induction ps generalizing start with
  | nil => simp [spans, Span.Tiles]
  | cons p ps ih =>
    have hp : byteLength p.raw ≠ 0 := fun hz => (h p (by simp)).1 (byteLength_eq_zero.1 hz)
    refine ⟨rfl, by dsimp only; omega, ?_⟩
    rw [List.flatMap_cons, byteLength_append, ← Nat.add_assoc]
    exact ih _ fun q hq => h q (by simp [hq])

theorem around_of_mem_spans {start : Nat} {ps : List Piece} {p : Piece} {s : Span}
    (h : (p, s) ∈ ps.zip (spans start ps)) :
    ∃ before after, ps.flatMap raw = before ++ p.raw ++ after ∧
      s = ⟨start + byteLength before, start + byteLength before + byteLength p.raw⟩ := by
  induction ps generalizing start with
  | nil => simp at h
  | cons q ps ih =>
    rw [spans, List.zip_cons_cons] at h
    rcases List.mem_cons.1 h with h | h
    · cases h
      exact ⟨[], ps.flatMap raw, by simp, by simp⟩
    · obtain ⟨before, after, hf, hs⟩ := ih h
      refine ⟨q.raw ++ before, after, by simp [hf], ?_⟩
      rw [hs, byteLength_append, Nat.add_assoc start]

theorem map_fst_placed (d : Delimiters) (source : String) :
    (placed d source).map Prod.fst = scan d.left.toList d.right.toList source.toList := by
  apply List.map_fst_zip
  exact Nat.le_of_eq (length_spans ..).symm

theorem map_snd_placed (d : Delimiters) (source : String) :
    (placed d source).map Prod.snd =
      spans 0 (scan d.left.toList d.right.toList source.toList) := by
  apply List.map_snd_zip
  exact Nat.le_of_eq (length_spans ..)

theorem slice?_of_mem_placed {d : Delimiters} {source : String} {p : Piece} {s : Span}
    (h : (p, s) ∈ placed d source) : slice? s source.toList = some p.raw := by
  obtain ⟨before, after, hf, hs⟩ := around_of_mem_spans h
  rw [flatMap_raw_scan] at hf
  exact slice?_eq_some_iff.2 ⟨before, after, hf, by simpa using hs⟩

theorem solid_of_mem_placed {d : Delimiters} {source : String} {p : Piece} {s : Span}
    (h : (p, s) ∈ placed d source) : p.Solid :=
  solid_of_mem_scan (List.of_mem_zip h).1

theorem slice?_inner {d : Delimiters} {source : String} {a : ActionText} {s : Span}
    (h : (action a, s) ∈ placed d source) :
    slice? ⟨a.innerStart s, a.innerStop s⟩ source.toList = some a.inner := by
  obtain ⟨before, after, hf, hs⟩ := around_of_mem_spans h
  rw [flatMap_raw_scan] at hf
  refine slice?_eq_some_iff.2 ⟨before ++ a.opening, a.closing ++ after, ?_, ?_⟩
  · rw [hf]
    simp [raw, ActionText.raw]
  · subst hs
    simp [ActionText.innerStart, ActionText.innerStop]

theorem innerStop_le {d : Delimiters} {source : String} {a : ActionText} {s : Span}
    (h : (action a, s) ∈ placed d source) : a.innerStop s ≤ s.stop := by
  obtain ⟨before, after, -, rfl⟩ := around_of_mem_spans h
  simp only [ActionText.innerStop, ActionText.innerStart, raw, ActionText.raw, byteLength_append]
  omega

theorem start_lt_innerStart {d : Delimiters} {source : String} {a : ActionText} {s : Span}
    (h : (action a, s) ∈ placed d source) : s.start < a.innerStart s := by
  have hopening := (solid_of_mem_placed h).2 a rfl
  have hpos : byteLength a.opening ≠ 0 := fun hz => hopening (byteLength_eq_zero.1 hz)
  unfold ActionText.innerStart
  omega

theorem isValid_of_slice? {source : String} {s : Span} {middle : List Char}
    (h : slice? s source.toList = some middle) :
    (String.Pos.Raw.mk s.start).IsValid source ∧ (String.Pos.Raw.mk s.stop).IsValid source := by
  obtain ⟨before, after, hsource, rfl⟩ := slice?_eq_some_iff.1 h
  constructor
  · exact isValid_iff.2 ⟨before, middle ++ after, by rw [hsource, List.append_assoc], rfl⟩
  · exact isValid_iff.2 ⟨before ++ middle, after, hsource, byteLength_append ..⟩

theorem isValid_of_mem_cuts {d : Delimiters} {source : String} {p : Piece} {s : Span}
    (h : (p, s) ∈ placed d source) {offset : Nat} (hoffset : offset ∈ p.cuts s) :
    (String.Pos.Raw.mk offset).IsValid source := by
  obtain ⟨hstart, hstop⟩ := isValid_of_slice? (slice?_of_mem_placed h)
  cases p with
  | text cs | malformed fault cs =>
    simp only [cuts, List.mem_cons, List.not_mem_nil, or_false] at hoffset
    rcases hoffset with rfl | rfl
    · exact hstart
    · exact hstop
  | action a =>
    obtain ⟨hinnerStart, hinnerStop⟩ := isValid_of_slice? (slice?_inner h)
    simp only [cuts, List.mem_cons, List.not_mem_nil, or_false] at hoffset
    rcases hoffset with rfl | rfl | rfl | rfl
    · exact hstart
    · exact hinnerStart
    · exact hinnerStop
    · exact hstop

end Piece

namespace Template

theorem map_place_parse (d : Delimiters) (source : String) :
    (parse d source).nodes.map (fun n => (n.raw, n.span)) =
      (Piece.placed d source).map fun x => (String.ofList x.1.raw, x.2) :=
  map_place_nodes ..

theorem exists_read_of_getElem? {d : Delimiters} {source : String} {index : Nat} {n : Node}
    (h : (parse d source).nodes[index]? = some n) :
    ∃ p, (Piece.placed d source)[index]? = some (p, n.span) ∧ n.raw = String.ofList p.raw ∧
      (n.body = (NodeBody.read p).1 ∨
        n.body.isPlain = false ∧ (NodeBody.read p).1.isPlain = false) := by
  have hplace := congrArg (fun places => places[index]?) (map_place_parse d source)
  simp only [List.getElem?_map, h, Option.map_some] at hplace
  obtain ⟨⟨p, s⟩, hp, heq⟩ := Option.map_eq_some_iff.1 hplace.symm
  obtain ⟨hraw, rfl⟩ := Prod.mk.inj heq
  have hpiece := congrArg (fun pieces => pieces[index]?) (Piece.map_fst_placed d source)
  simp only [List.getElem?_map, hp, Option.map_some] at hpiece
  have hbody : (parse d source).body? index = some n.body := congrArg (Option.map Node.body) h
  obtain ⟨q, hq, hstep⟩ := exists_read_of_body? hbody
  rw [List.getElem?_map, ← hpiece, Option.map_some, Option.some_inj] at hq
  rw [← hq] at hstep
  refine ⟨p, hp, hraw.symm, ?_⟩
  rw [hstep]
  exact NodeBody.step_eq_or ..

theorem exists_piece_of_mem {d : Delimiters} {source : String} {n : Node}
    (h : n ∈ (parse d source).nodes) :
    ∃ p, (p, n.span) ∈ Piece.placed d source ∧ n.raw = String.ofList p.raw := by
  obtain ⟨index, hindex⟩ := List.mem_iff_getElem?.1 h
  obtain ⟨p, hp, hraw, -⟩ := exists_read_of_getElem? hindex
  exact ⟨p, List.mem_of_getElem? hp, hraw⟩

theorem tiles_parse (d : Delimiters) (source : String) :
    Span.Tiles 0 ((parse d source).nodes.map Node.span) source.utf8ByteSize := by
  have htiles := Piece.tiles_spans 0 (Piece.scan d.left.toList d.right.toList source.toList)
    (fun _ => Piece.solid_of_mem_scan)
  rw [Piece.flatMap_raw_scan, Nat.zero_add, ← utf8ByteSize_eq] at htiles
  have hspans : (parse d source).nodes.map Node.span = (Piece.placed d source).map Prod.snd := by
    have hplace := congrArg (List.map Prod.snd) (map_place_parse d source)
    rwa [List.map_map, List.map_map] at hplace
  rw [hspans, Piece.map_snd_placed]
  exact htiles

theorem reconstruct_parse (d : Delimiters) (source : String) :
    (parse d source).reconstruct = source := by
  have hraw : (parse d source).nodes.map Node.raw =
      ((Piece.placed d source).map Prod.fst).map (String.ofList ·.raw) := by
    have hplace := congrArg (List.map Prod.fst) (map_place_parse d source)
    rw [List.map_map, List.map_map] at hplace
    rw [List.map_map]
    exact hplace
  rw [reconstruct, hraw, Piece.map_fst_placed, ← String.toList_inj, String.toList_join,
    List.flatMap_map]
  simp only [String.toList_ofList]
  exact Piece.flatMap_raw_scan ..

/-- The nodes of a template tile its source, and each offset that a piece of it hands out can be
used to cut the source. -/
theorem parse_tiles_source (d : Delimiters) (source : String) :
    Span.Tiles 0 ((parse d source).nodes.map Node.span) source.utf8ByteSize ∧
    (∀ n ∈ (parse d source).nodes, slice? n.span source.toList = some n.raw.toList) ∧
    (parse d source).reconstruct = source ∧
    ∀ p s, (p, s) ∈ Piece.placed d source →
      (∀ offset ∈ p.cuts s, (String.Pos.Raw.mk offset).IsValid source) ∧
      ∀ a, p = .action a →
        s.start < a.innerStart s ∧ a.innerStart s ≤ a.innerStop s ∧ a.innerStop s ≤ s.stop ∧
          slice? ⟨a.innerStart s, a.innerStop s⟩ source.toList = some a.inner := by
  refine ⟨tiles_parse d source, ?_, reconstruct_parse d source, ?_⟩
  · intro n hn
    obtain ⟨p, hp, hraw⟩ := exists_piece_of_mem hn
    rw [hraw, String.toList_ofList]
    exact Piece.slice?_of_mem_placed hp
  · intro p s h
    refine ⟨fun offset ho => Piece.isValid_of_mem_cuts h ho, ?_⟩
    rintro a rfl
    exact ⟨Piece.start_lt_innerStart h, Nat.le_add_right _ _, Piece.innerStop_le h,
      Piece.slice?_inner h⟩

end Template
end TemplateLint
