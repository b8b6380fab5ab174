import TemplateLint.Analysis.Check
import TemplateLint.Proofs.Issues
import TemplateLint.Proofs.Positions
import TemplateLint.Proofs.Tiling

/-! Where diagnostics point. Reading and walking report on one node at a time and with its position,
so each diagnostic can be followed back to the node; and they are listed in the order of the
nodes. -/
namespace TemplateLint

structure Diagnostic.IsAbout (d : Diagnostic) (n : Node) : Prop where
  isText : n.isText = false
  pos : d.pos = n.pos
  raw : d.raw = n.raw

namespace Diagnostic

theorem le_trans (a b c : Diagnostic) (hab : a.le b = true) (hbc : b.le c = true) :
    a.le c = true := by
  simp only [le, Bool.or_eq_true, Bool.and_eq_true, decide_eq_true_eq, beq_iff_eq] at *
  omega

theorem le_total (a b : Diagnostic) : (a.le b || b.le a) = true := by
  simp only [le, Bool.or_eq_true, Bool.and_eq_true, decide_eq_true_eq, beq_iff_eq]
  omega

theorem not_before_of_le {a b : Diagnostic} (h : a.le b = true) : ¬b.pos.Before a.pos := by
  simp only [le, Bool.or_eq_true, Bool.and_eq_true, decide_eq_true_eq, beq_iff_eq] at h
  simp only [Position.Before, pos]
  omega

end Diagnostic

namespace Walk

variable {o : Options} {file : String} {w : Walk} {d : Diagnostic}

theorem isAbout_of_mem_step {n : Node} (h : d ∈ (w.step o file n).2.diagnostics) :
    d.IsAbout n := by
  obtain ⟨p, hp, rfl⟩ := List.mem_map.1 h
  refine ⟨decide_eq_false fun htext => ?_, rfl, rfl⟩
  simp [effect, htext] at hp

theorem exists_node_of_mem_run {nodes : List Node}
    (h : d ∈ (w.run o file nodes).2.diagnostics) : ∃ n ∈ nodes, d.IsAbout n := by
  induction nodes generalizing w with
  | nil => cases h
  | cons n nodes ih =>
    rcases List.mem_append.1 h with h | h
    · exact ⟨n, List.mem_cons_self, isAbout_of_mem_step h⟩
    · obtain ⟨n', hn', habout⟩ := ih h
      exact ⟨n', List.mem_cons_of_mem n hn', habout⟩

end Walk

namespace Template

variable {delimiters : Delimiters} {source : String} {n : Node}

theorem pos_of_mem_parse (h : n ∈ (parse delimiters source).nodes) :
    n.pos = .ofOffset source.toList n.span.start := by
  rw [parse, nodes_ofPieces] at h
  obtain ⟨x, -, rfl⟩ := List.mem_map.1 h
  rfl

theorem isValid_start (h : n ∈ (parse delimiters source).nodes) :
    (String.Pos.Raw.mk n.span.start).IsValid source := by
  obtain ⟨p, hp, -⟩ := exists_piece_of_mem h
  exact (Piece.isValid_of_slice? (Piece.slice?_of_mem_placed hp)).1

theorem toOffset?_of_isAbout {d : Diagnostic} (hn : n ∈ (parse delimiters source).nodes)
    (h : d.IsAbout n) : Position.toOffset? source.toList d.pos = some n.span.start := by
  rw [h.pos, pos_of_mem_parse hn]
  exact Position.toOffset?_ofOffset (isValid_start hn)

theorem exists_node_of_mem_analyze {o : Options} {c : Context} {d : Diagnostic}
    (h : d ∈ ((parse delimiters source).analyze o c).diagnostics) :
    ∃ n ∈ (parse delimiters source).nodes, d.IsAbout n := by
  rcases List.mem_append.1 (List.mem_mergeSort.1 h) with h | h
  · obtain ⟨i, hi, rfl⟩ := List.mem_map.1 h
    obtain ⟨n, hn, htext, hissue⟩ := exists_node_of_mem_issues hi
    refine ⟨n, hn, htext, ?_, ?_⟩
    · rw [hissue]
      rfl
    · rw [hissue]
      rfl
  · exact Walk.exists_node_of_mem_run h

end Template

/-- The position of a diagnostic is where some node starts that is not text, and its text is that
node's; the list goes through the source from front to back. -/
theorem diagnostics_follow_source (o : Options) (c : Context) (source : String) :
    (∀ d ∈ (check o c source).diagnostics,
      ∃ n ∈ (Template.parse o.delimiters source).nodes, n.isText = false ∧
        Position.toOffset? source.toList d.pos = some n.span.start ∧ d.raw = n.raw) ∧
    (check o c source).diagnostics.Pairwise fun d d' => ∃ offset offset',
      Position.toOffset? source.toList d.pos = some offset ∧
        Position.toOffset? source.toList d'.pos = some offset' ∧ offset ≤ offset' := by
  constructor
  · intro d hd
    obtain ⟨n, hn, habout⟩ := Template.exists_node_of_mem_analyze hd
    exact ⟨n, hn, habout.isText, Template.toOffset?_of_isAbout hn habout, habout.raw⟩
  · refine List.Pairwise.imp_of_mem ?_
      (List.pairwise_mergeSort Diagnostic.le_trans Diagnostic.le_total _)
    intro d d' hd hd' hle
    obtain ⟨n, hn, habout⟩ := Template.exists_node_of_mem_analyze hd
    obtain ⟨n', hn', habout'⟩ := Template.exists_node_of_mem_analyze hd'
    refine ⟨n.span.start, n'.span.start, Template.toOffset?_of_isAbout hn habout,
      Template.toOffset?_of_isAbout hn' habout', Nat.le_of_not_lt fun hlt => ?_⟩
    apply Diagnostic.not_before_of_le hle
    rw [habout.pos, habout'.pos, Template.pos_of_mem_parse hn, Template.pos_of_mem_parse hn']
    exact Position.before_of_lt (Template.isValid_start hn') (Template.isValid_start hn) hlt

end TemplateLint
