import TemplateLint.Proofs.Tiling

/-! No action is missed. However a piece of the source ends, the next one begins right behind it, so
that each left delimiter is a part of some node that is not text. -/
namespace TemplateLint
open Text

namespace Text

variable {pat cs before after front back : List Char}

theorem exists_cut? (hpat : pat ≠ []) (front back : List Char) :
    ∃ before after, cut? pat (front ++ pat ++ back) = some (before, after) ∧ before <+: front := by
  induction front with
  | nil =>
    obtain ⟨p, ps, rfl⟩ := List.exists_cons_of_ne_nil hpat
    have hstrip : strip? (p :: ps) (p :: (ps ++ back)) = some back := strip?_eq_some_iff.2 rfl
    refine ⟨[], back, ?_, [], rfl⟩
    rw [List.nil_append, List.cons_append, cut?, if_neg hpat, hstrip]
  | cons c front ih =>
    obtain ⟨before, after, hcut, hstarts⟩ := ih
    rw [List.cons_append, List.cons_append, cut?, if_neg hpat]
    cases strip? pat (c :: (front ++ pat ++ back)) with
    | some rest => exact ⟨[], rest, rfl, c :: front, rfl⟩
    | none =>
      refine ⟨c :: before, after, ?_, List.cons_prefix_cons.2 ⟨rfl, hstarts⟩⟩
      rw [hcut]
      rfl

theorem prefix_of_cut? (h : cut? pat (front ++ pat ++ back) = some (before, after)) :
    before <+: front := by
  obtain ⟨before', after', hcut, hstarts⟩ := exists_cut? (eq_of_cut? h).1 front back
  cases h.symm.trans hcut
  exact hstarts

theorem not_infix_of_cut?_eq_none (hpat : pat ≠ []) (h : cut? pat cs = none) : ¬pat <:+: cs := by
  rintro ⟨front, back, rfl⟩
  obtain ⟨before, after, hcut, -⟩ := exists_cut? hpat front back
  cases h.symm.trans hcut

theorem not_infix_of_cut?_eq_some (h : cut? pat cs = some (before, after)) :
    ¬pat <:+: before := by
  rintro ⟨front, back, rfl⟩
  obtain ⟨hpat, hcs⟩ := eq_of_cut? h
  have hlater : cs = front ++ pat ++ (back ++ pat ++ after) := by
    rw [hcs]
    simp only [List.append_assoc]
  rw [hlater] at h
  have hle := (prefix_of_cut? h).length_le
  have hpos := List.length_pos_iff.2 hpat
  simp only [List.length_append] at hle
  omega

theorem byteLength_lt_of_not_prefix (h : front ++ back = before ++ after)
    (hnot : ¬front <+: before) : byteLength before < byteLength front := by
  rcases List.append_eq_append_iff.1 h with ⟨more, hbefore, -⟩ | ⟨more, hfront, -⟩
  · exact absurd ⟨more, hbefore.symm⟩ hnot
  · have hmore : byteLength more ≠ 0 := by
      intro hzero
      rw [byteLength_eq_zero.1 hzero, List.append_nil] at hfront
      exact hnot ⟨[], by rw [hfront, List.append_nil]⟩
    rw [hfront, byteLength_append]
    omega

end Text

namespace Piece

variable {left right rest tail source : List Char} {a : ActionText} {p : Piece}

/-- How a piece shows what it is: only what is not text has a left delimiter, in front, and what
can be read has a right one at its end. -/
def Delimited (left right : List Char) : Piece → Prop
  | text cs => ¬left <:+: cs
  | action a => left <+: a.raw ∧ right <:+ a.raw
  | malformed _ cs => left <+: cs

theorem read_ends (h : read left right rest = (action a, tail)) : right <:+ a.raw := by
  have hclosing : right <:+ a.closing := by
    unfold read at h
    dsimp only at h
    split at h
    · rw [readComment_closing h]
      exact List.suffix_append _ _
    · rw [readPlain_closing h]
      exact List.suffix_append _ _
  exact hclosing.trans (List.suffix_append _ _)

theorem isText_read (left right rest : List Char) : (read left right rest).1.isText = false := by
  unfold read readComment readPlain
  dsimp only
  repeat' split
  all_goals rfl

theorem delimited_read (left right rest : List Char) :
    (read left right rest).1.Delimited left right := by
  have hstarts := read_starts left right rest
  have htext := isText_read left right rest
  cases hread : read left right rest with
  | mk p tail =>
    rw [hread] at hstarts htext
    cases p with
    | text cs => cases htext
    | action a => exact ⟨hstarts, read_ends hread⟩
    | malformed fault cs => exact hstarts

theorem delimited_of_mem_ofText {cs : List Char} (hcs : ¬left <:+: cs) (h : p ∈ ofText cs) :
    p.Delimited left right := by
  unfold ofText at h
  split at h
  · cases h
  · cases List.mem_singleton.1 h
    exact hcs

theorem delimited_of_mem_scan (hleft : left ≠ []) (h : p ∈ scan left right source) :
    p.Delimited left right := by
  fun_induction scan left right source with
  | case1 source hcut => exact delimited_of_mem_ofText (not_infix_of_cut?_eq_none hleft hcut) h
  | case2 source before after hcut ih =>
    rcases List.mem_append.1 h with h | h
    · exact delimited_of_mem_ofText (not_infix_of_cut?_eq_some hcut) h
    · rcases List.mem_cons.1 h with rfl | h
      · exact delimited_read left right after
      · exact ih h

/-- A left delimiter begins in a piece that is not text, also if it does not end there. -/
theorem exists_of_occurrence (hleft : left ≠ []) {front back : List Char}
    (h : source = front ++ left ++ back) :
    ∃ ps p qs, scan left right source = ps ++ p :: qs ∧ p.isText = false ∧
      byteLength (ps.flatMap raw) ≤ byteLength front ∧
        byteLength front < byteLength (ps.flatMap raw) + byteLength p.raw := by
  fun_induction scan left right source generalizing front with
  | case1 source hcut =>
    exact absurd ⟨front, back, h.symm⟩ (not_infix_of_cut?_eq_none hleft hcut)
  | case2 source before after hcut ih =>
    subst h
    obtain ⟨middle, rfl⟩ := prefix_of_cut? hcut
    have hrest : (read left right after).1.raw ++ (read left right after).2 =
        middle ++ left ++ back := by
      have hsource := (eq_of_cut? hcut).2
      simp only [List.append_assoc, List.append_cancel_left_eq] at hsource
      rw [read_append, ← hsource, List.append_assoc]
    by_cases hstarts : (read left right after).1.raw <+: middle
    · obtain ⟨front, rfl⟩ := hstarts
      simp only [List.append_assoc, List.append_cancel_left_eq] at hrest
      obtain ⟨ps, p, qs, hscan, htext, hle, hlt⟩ := ih (by rw [hrest, List.append_assoc])
      refine ⟨ofText before ++ (read left right after).1 :: ps, p, qs, ?_, htext, ?_, ?_⟩
      · rw [hscan, List.append_assoc, List.cons_append]
      all_goals
        simp only [List.flatMap_append, List.flatMap_cons, flatMap_raw_ofText, byteLength_append]
        omega
    · rw [List.append_assoc] at hrest
      have hlonger := byteLength_lt_of_not_prefix hrest hstarts
      refine ⟨ofText before, _, _, rfl, isText_read left right after, ?_, ?_⟩
      all_goals
        simp only [flatMap_raw_ofText, byteLength_append]
        omega

theorem mem_zip_spans (start : Nat) (ps : List Piece) (p : Piece) (qs : List Piece) :
    (p, ⟨start + byteLength (ps.flatMap raw),
        start + byteLength (ps.flatMap raw) + byteLength p.raw⟩) ∈
      (ps ++ p :: qs).zip (spans start (ps ++ p :: qs)) := by
  induction ps generalizing start with
  | nil => exact List.mem_cons_self
  | cons q ps ih =>
    rw [List.flatMap_cons, byteLength_append, ← Nat.add_assoc]
    exact List.mem_cons_of_mem _ (ih _)

end Piece

namespace Template

variable {d : Delimiters} {source : String} {index : Nat} {n : Node} {p : Piece} {s : Span}

theorem isText_eq (hn : (parse d source).nodes[index]? = some n)
    (hp : (Piece.placed d source)[index]? = some (p, s)) : n.isText = p.isText := by
  obtain ⟨p', hp', -, hbody⟩ := exists_read_of_getElem? hn
  cases hp.symm.trans hp'
  rw [Bool.eq_iff_iff, Node.isText, decide_eq_true_iff, ← NodeBody.read_eq_text_iff]
  rcases hbody with hbody | ⟨hplain, hread⟩
  · rw [hbody]
  · constructor
    · intro htext
      rw [htext] at hplain
      cases hplain
    · intro htext
      rw [htext] at hread
      cases hread

theorem exists_node_of_placed (h : (p, s) ∈ Piece.placed d source) :
    ∃ n ∈ (parse d source).nodes, n.span = s ∧ n.isText = p.isText := by
  obtain ⟨index, hindex⟩ := List.mem_iff_getElem?.1 h
  have hplace := congrArg (fun places => places[index]?) (map_place_parse d source)
  simp only [List.getElem?_map, hindex, Option.map_some] at hplace
  obtain ⟨n, hn, heq⟩ := Option.map_eq_some_iff.1 hplace
  exact ⟨n, List.mem_of_getElem? hn, (Prod.mk.inj heq).2, isText_eq hn hindex⟩

/-- Reading resumes where the last piece ends: no text holds a left delimiter, everything else
begins with one, and what can be read ends with a right one. Nor does a delimiter begin in a text to
end in the next node. -/
theorem no_opening_is_missed {d : Delimiters} (hleft : d.left ≠ "") (source : String) :
    (∀ n ∈ (parse d source).nodes,
      (n.isText = true → ¬d.left.toList <:+: n.raw.toList) ∧
      (n.isText = false → d.left.toList <+: n.raw.toList) ∧
      (n.isText = false → (∀ error, n.body ≠ .malformed error) →
        d.right.toList <:+ n.raw.toList)) ∧
    ∀ front back, source.toList = front ++ d.left.toList ++ back →
      ∃ n ∈ (parse d source).nodes, n.isText = false ∧
        n.span.start ≤ byteLength front ∧ byteLength front < n.span.stop := by
  have hchars : d.left.toList ≠ [] := by
    intro h
    exact hleft (String.toList_eq_nil_iff.1 h)
  constructor
  · intro n hn
    obtain ⟨index, hindex⟩ := List.mem_iff_getElem?.1 hn
    obtain ⟨p, hp, hraw, hbody⟩ := exists_read_of_getElem? hindex
    have hdelimited : p.Delimited d.left.toList d.right.toList :=
      Piece.delimited_of_mem_scan hchars (List.of_mem_zip (List.mem_of_getElem? hp)).1
    rw [isText_eq hindex hp, hraw, String.toList_ofList]
    cases p with
    | text cs => exact ⟨fun _ => hdelimited, Bool.noConfusion, Bool.noConfusion⟩
    | action a => exact ⟨Bool.noConfusion, fun _ => hdelimited.1, fun _ _ => hdelimited.2⟩
    | malformed fault cs =>
      refine ⟨Bool.noConfusion, fun _ => hdelimited, fun _ hread => ?_⟩
      rcases hbody with hbody | ⟨-, hplain⟩
      · exact absurd hbody (hread (.fault fault))
      · cases hplain
  · intro front back hsource
    obtain ⟨ps, p, qs, hscan, htext, hle, hlt⟩ := Piece.exists_of_occurrence hchars hsource
    have hplaced := Piece.mem_zip_spans 0 ps p qs
    rw [← hscan] at hplaced
    obtain ⟨n, hn, hspan, hkind⟩ := exists_node_of_placed hplaced
    refine ⟨n, hn, hkind.trans htext, ?_, ?_⟩
    all_goals
      rw [hspan]
      dsimp only
      omega

theorem no_opening_is_missed_of_bad_comment :
    let d : Delimiters := {}
    let source := "a" ++ d.actions ["/*b*/ ", " .C "]
    let tail : Node := ⟨" " ++ d.right, ⟨8, 11⟩, ⟨1, 9⟩, .text⟩
    d.left ≠ "" ∧ tail ∈ (parse d source).nodes ∧ ¬d.left.toList <:+: tail.raw.toList ∧
      ∃ n ∈ (parse d source).nodes, n.isText = false ∧ n.span.start ≤ 11 ∧ 11 < n.span.stop := by
  intro d source tail
  have hleft : d.left ≠ "" := by decide
  have htail : tail ∈ (parse d source).nodes := by decide +kernel
  obtain ⟨hnodes, hopenings⟩ := no_opening_is_missed hleft source
  have hopening := hopenings ("a" ++ d.wrap "/*b*/ ").toList (" .C " ++ d.right).toList
    (by decide +kernel)
  have hlength : byteLength ("a" ++ d.wrap "/*b*/ ").toList = 11 := by decide +kernel
  rw [hlength] at hopening
  exact ⟨hleft, htail, (hnodes tail htail).1 rfl, hopening⟩

end Template
end TemplateLint
