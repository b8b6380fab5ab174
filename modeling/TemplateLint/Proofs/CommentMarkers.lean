import TemplateLint.Proofs.Openings

/-! Trim markers at comments. The marker of an opening may be set off by any space from what comes
behind it. Behind a comment the marker of the closing is looked for as a text with a single space in
it, so other spaces do not set it off. -/
namespace TemplateLint
open Text

namespace Text

variable {pat before after : List Char}

/-- The first occurrence is found if none begins earlier, also not one that runs into it. -/
theorem cut?_of_first (hpat : pat ≠ []) (h : ¬pat <:+: before ++ pat.dropLast) :
    cut? pat (before ++ pat ++ after) = some (before, after) := by
  obtain ⟨front, back, hcut, more, rfl⟩ := exists_cut? hpat before after
  have heq := (eq_of_cut? hcut).2
  simp only [List.append_assoc, List.append_cancel_left_eq] at heq
  -- If characters are left over, the occurrence that was found begins earlier, and it ends before
  -- the last character of the given one.
  cases more with
  | nil =>
    rw [List.nil_append, List.append_cancel_left_eq] at heq
    rw [List.append_nil] at hcut ⊢
    rw [hcut, heq]
  | cons c more =>
    have hlong : pat.length ≤ (c :: more ++ pat.dropLast).length := by
      rw [List.length_append, List.length_dropLast, List.length_cons]
      omega
    have hstarts : c :: more ++ pat.dropLast <+: pat ++ back := by
      rw [← heq, List.prefix_append_right_inj]
      exact (List.dropLast_prefix pat).trans (List.prefix_append _ _)
    have hpat := List.prefix_of_prefix_length_le (List.prefix_append pat back) hstarts hlong
    rw [List.append_assoc] at h
    exact absurd (hpat.isInfix.trans (List.suffix_append _ _).isInfix) h

end Text

namespace Piece

variable {left right rest body : List Char} {w : Char}

theorem scan_of_absent (h : ¬left <:+: rest) : scan left right rest = ofText rest := by
  rw [scan]
  split
  · rfl
  · next before after hcut =>
    exact absurd ⟨before, after, (eq_of_cut? hcut).2.symm⟩ h

theorem scan_append (hleft : left ≠ []) (right rest : List Char) :
    scan left right (left ++ rest) =
      (read left right rest).1 :: scan left right (read left right rest).2 := by
  have hcut : cut? left ([] ++ left ++ rest) = some ([], rest) := by
    apply cut?_of_first hleft
    intro h
    have hle := h.length_le
    have hpos := List.length_pos_iff.2 hleft
    rw [List.nil_append, List.length_dropLast] at hle
    omega
  rw [scan]
  split
  · next hnone => cases hnone.symm.trans hcut
  · next hsome =>
    cases hsome.symm.trans hcut
    rfl

theorem cut?_comment (hbody : ¬['*', '/'] <:+: body) (after : List Char) :
    cut? ['*', '/'] (body ++ ['*', '/'] ++ after) = some (body, after) := by
  apply cut?_of_first (List.cons_ne_nil _ _)
  intro h
  rcases List.infix_concat_iff.1 h with h | h
  · obtain ⟨front, hfront⟩ := h
    have hlast := congrArg List.getLast? hfront
    simp at hlast
  · exact hbody h

theorem read_comment (left right rest : List Char) :
    read left right ('/' :: '*' :: rest) = readComment right left ['/', '*'] rest false := by
  simp [read, openMarker, strip?]

theorem read_marked_comment (hw : isTrimSpace w = true) (left right rest : List Char) :
    read left right ('-' :: w :: '/' :: '*' :: rest) =
      readComment right (left ++ ['-']) [w, '/', '*'] rest true := by
  have hslash : isTrimSpace '/' = false := by decide
  simp [read, openMarker, strip?, hw, hslash]

section

variable {opening lead after tail : List Char} {trimLeft : Bool}

theorem readComment_trimmed (hbody : ¬['*', '/'] <:+: body)
    (hspace : strip? (' ' :: '-' :: right) after = some tail) :
    readComment right opening lead (body ++ ['*', '/'] ++ after) trimLeft =
      (action ⟨opening, lead ++ body ++ ['*', '/'], ' ' :: '-' :: right, trimLeft, true, true⟩,
        tail) := by
  rw [readComment, cut?_comment hbody]
  dsimp only
  rw [hspace]

theorem readComment_closed (hbody : ¬['*', '/'] <:+: body)
    (hspace : strip? (' ' :: '-' :: right) after = none) (hright : strip? right after = some tail) :
    readComment right opening lead (body ++ ['*', '/'] ++ after) trimLeft =
      (action ⟨opening, lead ++ body ++ ['*', '/'], right, trimLeft, false, true⟩, tail) := by
  rw [readComment, cut?_comment hbody]
  dsimp only
  rw [hspace, hright]

theorem readComment_bare (hbody : ¬['*', '/'] <:+: body)
    (hspace : strip? (' ' :: '-' :: right) after = none) (hright : strip? right after = none) :
    readComment right opening lead (body ++ ['*', '/'] ++ after) trimLeft =
      (malformed .commentWithoutDelimiter (opening ++ (lead ++ body ++ ['*', '/'])), after) := by
  rw [readComment, cut?_comment hbody]
  dsimp only
  rw [hspace, hright]

end

theorem scan_marker (hbody : ¬['*', '/'] <:+: body) (hw : isTrimSpace w = true) :
    scan ['{', '{'] ['}', '}']
        (['{', '{'] ++ '/' :: '*' :: (body ++ ['*', '/'] ++ [w, '-', '}', '}'])) =
      if w = ' ' then
        [action ⟨['{', '{'], ['/', '*'] ++ body ++ ['*', '/'], [' ', '-', '}', '}'], false, true,
          true⟩]
      else
        [malformed .commentWithoutDelimiter (['{', '{'] ++ (['/', '*'] ++ body ++ ['*', '/'])),
          text [w, '-', '}', '}']] := by
  rw [scan_append (List.cons_ne_nil _ _), read_comment]
  split
  · next hspace =>
    subst hspace
    rw [readComment_trimmed hbody rfl, scan_of_absent (by simp)]
    rfl
  · next hspace =>
    have hright : w ≠ '}' := by
      rintro rfl
      cases hw
    have hleft : ¬['{', '{'] <:+: [w, '-', '}', '}'] := by
      intro h
      have hmem := h.subset List.mem_cons_self
      simp only [List.mem_cons, List.not_mem_nil, or_false, Char.reduceEq] at hmem
      subst hmem
      cases hw
    rw [readComment_bare hbody (by simp [strip?, Ne.symm hspace]) (by simp [strip?, hright.symm]),
      scan_of_absent hleft]
    rfl

theorem scan_opening_marker (hbody : ¬['*', '/'] <:+: body) (hw : isTrimSpace w = true) :
    scan ['{', '{'] ['}', '}']
        (['{', '{'] ++ '-' :: w :: '/' :: '*' :: (body ++ ['*', '/'] ++ ['}', '}'])) =
      [action ⟨['{', '{', '-'], [w, '/', '*'] ++ body ++ ['*', '/'], ['}', '}'], true, false,
        true⟩] := by
  rw [scan_append (List.cons_ne_nil _ _), read_marked_comment hw, readComment_closed hbody rfl rfl,
    scan_of_absent (by simp)]
  rfl

theorem placed_eq {source : String} {pieces : List Piece}
    (h : scan ['{', '{'] ['}', '}'] source.toList = pieces) :
    placed {} source = pieces.zip (spans 0 pieces) := by
  unfold placed
  dsimp only
  rw [← h]
  rfl

theorem placed_singleton {source : String} {p : Piece}
    (h : scan ['{', '{'] ['}', '}'] source.toList = [p]) :
    placed {} source = [(p, ⟨0, source.utf8ByteSize⟩)] := by
  have hraw := flatMap_raw_scan ['{', '{'] ['}', '}'] source.toList
  rw [h, List.flatMap_singleton] at hraw
  rw [placed_eq h, utf8ByteSize_eq, ← hraw, ← Nat.zero_add (byteLength p.raw)]
  rfl

/-- Behind a comment the trim marker counts if it is set off by a space, and not if it is set off by
a tab or a line break: the comment is then refused and what is left of the action is text. In front
of a comment there is no such difference. -/
theorem comment_marker_needs_space {c : String} (hc : ¬"*/".toList <:+: c.toList) {w : Char}
    (hw : isTrimSpace w = true) :
    let d : Delimiters := {}
    let comment := d.left ++ "/*" ++ c ++ "*/"
    let source := comment ++ String.singleton w ++ "-" ++ d.right
    let other := d.left ++ "-" ++ String.singleton w ++ "/*" ++ c ++ "*/" ++ d.right
    ((∃ a, placed {} source = [(action a, ⟨0, source.utf8ByteSize⟩)] ∧
      a.comment = true ∧ a.trimRight = true) ↔ w = ' ') ∧
    (w ≠ ' ' → placed {} source =
      [(malformed .commentWithoutDelimiter comment.toList, ⟨0, comment.utf8ByteSize⟩),
        (text [w, '-', '}', '}'], ⟨comment.utf8ByteSize, source.utf8ByteSize⟩)]) ∧
    ∃ a, placed {} other = [(action a, ⟨0, other.utf8ByteSize⟩)] ∧
      a.comment = true ∧ a.trimLeft = true := by
  intro d comment source other
  have hcomment : comment.toList = ['{', '{'] ++ (['/', '*'] ++ c.toList ++ ['*', '/']) := by
    simp [comment, d]
  have htail : source.toList = comment.toList ++ [w, '-', '}', '}'] := by
    simp [source, d]
  have hsource : source.toList =
      ['{', '{'] ++ '/' :: '*' :: (c.toList ++ ['*', '/'] ++ [w, '-', '}', '}']) := by
    simp [htail, hcomment]
  have hother : other.toList =
      ['{', '{'] ++ '-' :: w :: '/' :: '*' :: (c.toList ++ ['*', '/'] ++ ['}', '}']) := by
    simp [other, d]
  have hopening := scan_opening_marker hc hw
  have hscan := scan_marker hc hw
  rw [← hsource, ← hcomment] at hscan
  have hrefused (hspace : w ≠ ' ') : placed {} source =
      [(malformed .commentWithoutDelimiter comment.toList, ⟨0, comment.utf8ByteSize⟩),
        (text [w, '-', '}', '}'], ⟨comment.utf8ByteSize, source.utf8ByteSize⟩)] := by
    rw [if_neg hspace] at hscan
    rw [placed_eq hscan, utf8ByteSize_eq, utf8ByteSize_eq, htail, byteLength_append,
      ← Nat.zero_add (byteLength comment.toList)]
    rfl
  refine ⟨⟨?_, ?_⟩, hrefused, ?_⟩
  · rintro ⟨a, ha, -⟩
    by_cases hspace : w = ' '
    · exact hspace
    · cases ha.symm.trans (hrefused hspace)
  · intro hspace
    rw [if_pos hspace] at hscan
    exact ⟨_, placed_singleton hscan, rfl, rfl⟩
  · rw [← hother] at hopening
    exact ⟨_, placed_singleton hopening, rfl, rfl⟩

theorem comment_marker_needs_space_of_line :
    let d : Delimiters := {}
    let inner := " \"" ++ d.right ++ " /* *"
    let comment := d.left ++ "/*" ++ inner ++ "*/"
    ¬"*/".toList <:+: inner.toList ∧ isTrimSpace ' ' = true ∧ isTrimSpace '\n' = true ∧
    (∃ a, placed {} (comment ++ String.singleton ' ' ++ "-" ++ d.right) = [(action a, ⟨0, 19⟩)] ∧
      a.comment = true ∧ a.trimRight = true) ∧
    placed {} (comment ++ String.singleton '\n' ++ "-" ++ d.right) =
      [(malformed .commentWithoutDelimiter comment.toList, ⟨0, 15⟩),
        (text ['\n', '-', '}', '}'], ⟨15, 19⟩)] := by
  intro d inner comment
  have hc : ¬"*/".toList <:+: inner.toList := by decide +kernel
  have hspace : isTrimSpace ' ' = true := by decide
  have hline : isTrimSpace '\n' = true := by decide
  exact ⟨hc, hspace, hline, (comment_marker_needs_space hc hspace).1.2 rfl,
    (comment_marker_needs_space hc hline).2.1 (by decide)⟩

theorem tab_hides_comment_marker :
    let d : Delimiters := {}
    let source := d.wrap "/* c */\t-"
    isTrimSpace '\t' = true ∧ ¬"*/".toList <:+: " c ".toList ∧
      placed {} source =
        [(malformed .commentWithoutDelimiter (d.left ++ "/* c */").toList, ⟨0, 9⟩),
          (text ("\t-" ++ d.right).toList, ⟨9, 13⟩)] ∧
      ¬∃ a, placed {} source = [(action a, ⟨0, 13⟩)] := by
  intro d source
  have h : placed {} source =
      [(malformed .commentWithoutDelimiter (d.left ++ "/* c */").toList, ⟨0, 9⟩),
        (text ("\t-" ++ d.right).toList, ⟨9, 13⟩)] := by decide +kernel
  refine ⟨by decide, by decide +kernel, h, ?_⟩
  rintro ⟨a, ha⟩
  cases ha.symm.trans h

end Piece
end TemplateLint
