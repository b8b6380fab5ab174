import TemplateLint.Proofs.PathSpelling

/-! The text under the cursor. What hovering reports stands at the place that it reports, with the
cursor on it, except that a path is printed anew: then the two agree exactly if the path is written
as it prints. -/
namespace TemplateLint
open Text

namespace Text

variable {n : Nat} {pat cs : List Char}

theorem exists_of_lastOffset? (h : lastOffset? pat cs = some n) :
    ∃ before after, cs = before ++ pat ++ after ∧ byteLength before = n := by
  induction cs generalizing n with
  | nil =>
    unfold lastOffset? at h
    split at h
    · next hpat =>
      cases h
      exact ⟨[], [], by simp [hpat], rfl⟩
    · cases h
  | cons c cs ih =>
    unfold lastOffset? at h
    split at h
    · next hlast =>
      cases h
      obtain ⟨before, after, rfl, rfl⟩ := ih hlast
      exact ⟨c :: before, after, by simp, rfl⟩
    · split at h
      · next hstrip =>
        cases h
        obtain ⟨rest, hrest⟩ := Option.isSome_iff_exists.1 hstrip
        exact ⟨[], rest, strip?_eq_some_iff.1 hrest, rfl⟩
      · cases h

end Text

namespace Path

theorem exists_upTo (p : Path) (offset : Nat) :
    ∃ k, p.upTo offset = p.take k ∧ (p.root = .dot → p.segments ≠ [] → 0 < k) ∧
      (offset < byteLength (p.upTo offset).chars ∨ p.segments.length ≤ k) := by
  unfold upTo
  dsimp only
  cases hfind : List.find? _ _ with
  | none =>
    refine ⟨p.segments.length, ?_, fun _ hne => List.length_pos_iff.2 hne, .inr le_rfl⟩
    simp [take]
  | some q =>
    obtain ⟨k, hk, rfl⟩ := List.mem_map.1 (List.mem_of_find?_eq_some hfind)
    refine ⟨k, rfl, ?_, .inl (by simpa using List.find?_some hfind)⟩
    intro hroot hne
    rw [if_pos ⟨hroot, hne⟩] at hk
    obtain ⟨i, _, rfl⟩ := List.mem_drop_iff_getElem.1 hk
    rw [List.getElem_range]
    omega

end Path

/-- The cursor at `offset` is in a node whose pipeline `text` stands at `base`, and there on the
part `target` of the pipeline, on nothing smaller. -/
structure Pointed (o : Options) (source : String) (offset : Nat) (text : String) (base : Nat)
    (target : Expr) : Prop where
  node : ∃ index n, (Template.parse o.delimiters source).nodeAt? offset = some (index, n) ∧
    n.body.pipeline? = some text ∧ n.span.start ≤ base ∧
    base + byteLength text.toList ≤ n.span.stop
  slice : slice? ⟨base, base + byteLength text.toList⟩ source.toList = some text.toList
  le : base ≤ offset
  part : ∃ e, Expr.parse text = .ok e ∧ e.at? (offset - base) = some target

section

variable {o : Options} {ctx : Context} {source text : String} {offset base : Nat} {h : Hover}
  {n : Node} {target : Expr}

theorem Template.mem_of_nodeAt? {t : Template} {index : Nat}
    (h : t.nodeAt? offset = some (index, n)) : n ∈ t.nodes := by
  obtain ⟨⟨m, i⟩, hfind, heq⟩ := Option.map_eq_some_iff.1 h
  cases heq
  exact List.fst_mem_of_mem_zipIdx (List.mem_of_find?_eq_some hfind)

theorem exists_slice_of_lastOffset? {n : Node} {k : Nat}
    (hn : n ∈ (Template.parse o.delimiters source).nodes)
    (hk : lastOffset? text.toList n.raw.toList = some k) :
    n.span.start + k + byteLength text.toList ≤ n.span.stop ∧
      slice? ⟨n.span.start + k, n.span.start + k + byteLength text.toList⟩ source.toList =
        some text.toList := by
  obtain ⟨p, hp, hraw⟩ := Template.exists_piece_of_mem hn
  obtain ⟨before, after, hsource, hspan⟩ :=
    slice?_eq_some_iff.1 (Piece.slice?_of_mem_placed hp)
  rw [hraw, String.toList_ofList] at hk
  obtain ⟨front, back, hsplit, rfl⟩ := exists_of_lastOffset? hk
  rw [hsplit] at hsource hspan
  rw [hspan]
  simp only [byteLength_append]
  refine ⟨by omega, slice?_eq_some_iff.2 ⟨before ++ front, back ++ after, ?_, ?_⟩⟩
  · rw [hsource]
    simp only [List.append_assoc]
  · rw [byteLength_append]

theorem exists_of_hover? (hh : hover? o ctx source offset = some h) :
    ∃ text base target, Pointed o source offset text base target ∧
      ((∃ p, target.asPath? = some p ∧
          h.text = (p.upTo (offset - (base + target.span.start))).toString ∧
          h.span = ⟨base + target.span.start, base + target.span.start +
            byteLength (p.upTo (offset - (base + target.span.start))).chars⟩) ∨
        target.asPath? = none ∧ slice? target.span text.toList = some h.text.toList ∧
          h.span = ⟨base + target.span.start, base + target.span.stop⟩) := by
  unfold hover? at hh
  dsimp only at hh
  obtain ⟨⟨index, n⟩, hnode, hh⟩ := Option.bind_eq_some_iff.1 hh
  obtain ⟨text, htext, hh⟩ := Option.bind_eq_some_iff.1 hh
  dsimp only at hh
  split at hh
  · cases hh
  · obtain ⟨k, hk, hh⟩ := Option.bind_eq_some_iff.1 hh
    obtain ⟨e, he, hh⟩ := Option.bind_eq_some_iff.1 hh
    split at hh
    · cases hh
    · next hle =>
      obtain ⟨target, htarget, hh⟩ := Option.bind_eq_some_iff.1 hh
      obtain ⟨hstop, hslice⟩ := exists_slice_of_lastOffset? (Template.mem_of_nodeAt? hnode) hk
      refine ⟨text, n.span.start + k, target, ⟨⟨index, n, hnode, htext, by omega, hstop⟩, hslice,
        by omega, e, toOption_eq_some.1 he, htarget⟩, ?_⟩
      split at hh
      · next p hp =>
        obtain ⟨ref, -, hh⟩ := Option.bind_eq_some_iff.1 hh
        cases hh
        exact .inl ⟨p, hp, rfl, rfl⟩
      · next hnone =>
        obtain ⟨type, -, hh⟩ := Option.bind_eq_some_iff.1 hh
        obtain ⟨part, hpart, hh⟩ := Option.bind_eq_some_iff.1 hh
        cases hh
        exact .inr ⟨hnone, by rw [hpart, String.toList_ofList], rfl⟩

end

theorem Expr.Reads.upTo_iff_verbatim {text : String} {tokens own : List Token} {s : Span} {p : Path}
    {cs before after shown : List Char} {offset start : Nat} (h : Reads own (.path s p))
    (htokens : tokenize 0 text.toList = .ok tokens) (hown : own <:+: tokens)
    (hcs : cs = before ++ text.toList ++ after) (hstart : start = byteLength before + s.start)
    (hshown : shown = (p.upTo (offset - start)).chars) (hle : start ≤ offset)
    (hstop : offset ≤ byteLength before + s.stop) :
    (slice? ⟨start, start + byteLength shown⟩ cs = some shown ∧
        Span.contains ⟨start, start + byteLength shown⟩ offset = true) ↔
      p.Verbatim own (s.start + byteLength shown) := by
  obtain ⟨written, hwritten, hall⟩ := h.exists_verbatim_iff htokens hown
  obtain ⟨k, hupTo, hk, hreach⟩ := p.exists_upTo (offset - start)
  rw [← hshown] at hreach
  have htaken : shown = (p.take k).chars := hshown.trans (congrArg Path.chars hupTo)
  obtain ⟨front, back, htext, hspan⟩ := slice?_eq_some_iff.1 hwritten
  have hsplit : cs = (before ++ front) ++ (written ++ (back ++ after)) := by
    rw [hcs, htext]
    simp only [List.append_assoc]
  have hplace : start = byteLength (before ++ front) := by rw [hstart, hspan, byteLength_append]
  obtain ⟨hiff, hwhole⟩ := hall k (back ++ after) hk
  rw [← htaken] at hiff hwhole
  rw [hplace, slice?_iff_isPrefix hsplit, ← hplace, ← hiff]
  refine and_iff_left_of_imp fun hstarts => ?_
  have hlast : offset ≤ start + byteLength shown := by
    rcases hreach with hreach | hreach
    · omega
    · rw [hspan, hwhole hstarts hreach, ← Nat.add_assoc, ← byteLength_append, ← hplace] at hstop
      exact hstop
  simp only [Span.contains, Bool.and_eq_true, decide_eq_true_eq]
  exact ⟨hle, hlast⟩

/-- Hovering reports the text at the place that it reports, and the cursor is on that place, unless
the path that it reports is not written as it prints. -/
theorem hover_text_is_source_iff_verbatim {o : Options} {ctx : Context} {source : String}
    {offset : Nat} {h : Hover} (hh : hover? o ctx source offset = some h) :
    ∃ text base target tokens own, Pointed o source offset text base target ∧
      Expr.tokenize 0 text.toList = .ok tokens ∧ own <:+: tokens ∧ target.span.Covers own ∧
      h.span.start = base + target.span.start ∧
      ((slice? h.span source.toList = some h.text.toList ∧ h.span.contains offset = true) ↔
        ∀ p, target.asPath? = some p → p.Verbatim own (h.span.stop - base)) := by
  obtain ⟨text, base, target, hpointed, hcases⟩ := exists_of_hover? hh
  obtain ⟨e, hparse, htarget⟩ := hpointed.part
  obtain ⟨tokens, htokens, hreads⟩ := Expr.exists_reads_of_parse hparse
  obtain ⟨hmem, hcontains⟩ := List.mem_filter.1 (List.mem_of_getLast? htarget)
  obtain ⟨own, hown, htargetReads⟩ := hreads.exists_of_mem_parts hmem
  have hle := hpointed.le
  obtain ⟨hlow, hhigh⟩ : target.span.start ≤ offset - base ∧ offset - base ≤ target.span.stop := by
    simpa [Span.contains] using hcontains
  obtain ⟨before, after, hsource, hplace⟩ := slice?_eq_some_iff.1 hpointed.slice
  obtain ⟨rfl, -⟩ := Span.mk.inj hplace
  refine ⟨text, byteLength before, target, tokens, own, hpointed, htokens, hown,
    htargetReads.covers, ?_, ?_⟩
  · rcases hcases with ⟨_, -, -, hspan⟩ | ⟨-, -, hspan⟩ <;> rw [hspan]
  · rcases hcases with ⟨p, hp, htext, hspan⟩ | ⟨hnone, hslice, hspan⟩
    · cases target with
      | path s p' =>
        cases hp
        dsimp only [Expr.span] at hlow hhigh hspan htext
        have hiff := htargetReads.upTo_iff_verbatim htokens hown hsource rfl rfl (by omega)
          (by omega : offset ≤ byteLength before + s.stop)
        rw [hspan, htext, Path.toString, String.toList_ofList, hiff]
        simp only [Expr.asPath?, Option.some_inj, forall_eq', Nat.add_assoc,
          Nat.add_sub_cancel_left]
      | literal | call | method | chain | pipeline => cases hp
    · rw [hspan]
      refine iff_of_true ⟨slice?_shift hsource hslice, ?_⟩ ?_
      · simp only [Span.contains, Bool.and_eq_true, decide_eq_true_eq]
        omega
      · intro p hp
        cases hnone.symm.trans hp

theorem hover_text_is_source_iff_verbatim_of_header :
    let source := "é" ++ Delimiters.wrap {} " if eq (.A) .M[\"k\"].N.P "
    let item : TypeNode := .structure_ "" "Item" [.structure_ "N" "Part" [.scalar "P" "int"]]
    let ctx : Context :=
      { file := "page", root := .root [.scalar "A" "int", .map "M" (.scalar "" "string") item] }
    ∃ h, hover? {} ctx source 24 = some h ∧ h.text = ".M[\"k\"].N" ∧ h.span = ⟨16, 25⟩ ∧
      ∃ text base target tokens own, Pointed {} source 24 text base target ∧
        Expr.tokenize 0 text.toList = .ok tokens ∧ own <:+: tokens ∧ target.span.Covers own ∧
        ∀ p, target.asPath? = some p → p.Verbatim own (25 - base) := by
  intro source item ctx
  obtain ⟨hhover, hslice⟩ :
      (hover? {} ctx source 24).map (fun h => (h.text, h.span)) = some (".M[\"k\"].N", ⟨16, 25⟩) ∧
        slice? ⟨16, 25⟩ source.toList = some ".M[\"k\"].N".toList := by
    decide +kernel
  obtain ⟨h, hh, hshown⟩ := Option.map_eq_some_iff.1 hhover
  obtain ⟨htext, hspan⟩ := Prod.mk.inj hshown
  obtain ⟨text, base, target, tokens, own, hpointed, htokens, hown, hcovers, -, hiff⟩ :=
    hover_text_is_source_iff_verbatim hh
  rw [htext, hspan] at hiff
  exact ⟨h, hh, htext, hspan, text, base, target, tokens, own, hpointed, htokens, hown, hcovers,
    hiff.1 ⟨hslice, rfl⟩⟩

/-- A path in parentheses is reported with the place of its parenthesis. -/
theorem hover_counts_parenthesis_as_path :
    let source := Delimiters.wrap {} " (.A) "
    let ctx : Context := { file := "page", root := .root [.scalar "A" "string"] }
    (hover? {} ctx source 5).map (fun h => (h.text, h.span)) = some (".A", ⟨3, 5⟩) ∧
      slice? ⟨3, 5⟩ source.toList = some "(.".toList := by
  decide +kernel

end TemplateLint
