import TemplateLint.Proofs.Spelling
import TemplateLint.Proofs.Tiling

/-! The places of the parts of an expression. A part stands inside of what it is part of, parts of
one expression follow each other, and the text at the place of a part is read as that part. So the
part found at an offset is the innermost one there. -/
namespace TemplateLint
open Text

namespace Expr

section

variable {e x : Expr} {es : List Expr} {tokens own : List Token}

theorem parts_eq (e : Expr) : e.parts = e :: e.children.flatMap parts := by
  cases e <;> simp [parts, children, partsOfAll_eq_flatMap]

theorem induct_children {motive : Expr → Prop}
    (step : ∀ e, (∀ c ∈ e.children, motive c) → motive e) (e : Expr) : motive e := by
  induction e with
  | path | literal =>
    apply step
    simp [children]
  | call _ _ _ ih | method _ _ _ _ ih | pipeline _ _ ih => exact step _ ih
  | chain _ _ _ ih => exact step _ (by simpa [children] using ih)

theorem Holds.exists_own (h : Holds tokens es) :
    ∀ e ∈ es, ∃ own, own <:+: tokens ∧ Reads own e := by
  induction h with
  | nil => simp
  | @cons front own tokens e es first _ ih =>
    rw [List.forall_mem_cons]
    refine ⟨⟨own, ⟨front, tokens, by simp⟩, first⟩, ?_⟩
    intro e' he'
    obtain ⟨own', hown, hreads⟩ := ih e' he'
    have htokens : tokens <:+: front ++ (own ++ tokens) := ⟨front ++ own, [], by simp⟩
    exact ⟨own', hown.trans htokens, hreads⟩

theorem Holds.ordered (h : Holds tokens es) (hplaced : Token.Placed tokens) :
    es.Pairwise fun a b => a.span.stop ≤ b.span.start := by
  induction h with
  | nil => exact .nil
  | @cons front own tokens e es first rest ih =>
    have hplaced' := hplaced.sublist (List.sublist_append_right front (own ++ tokens))
    have hafter := (List.pairwise_append.1 hplaced'.ordered).2.2
    refine List.pairwise_cons.2 ⟨?_, ih (hplaced'.sublist (List.sublist_append_right own tokens))⟩
    intro e' he'
    obtain ⟨own', hown, hreads⟩ := rest.exists_own e' he'
    obtain ⟨last, hlast, hstop⟩ := first.covers.2
    obtain ⟨head, hhead, hstart⟩ := hreads.covers.1
    have hle := hafter last (List.mem_of_getLast? hlast) head
      (hown.subset (List.mem_of_mem_head? hhead))
    omega

theorem Reads.exists_of_mem_parts (h : Reads tokens e) (hx : x ∈ e.parts) :
    ∃ own, own <:+: tokens ∧ Reads own x := by
  induction e using induct_children generalizing tokens with
  | step e ih =>
    rw [parts_eq, List.mem_cons, List.mem_flatMap] at hx
    rcases hx with rfl | ⟨c, hc, hx⟩
    · exact ⟨tokens, List.infix_rfl, h⟩
    · obtain ⟨own, hown, hreads⟩ := h.holds_children.exists_own c hc
      obtain ⟨own', hown', hreads'⟩ := ih c hc hreads hx
      exact ⟨own', hown'.trans hown, hreads'⟩

theorem Reads.within (h : Reads tokens e) (hplaced : Token.Placed tokens) (hown : own <:+: tokens)
    (hx : Reads own x) : e.span.start ≤ x.span.start ∧ x.span.stop ≤ e.span.stop := by
  obtain ⟨⟨first, hfirst, hstart⟩, last, hlast, hstop⟩ := hx.covers
  have hfirst' := hplaced.within h.covers (hown.subset (List.mem_of_mem_head? hfirst))
  have hlast' := hplaced.within h.covers (hown.subset (List.mem_of_getLast? hlast))
  omega

end

section

variable {tokens : List Token} {pipes : Prop} {depth d : Nat} {e x : Expr}

theorem keepsAll_map_shift (h : KeepsAll pipes depth (tokens.map (Token.shift d))) :
    KeepsAll pipes depth tokens := by
  induction tokens generalizing depth with
  | nil => exact trivial
  | cons t tokens ih => exact ⟨h.1, ih h.2⟩

theorem Reads.exists_shift (h : Reads (tokens.map (Token.shift d)) x) :
    ∃ y, Reads tokens y ∧ y.shift d = x := by
  obtain ⟨level, hruns, hfinish⟩ := h
  let p : Place := { offset := d }
  have hkeeps : KeepsAll (p.base = {}) 0 tokens :=
    keepsAll_map_shift (Reading.keepsAll_of_run hruns (.inl rfl)).1
  have hclear : ∀ t ∈ tokens.head?, p.Clear {} t := by
    intro t _ _ _ o ho
    cases ho
  have hplaced := Reading.run_placed hkeeps hclear
  obtain ⟨⟨level', outer⟩, hrun, hput⟩ := relocate_eq_ok.1 (hplaced.symm.trans hruns)
  cases outer with
  | cons => cases hput
  | nil =>
    cases hput
    have hmoved := hfinish (0 + d)
    rw [Level.above_empty, Level.finish_shift] at hmoved
    obtain ⟨y, hy, hshift⟩ := relocate_eq_ok.1 hmoved
    exact ⟨y, Runs.reads hrun hy, hshift⟩

theorem Reads.parse_eq {text : String} (htokens : tokenize 0 text.toList = .ok tokens)
    (h : Reads tokens e) : parse text = .ok e := by
  obtain ⟨level, hruns, hfinish⟩ := h
  obtain ⟨first, hfirst, -⟩ := (Runs.reads hruns (hfinish 0)).covers.1
  have hne : tokens ≠ [] := List.ne_nil_of_mem (List.mem_of_mem_head? hfirst)
  exact ofChars_eq_ok.2 ⟨tokens, ⟨level, []⟩, htokens, hne, hruns, rfl, hfinish _⟩

theorem exists_reads_of_parse {text : String} (h : parse text = .ok e) :
    ∃ tokens, tokenize 0 text.toList = .ok tokens ∧ Reads tokens e := by
  obtain ⟨tokens, ⟨level, outer⟩, htokens, -, hrun, houter, hfinish⟩ := ofChars_eq_ok.1 h
  cases houter
  exact ⟨tokens, htokens, Runs.reads hrun hfinish⟩

end

section

variable {e x : Expr} {es : List Expr} {offset : Nat}

theorem Reads.exists_slice {text : String} {tokens own : List Token}
    (h : Reads own x) (htokens : tokenize 0 text.toList = .ok tokens) (hown : own <:+: tokens) :
    ∃ slice y, slice? x.span text.toList = some slice ∧
      parse (String.ofList slice) = .ok y ∧ y.shift x.span.start = x := by
  obtain ⟨first, hfirst, -⟩ := h.covers.1
  have hne : own ≠ [] := List.ne_nil_of_mem (List.mem_of_mem_head? hfirst)
  obtain ⟨before, slice, after, own', hsplit, hslice, rfl, hcovers⟩ :=
    exists_slice_of_tokenize htokens hown hne
  have hspan := h.covers.unique hcovers
  obtain ⟨y, hy, hshift⟩ := h.exists_shift
  refine ⟨slice, y, slice?_eq_some_iff.2 ⟨before, after, hsplit, hspan⟩, hy.parse_eq ?_, ?_⟩
  · rw [String.toList_ofList, hslice]
  · rw [hspan, hshift]

theorem exists_of_getLast?_filter {p : Expr → Bool}
    (h : ((es.flatMap parts).filter p).getLast? = some x) :
    ∃ c ∈ es, (c.parts.filter p).getLast? = some x := by
  induction es with
  | nil => cases h
  | cons c es ih =>
    rw [List.flatMap_cons, List.filter_append, List.getLast?_append] at h
    rcases Option.or_eq_some_iff.1 h with hrest | ⟨-, hfirst⟩
    · obtain ⟨c', hc', hlast⟩ := ih hrest
      exact ⟨c', List.mem_cons_of_mem c hc', hlast⟩
    · exact ⟨c, List.mem_cons_self, hfirst⟩

/-- Parts come after what they are part of, so that the last one that touches the offset has no
other inside. -/
theorem not_contains_of_at? (h : e.at? offset = some x) :
    ∀ part ∈ x.parts.tail, part.span.contains offset = false := by
  unfold at? at h
  induction e using induct_children with
  | step e ih =>
    rw [parts_eq, ← List.singleton_append, List.filter_append, List.getLast?_append] at h
    rcases Option.or_eq_some_iff.1 h with hinner | ⟨hnone, hself⟩
    · obtain ⟨c, hc, hlast⟩ := exists_of_getLast?_filter hinner
      exact ih c hc hlast
    · obtain rfl : x = e := by
        have hx := List.mem_of_getLast? hself
        simpa using (List.mem_filter.1 hx).1
      rw [List.getLast?_eq_none_iff, List.filter_eq_nil_iff] at hnone
      intro part hpart
      rw [parts_eq] at hpart
      simpa using hnone part hpart

end

theorem Reads.at?_eq_none_iff {tokens : List Token} {e : Expr} {offset : Nat} (h : Reads tokens e)
    (hplaced : Token.Placed tokens) : e.at? offset = none ↔ e.span.contains offset = false := by
  rw [at?, List.getLast?_eq_none_iff, List.filter_eq_nil_iff]
  constructor
  · intro hnone
    have hself : e ∈ e.parts := by
      rw [parts_eq]
      exact List.mem_cons_self
    simpa using hnone e hself
  · intro houtside x hx
    obtain ⟨own, hown, hx⟩ := h.exists_of_mem_parts hx
    have hwithin := h.within hplaced hown hx
    simp only [Span.contains, Bool.and_eq_true, Bool.and_eq_false_iff, decide_eq_true_eq,
      decide_eq_false_iff_not] at houtside ⊢
    omega

/-- The places of the parts of an expression are true to the text, and looking up an offset finds
the innermost part there. -/
theorem spans_are_faithful {text : String} {e : Expr} (h : parse text = .ok e) :
    (∀ x ∈ e.parts,
      x.span.start < x.span.stop ∧
      (String.Pos.Raw.mk x.span.start).IsValid text ∧
      (String.Pos.Raw.mk x.span.stop).IsValid text ∧
      (∀ c ∈ x.children, x.span.start ≤ c.span.start ∧ c.span.stop ≤ x.span.stop) ∧
      (x.children.Pairwise fun a b => a.span.stop ≤ b.span.start) ∧
      ∃ slice y, slice? x.span text.toList = some slice ∧
        parse (String.ofList slice) = .ok y ∧ y.shift x.span.start = x) ∧
    ∀ offset, (e.at? offset = none ↔ e.span.contains offset = false) ∧
      ∀ x, e.at? offset = some x →
        x ∈ e.parts ∧ x.span.contains offset = true ∧
          ∀ part ∈ x.parts.tail, part.span.contains offset = false := by
  obtain ⟨tokens, htokens, hreads⟩ := exists_reads_of_parse h
  have hplaced := (lexed_of_tokenize htokens).placed
  constructor
  · intro x hx
    obtain ⟨own, hown, hx⟩ := hreads.exists_of_mem_parts hx
    have hplaced' := hplaced.sublist hown.sublist
    obtain ⟨slice, y, hslice, hparse, hshift⟩ := hx.exists_slice htokens hown
    refine ⟨hplaced'.proper_of_covers hx.covers, (Piece.isValid_of_slice? hslice).1,
      (Piece.isValid_of_slice? hslice).2, ?_, hx.holds_children.ordered hplaced',
      slice, y, hslice, hparse, hshift⟩
    intro c hc
    obtain ⟨own', hown', hc⟩ := hx.holds_children.exists_own c hc
    exact hx.within hplaced' hown' hc
  · intro offset
    refine ⟨hreads.at?_eq_none_iff hplaced, ?_⟩
    intro x hx
    obtain ⟨hmem, hcontains⟩ := List.mem_filter.1 (List.mem_of_getLast? hx)
    exact ⟨hmem, hcontains, not_contains_of_at? hx⟩

theorem spans_are_faithful_of_chain :
    let text := " print (a | .B \"é\").C (1)|.D 2 "
    ∃ e, parse text = .ok e ∧
      e.parts.map span = [⟨1, 31⟩, ⟨1, 26⟩, ⟨7, 22⟩, ⟨8, 19⟩, ⟨8, 9⟩, ⟨12, 19⟩, ⟨15, 19⟩, ⟨23, 26⟩,
        ⟨27, 31⟩, ⟨30, 31⟩] ∧
      (∀ x ∈ e.parts, ∃ slice y, slice? x.span text.toList = some slice ∧
        parse (String.ofList slice) = .ok y ∧ y.shift x.span.start = x) ∧
      e.at? 32 = none := by
  intro text
  have hread : (parse text).toOption.map (fun e => (e.parts.map span, e.span)) =
      some ([⟨1, 31⟩, ⟨1, 26⟩, ⟨7, 22⟩, ⟨8, 19⟩, ⟨8, 9⟩, ⟨12, 19⟩, ⟨15, 19⟩, ⟨23, 26⟩, ⟨27, 31⟩,
        ⟨30, 31⟩], ⟨1, 31⟩) := by
    decide +kernel
  obtain ⟨e, hparse, hspans⟩ := map_toOption_eq_some.1 hread
  obtain ⟨hall, hspan⟩ := Prod.mk.inj hspans
  obtain ⟨hparts, hat⟩ := spans_are_faithful hparse
  refine ⟨e, hparse, hall, ?_, (hat 32).1.2 ?_⟩
  · intro x hx
    exact (hparts x hx).2.2.2.2.2
  · rw [hspan]
    rfl

end Expr
end TemplateLint
