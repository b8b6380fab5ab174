import TemplateLint.Proofs.Slices

/-! Lines and columns say the same as offsets. The position of an offset counts the line breaks
before it and the characters since the last one; no two boundaries of a source share a position,
and positions come in the order of their offsets. -/
namespace TemplateLint
open Text

namespace Position

def after (p : Position) (cs : List Char) : Position := cs.foldl next p

@[simp] theorem after_nil (p : Position) : p.after [] = p := rfl

@[simp] theorem after_cons (p : Position) (c : Char) (cs : List Char) :
    p.after (c :: cs) = (p.next c).after cs := rfl

theorem after_append (p : Position) (as bs : List Char) :
    p.after (as ++ bs) = (p.after as).after bs := List.foldl_append

def Before (p q : Position) : Prop := p.line < q.line ∨ p.line = q.line ∧ p.col < q.col

theorem Before.trans {p q r : Position} (hpq : p.Before q) (hqr : q.Before r) : p.Before r := by
  unfold Before at *
  omega

theorem not_before_self (p : Position) : ¬p.Before p := by
  unfold Before
  omega

theorem before_next (p : Position) (c : Char) : p.Before (p.next c) := by
  unfold Before next
  split
  · left
    exact Nat.lt_succ_self p.line
  · right
    exact ⟨rfl, Nat.lt_succ_self p.col⟩

theorem before_after (p : Position) {cs : List Char} (h : cs ≠ []) : p.Before (p.after cs) := by
  induction cs generalizing p with
  | nil => exact absurd rfl h
  | cons c cs ih =>
    cases cs with
    | nil => exact p.before_next c
    | cons d ds => exact (p.before_next c).trans (ih (p.next c) (List.cons_ne_nil d ds))

theorem eq_nil_of_after {p : Position} {cs : List Char} (h : p.after cs = p) : cs = [] := by
  cases cs with
  | nil => rfl
  | cons c cs =>
    have hbefore := p.before_after (List.cons_ne_nil c cs)
    rw [h] at hbefore
    exact absurd hbefore p.not_before_self

/-- Lines and columns as they are counted: line breaks, and characters since the last of them. -/
theorem after_start (cs : List Char) :
    after ⟨1, 1⟩ cs = ⟨cs.count '\n' + 1, (cs.reverse.takeWhile (· ≠ '\n')).length + 1⟩ := by
  rw [← List.reverse_reverse cs]
  induction cs.reverse with
  | nil => rfl
  | cons c cs ih =>
    rw [List.reverse_cons, after_append, ih]
    by_cases h : c = '\n'
    · simp [next, h]
    · simp [next, h]

theorem advance_byteLength (p : Position) (before rest : List Char) :
    advance p (byteLength before) (before ++ rest) = p.after before := by
  induction before generalizing p with
  | nil => cases rest <;> simp [advance]
  | cons c before ih =>
    have hsize := c.utf8Size_pos
    have hzero : ¬c.utf8Size + byteLength before = 0 := by omega
    have hlt : ¬c.utf8Size + byteLength before < c.utf8Size := by omega
    rw [byteLength_cons, List.cons_append, advance, if_neg hzero, if_neg hlt,
      Nat.add_sub_cancel_left, ih, after_cons]

theorem distance?_eq_some_iff {target p : Position} {cs : List Char} {n : Nat} :
    distance? target p cs = some n ↔
      ∃ before rest, cs = before ++ rest ∧ byteLength before = n ∧ p.after before = target := by
  induction cs generalizing p n with
  | nil =>
    simp only [distance?]
    constructor
    · intro h
      split at h
      · next hp =>
        cases h
        exact ⟨[], [], rfl, rfl, hp⟩
      · cases h
    · rintro ⟨before, rest, hcs, rfl, hp⟩
      obtain ⟨rfl, rfl⟩ := List.append_eq_nil_iff.1 hcs.symm
      exact if_pos hp
  | cons c cs ih =>
    rw [distance?]
    by_cases hp : p = target
    · subst hp
      rw [if_pos rfl]
      constructor
      · intro h
        cases h
        exact ⟨[], c :: cs, rfl, rfl, rfl⟩
      · rintro ⟨before, rest, -, rfl, hafter⟩
        rw [eq_nil_of_after hafter]
        rfl
    · rw [if_neg hp, Option.map_eq_some_iff]
      constructor
      · rintro ⟨m, hm, rfl⟩
        obtain ⟨before, rest, rfl, rfl, hafter⟩ := ih.1 hm
        exact ⟨c :: before, rest, rfl, rfl, hafter⟩
      · rintro ⟨before, rest, hcs, rfl, hafter⟩
        cases before with
        | nil => exact absurd hafter hp
        | cons d before =>
          cases hcs
          exact ⟨byteLength before, ih.2 ⟨before, rest, rfl, rfl, hafter⟩, rfl⟩

theorem ofOffset_byteLength {source before rest : List Char} (h : source = before ++ rest) :
    ofOffset source (byteLength before) = after ⟨1, 1⟩ before := by
  rw [h]
  exact advance_byteLength ..

theorem toOffset?_eq_some_iff {source : List Char} {p : Position} {o : Nat} :
    toOffset? source p = some o ↔
      ∃ before rest, source = before ++ rest ∧ byteLength before = o ∧ ofOffset source o = p := by
  unfold toOffset?
  rw [distance?_eq_some_iff]
  constructor
  · rintro ⟨before, rest, h, rfl, rfl⟩
    exact ⟨before, rest, h, rfl, ofOffset_byteLength h⟩
  · rintro ⟨before, rest, h, rfl, rfl⟩
    exact ⟨before, rest, h, rfl, (ofOffset_byteLength h).symm⟩

theorem toOffset?_ofOffset {source : String} {o : Nat}
    (h : (String.Pos.Raw.mk o).IsValid source) :
    toOffset? source.toList (ofOffset source.toList o) = some o := by
  obtain ⟨before, rest, hsource, ho⟩ := isValid_iff.1 h
  exact toOffset?_eq_some_iff.2 ⟨before, rest, hsource, ho, rfl⟩

theorem before_of_lt {source : String} {o₁ o₂ : Nat} (h₁ : (String.Pos.Raw.mk o₁).IsValid source)
    (h₂ : (String.Pos.Raw.mk o₂).IsValid source) (hlt : o₁ < o₂) :
    (ofOffset source.toList o₁).Before (ofOffset source.toList o₂) := by
  obtain ⟨as, as', ha, rfl⟩ := isValid_iff.1 h₁
  obtain ⟨bs, bs', hb, rfl⟩ := isValid_iff.1 h₂
  rw [ofOffset_byteLength ha, ofOffset_byteLength hb]
  rcases List.append_eq_append_iff.1 (ha.symm.trans hb) with ⟨middle, rfl, -⟩ | ⟨middle, rfl, -⟩
  · rw [after_append]
    apply before_after
    rintro rfl
    simp at hlt
  · rw [byteLength_append] at hlt
    omega

/-- Positions are another form of the boundaries of a source: each stands for one boundary and each
boundary has one, in the same order. They are the lines and columns that a reader counts. -/
theorem positions_encode_boundaries (source : String) :
    (∀ o, (String.Pos.Raw.mk o).IsValid source →
      toOffset? source.toList (ofOffset source.toList o) = some o) ∧
    (∀ p o, toOffset? source.toList p = some o →
      (String.Pos.Raw.mk o).IsValid source ∧ o ≤ source.utf8ByteSize ∧
        ofOffset source.toList o = p) ∧
    (∀ o₁ o₂, (String.Pos.Raw.mk o₁).IsValid source → (String.Pos.Raw.mk o₂).IsValid source →
      o₁ < o₂ → (ofOffset source.toList o₁).Before (ofOffset source.toList o₂)) ∧
    ∀ before rest, source.toList = before ++ rest →
      ofOffset source.toList (byteLength before) =
        ⟨before.count '\n' + 1, (before.reverse.takeWhile (· ≠ '\n')).length + 1⟩ := by
  refine ⟨fun o => toOffset?_ofOffset, ?_, fun o₁ o₂ => before_of_lt, ?_⟩
  · intro p o h
    obtain ⟨before, rest, hsource, rfl, hp⟩ := toOffset?_eq_some_iff.1 h
    refine ⟨isValid_iff.2 ⟨before, rest, hsource, rfl⟩, ?_, hp⟩
    rw [utf8ByteSize_eq, hsource, byteLength_append]
    exact Nat.le_add_right _ _
  · intro before rest h
    rw [ofOffset_byteLength h, after_start]

end Position
end TemplateLint
