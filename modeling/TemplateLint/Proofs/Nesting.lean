import Mathlib.Data.List.Nodup
import TemplateLint.Proofs.Issues
import TemplateLint.Proofs.Tiling

/-! Constructs nest. An opening and its end name each other, two constructs that overlap lie one
inside the other, a branch belongs to the innermost construct around it, and every node that is left
over is an issue. -/
namespace TemplateLint

namespace Span

theorem Tiles.start_le {start stop : Nat} {spans : List Span} (h : Tiles start spans stop) :
    ∀ s ∈ spans, start ≤ s.start := by
  induction spans generalizing start with
  | nil => simp
  | cons s spans ih =>
    obtain ⟨hstart, hlt, hrest⟩ := h
    intro s' hs'
    rcases List.mem_cons.1 hs' with rfl | hs'
    · omega
    · have hle := ih hrest s' hs'
      omega

theorem Tiles.pairwise {start stop : Nat} {spans : List Span} (h : Tiles start spans stop) :
    spans.Pairwise fun s s' => s.start < s'.start := by
  induction spans generalizing start with
  | nil => exact .nil
  | cons s spans ih =>
    obtain ⟨-, hlt, hrest⟩ := h
    refine .cons (fun s' hs' => ?_) (ih hrest)
    have hle := hrest.start_le s' hs'
    omega

theorem Tiles.pairwise_stop_le {start stop : Nat} {spans : List Span}
    (h : Tiles start spans stop) : spans.Pairwise fun s s' => s.stop ≤ s'.start := by
  induction spans generalizing start with
  | nil => exact .nil
  | cons s spans ih =>
    obtain ⟨-, -, hrest⟩ := h
    exact .cons hrest.start_le (ih hrest)

end Span

def ParseError.isUnclosed : ParseError → Bool
  | unclosedBlock _ => true
  | _ => false

theorem ParseError.isMispairing_of_isUnclosed (e : ParseError) (h : e.isUnclosed = true) :
    e.isMispairing = true := by
  unfold isUnclosed at h
  split at h
  · rfl
  · cases h

namespace Template

def Pairs (t : Template) (i j : Nat) : Prop := ∃ b, t.block? i = some b ∧ b.close = some j

namespace WellPaired

variable {t : Template} (ht : t.WellPaired) {i j i' j' : Nat}
include ht

theorem not_mem_openBefore_succ (h : t.body? j = some (.blockClose (some i))) :
    i ∉ t.openBefore (j + 1) := by
  have hpairwise := t.pairwise_openBefore j
  rw [ht.openBefore_of_blockClose h, List.pairwise_cons] at hpairwise
  intro hmem
  exact Nat.lt_irrefl i (hpairwise.1 i hmem)

theorem mem_openBefore_of_blockClose (h : t.body? j = some (.blockClose (some i))) :
    i ∈ t.openBefore j := by
  rw [ht.openBefore_of_blockClose h]
  exact List.mem_cons_self

theorem le_of_blockClose (h : t.body? j = some (.blockClose (some i)))
    (h' : t.body? j' = some (.blockClose (some i))) : j ≤ j' := by
  refine Nat.le_of_not_lt fun hlt => ?_
  have hmem := ht.mem_openBefore_of_blockClose h
  have hlt' := lt_of_mem_openBefore (ht.mem_openBefore_of_blockClose h')
  exact ht.not_mem_openBefore_succ h' (mem_openBefore_of_le hmem (by omega) (by omega))

theorem pairs_iff : t.Pairs i j ↔ t.body? j = some (.blockClose (some i)) := by
  constructor
  · rintro ⟨b, hb, hj⟩
    exact ((ht.close_iff hb).1 hj).1
  · intro h
    obtain ⟨-, b, hb, -⟩ := mem_openBefore.1 (ht.mem_openBefore_of_blockClose h)
    refine ⟨b, hb, (ht.close_iff hb).2 ⟨h, fun k hk h' => ?_⟩⟩
    have hle := ht.le_of_blockClose h h'
    omega

theorem lt_of_pairs (h : t.Pairs i j) : i < j :=
  lt_of_mem_openBefore (ht.mem_openBefore_of_blockClose (ht.pairs_iff.1 h))

theorem hasBody_of_pairs {b : BlockOpen} (hb : t.block? i = some b) (h : t.Pairs i j) :
    b.kind.hasBody = true := by
  have hmem := ht.mem_openBefore_of_blockClose (ht.pairs_iff.1 h)
  obtain ⟨-, b', hb', hbody, -⟩ := mem_openBefore.1 hmem
  cases hb.symm.trans hb'
  exact hbody

theorem nested_of_lt (h : t.Pairs i j) (h' : t.Pairs i' j') (hlt : i < i') : j < i' ∨ j' < j := by
  have hend := ht.pairs_iff.1 h
  have hend' := ht.pairs_iff.1 h'
  obtain ⟨b', hb', hj'⟩ := h'
  have hbody' := ht.hasBody_of_pairs hb' ⟨b', hb', hj'⟩
  rcases Nat.lt_trichotomy i' j with hij | rfl | hij
  · refine .inr (Nat.lt_of_not_le fun hle => ?_)
    have hmem : i' ∈ t.openBefore j := by
      refine mem_openBefore.2 ⟨hij, b', hb', hbody', fun k hk => ?_⟩
      cases hk.symm.trans hj'
      exact hle
    have hpairwise := t.pairwise_openBefore j
    rw [ht.openBefore_of_blockClose hend] at hmem hpairwise
    rcases List.mem_cons.1 hmem with rfl | hmem
    · exact Nat.lt_irrefl i' hlt
    · have hgt := (List.pairwise_cons.1 hpairwise).1 i' hmem
      omega
  · rw [block?_eq_some_iff, hend] at hb'
    cases hb'
  · exact .inl hij

theorem nested (h : t.Pairs i j) (h' : t.Pairs i' j') (hne : i ≠ i') :
    j < i' ∨ j' < i ∨ (i < i' ∧ j' < j) ∨ (i' < i ∧ j < j') := by
  rcases Nat.lt_or_gt_of_ne hne with hlt | hlt
  · rcases ht.nested_of_lt h h' hlt with hout | hin
    · exact .inl hout
    · exact .inr (.inr (.inl ⟨hlt, hin⟩))
  · rcases ht.nested_of_lt h' h hlt with hout | hin
    · exact .inr (.inl hout)
    · exact .inr (.inr (.inr ⟨hlt, hin⟩))

theorem group_iff {k g : Nat} {b : BlockOpen} (hb : t.block? k = some b)
    (hbranch : b.kind.isBranch = true) :
    b.group = some g ↔ (t.openBefore k).head? = some g ∧
      ∃ top, t.block? g = some top ∧ top.kind.acceptsElse = true := by
  have hturn := ht.turn (block?_eq_some_iff.1 hb)
  generalize t.openBefore k = opened at hturn ⊢
  generalize t.openBefore (k + 1) = after at hturn
  cases hturn with
  | opens hbody _ => cases (BlockKind.isBranch_eq_false_of_hasBody hbody).symm.trans hbranch
  | @branch _ top c _ _ hgroup hopener haccepts =>
    rw [hgroup, List.head?_cons]
    constructor
    · intro h
      cases h
      exact ⟨rfl, top, hopener, haccepts⟩
    · exact fun h => h.1
  | strayBranch _ hgroup hrefused =>
    rw [hgroup]
    constructor
    · intro h
      cases h
    · rintro ⟨hhead, top, hopener, haccepts⟩
      cases (hrefused g hhead top hopener).symm.trans haccepts
  | call hkind _ =>
    rw [hkind] at hbranch
    cases hbranch
  | plain isPlain => cases isPlain

theorem openBefore_succ_of_pairs (h : t.Pairs i j) :
    t.openBefore (i + 1) = i :: t.openBefore i := by
  obtain ⟨b, hb, hj⟩ := h
  have hbody := ht.hasBody_of_pairs hb ⟨b, hb, hj⟩
  have hturn := ht.turn (block?_eq_some_iff.1 hb)
  generalize t.openBefore i = opened at hturn ⊢
  generalize t.openBefore (i + 1) = after at hturn ⊢
  cases hturn with
  | opens => rfl
  | branch hbranch | strayBranch hbranch =>
    cases (BlockKind.isBranch_eq_false_of_hasBody hbody).symm.trans hbranch
  | call hkind =>
    rw [hkind] at hbody
    cases hbody
  | plain isPlain => cases isPlain

theorem suffix_openBefore (h : t.Pairs i j) {k : Nat} (hik : i + 1 ≤ k) (hkj : k ≤ j) :
    i :: t.openBefore i <:+ t.openBefore k := by
  induction hik with
  | refl =>
    rewrite [ht.openBefore_succ_of_pairs h]
    exact List.suffix_rfl
  | @step k hik ih =>
    have hsuffix := ih (by omega)
    cases hk : t.body? k with
    | none =>
      rw [ht.past hk]
      exact hsuffix
    | some body =>
      have hturn := ht.turn hk
      generalize t.openBefore k = opened at hturn hsuffix
      generalize t.openBefore (k + 1) = after at hturn ⊢
      cases hturn with
      | opens => exact hsuffix.trans (List.suffix_cons k opened)
      | closes =>
        rcases List.suffix_cons_iff.1 hsuffix with heq | hsuffix
        · cases heq
          have hle := ht.le_of_blockClose (ht.pairs_iff.1 h) hk
          omega
        · exact hsuffix
      | branch | strayBranch | call | strayEnd | plain => exact hsuffix

theorem openBefore_end (h : t.Pairs i j) : t.openBefore j = i :: t.openBefore i := by
  have hend := ht.pairs_iff.1 h
  have hsuffix := ht.suffix_openBefore h (ht.lt_of_pairs h) (Nat.le_refl j)
  rw [ht.openBefore_of_blockClose hend] at hsuffix ⊢
  rcases List.suffix_cons_iff.1 hsuffix with heq | hsuffix
  · exact heq.symm
  · exact absurd (hsuffix.mem List.mem_cons_self) (ht.not_mem_openBefore_succ hend)

end WellPaired

variable (d : Delimiters) (source : String)

theorem eq_of_span_eq {n n' : Node} (hn : n ∈ (parse d source).nodes)
    (hn' : n' ∈ (parse d source).nodes) (h : n.span = n'.span) : n = n' := by
  have hnodup : ((parse d source).nodes.map Node.span).Nodup := by
    refine (tiles_parse d source).pairwise.imp fun hlt heq => ?_
    rw [heq] at hlt
    exact Nat.lt_irrefl _ hlt
  exact List.inj_on_of_nodup_map hnodup hn hn' h

theorem filter_issues_parse :
    (parse d source).issues.filter (·.error.isMispairing) =
      ((parse d source).nodes.filterMap fun n => n.body.stray?.map (issue n)) ++
        (parse d source).nodes.filterMap fun n => n.body.unclosed?.map (issue n) :=
  filter_issues_ofPieces ..

theorem stray_iff {n : Node} {b : BlockOpen} (hn : n ∈ (parse d source).nodes)
    (hb : n.body = .blockOpen b) (hbranch : b.kind.isBranch = true) :
    b.group = none ↔ ∃ i ∈ (parse d source).issues,
      i.error = .unexpectedElse b.kind.keyword ∧ i.span = n.span := by
  have hfilter := filter_issues_parse d source
  constructor
  · intro hgroup
    have hstray : n.body.stray? = some (.unexpectedElse b.kind.keyword) := by
      simp [hb, NodeBody.stray?, hbranch, hgroup]
    have hmem : issue n (.unexpectedElse b.kind.keyword) ∈
        (parse d source).issues.filter (·.error.isMispairing) := by
      rw [hfilter, List.mem_append, List.mem_filterMap]
      exact .inl ⟨n, hn, by rw [hstray]; rfl⟩
    exact ⟨_, (List.mem_filter.1 hmem).1, rfl, rfl⟩
  · rintro ⟨i, hi, herror, hspan⟩
    have hmem : i ∈ (parse d source).issues.filter (·.error.isMispairing) := by
      rw [List.mem_filter, herror]
      exact ⟨hi, rfl⟩
    rw [hfilter, List.mem_append, List.mem_filterMap, List.mem_filterMap] at hmem
    rcases hmem with ⟨n', hn', hi'⟩ | ⟨n', hn', hi'⟩
    · obtain ⟨e, he, rfl⟩ := Option.map_eq_some_iff.1 hi'
      cases eq_of_span_eq d source hn' hn hspan
      rw [hb, NodeBody.stray?] at he
      split at he
      · next hstray => exact Option.isNone_iff_eq_none.1 (Bool.and_eq_true_iff.1 hstray).2
      · cases he
    · obtain ⟨e, he, rfl⟩ := Option.map_eq_some_iff.1 hi'
      obtain ⟨b', -, -, -, rfl⟩ := NodeBody.unclosed?_eq_some_iff.1 he
      cases herror

theorem countP_issues {p : ParseError → Bool} (hp : ∀ e, p e = true → e.isMispairing = true) :
    (parse d source).issues.countP (fun i => p i.error) =
      (parse d source).nodes.countP (fun n => n.body.stray?.any p) +
        (parse d source).nodes.countP (fun n => n.body.unclosed?.any p) := by
  have hfilter : (parse d source).issues.countP (fun i => p i.error) =
      ((parse d source).issues.filter (·.error.isMispairing)).countP (fun i => p i.error) := by
    rw [List.countP_filter]
    refine List.countP_congr fun i _ => ?_
    rw [Bool.and_eq_true, iff_self_and]
    exact hp i.error
  have hcount (f : NodeBody → Option ParseError) :
      ((parse d source).nodes.filterMap fun n => (f n.body).map (issue n)).countP
          (fun i => p i.error) =
        (parse d source).nodes.countP fun n => (f n.body).any p := by
    rw [List.countP_filterMap]
    refine List.countP_congr fun n _ => ?_
    cases f n.body <;> rfl
  rw [hfilter, filter_issues_parse, List.countP_append, hcount, hcount]

theorem countP_isUnclosed :
    (parse d source).issues.countP (·.error.isUnclosed) =
      (parse d source).nodes.countP (·.body.unclosed?.isSome) := by
  have hstray (body : NodeBody) : body.stray?.any ParseError.isUnclosed = false := by
    unfold NodeBody.stray?
    split
    · split <;> rfl
    · rfl
    · rfl
  have hunclosed (body : NodeBody) :
      body.unclosed?.any ParseError.isUnclosed = body.unclosed?.isSome := by
    unfold NodeBody.unclosed?
    split
    · split <;> rfl
    · rfl
  rw [countP_issues d source ParseError.isMispairing_of_isUnclosed]
  simp [hstray, hunclosed]

theorem countP_unexpectedEnd :
    (parse d source).issues.countP (fun i => i.error = .unexpectedEnd) =
      (parse d source).nodes.countP (fun n => n.body = .blockClose none) := by
  have hstray (body : NodeBody) :
      body.stray?.any (fun e => e = .unexpectedEnd) = decide (body = .blockClose none) := by
    unfold NodeBody.stray?
    split
    · split <;> rfl
    · rfl
    · next hend => simpa using hend
  have hunclosed (body : NodeBody) :
      body.unclosed?.any (fun e => e = .unexpectedEnd) = false := by
    unfold NodeBody.unclosed?
    split
    · split <;> rfl
    · rfl
  rw [countP_issues d source (p := fun e => e = .unexpectedEnd) (by simp [ParseError.isMispairing])]
  simp [hstray, hunclosed]

/-- Constructs, branches and ends fit together, and what does not fit is an issue. -/
structure ProperlyNested (t : Template) : Prop where
  pairs_iff : ∀ {i j : Nat}, t.Pairs i j ↔ t.body? j = some (.blockClose (some i))
  lt : ∀ {i j : Nat}, t.Pairs i j → i < j
  hasBody : ∀ {i j : Nat} {b : BlockOpen}, t.block? i = some b → t.Pairs i j →
    b.kind.hasBody = true
  nested : ∀ {i j i' j' : Nat}, t.Pairs i j → t.Pairs i' j' → i ≠ i' →
    j < i' ∨ j' < i ∨ (i < i' ∧ j' < j) ∨ (i' < i ∧ j < j')
  /-- A branch belongs to the innermost open construct, if that one takes branches. -/
  group_iff : ∀ {k g : Nat} {b : BlockOpen}, t.block? k = some b → b.kind.isBranch = true →
    (b.group = some g ↔ (t.openBefore k).head? = some g ∧
      ∃ top, t.block? g = some top ∧ top.kind.acceptsElse = true)
  stray_iff : ∀ {n : Node} {b : BlockOpen}, n ∈ t.nodes → n.body = .blockOpen b →
    b.kind.isBranch = true → (b.group = none ↔
      ∃ i ∈ t.issues, i.error = .unexpectedElse b.kind.keyword ∧ i.span = n.span)
  unclosed : t.issues.countP (·.error.isUnclosed) = t.nodes.countP (·.body.unclosed?.isSome)
  strayEnds : t.issues.countP (fun i => i.error = .unexpectedEnd) =
    t.nodes.countP (fun n => n.body = .blockClose none)

theorem parse_nests_properly (d : Delimiters) (source : String) :
    (parse d source).ProperlyNested where
  pairs_iff := (wellPaired_parse d source).pairs_iff
  lt := (wellPaired_parse d source).lt_of_pairs
  hasBody := (wellPaired_parse d source).hasBody_of_pairs
  nested := (wellPaired_parse d source).nested
  group_iff := (wellPaired_parse d source).group_iff
  stray_iff := stray_iff d source
  unclosed := countP_isUnclosed d source
  strayEnds := countP_unexpectedEnd d source

end Template
end TemplateLint
