import TemplateLint.Proofs.WalkSteps

/-! The walk and the pairing of nodes stay in step: the walk's groups are the constructs that are
open, each with its frame if it has one, and the dots of the frames follow from where the constructs
and their branches stand. -/
namespace TemplateLint

/-- What decides the dots of a walk's frames: the first dot, the dot that each construct sets, and
which constructs have come to a branch. -/
structure DotRule where
  first : TypeRef
  opened : Nat → TypeRef
  branched : Nat → Prop

def DotRule.Sets (r : DotRule) (c : Nat) (kind : BlockKind) : Prop :=
  kind.detaches = true ∨ (kind.returnsDot = true ∧ ¬r.branched c)

/-- The open constructs, the groups and the frames of a walk, level by level. -/
inductive Levels (t : Template) (r : DotRule) : List Nat → List Group → List Frame → Prop where
  | bottom {f : Frame} (kind : f.kind = .root) (dot : f.dot = r.first) : Levels t r [] [] [f]
  | bare {c : Nat} {b : BlockOpen} {opened : List Nat} {groups : List Group} {frames : List Frame}
      (opener : t.block? c = some b) (kind : b.kind = .if_)
      (rest : Levels t r opened groups frames) :
      Levels t r (c :: opened) (⟨.if_, false⟩ :: groups) frames
  | framed {c : Nat} {b : BlockOpen} {opened : List Nat} {groups : List Group} {f g : Frame}
      {frames : List Frame} (opener : t.block? c = some b) (kind : b.kind.frame? = some f.kind)
      (sets : r.Sets c b.kind → f.dot = r.opened c) (keeps : ¬r.Sets c b.kind → f.dot = g.dot)
      (outer : f.outer = if b.kind.returnsDot then some g.dot else none)
      (rest : Levels t r opened groups (g :: frames)) :
      Levels t r (c :: opened) (⟨b.kind, true⟩ :: groups) (f :: g :: frames)

namespace Levels

variable {t : Template} {r : DotRule} {opened : List Nat} {groups : List Group}
  {frames : List Frame} {f : Frame} {c : Nat}

theorem withLocals (h : Levels t r opened groups (f :: frames)) (locals : NameMap TypeRef) :
    Levels t r opened groups ({ f with locals } :: frames) := by
  -- an `if` without a frame leaves the innermost frame to the level below it, hence the induction
  generalize hframes : f :: frames = all at h
  induction h with
  | bottom kind dot =>
    cases hframes
    exact .bottom kind dot
  | bare opener kind rest ih => exact .bare opener kind (ih hframes)
  | framed opener kind sets keeps outer rest ih =>
    cases hframes
    exact .framed opener kind sets keeps outer rest

theorem congr_branched {branched : Nat → Prop} (h : Levels t r opened groups frames)
    (hbranched : ∀ c ∈ opened, (branched c ↔ r.branched c)) :
    Levels t { r with branched } opened groups frames := by
  induction h with
  | bottom kind dot => exact .bottom kind dot
  | bare opener kind rest ih =>
    exact .bare opener kind (ih fun c hc => hbranched c (List.mem_cons_of_mem _ hc))
  | @framed c b opened groups f g frames opener kind sets keeps outer rest ih =>
    have hsets : DotRule.Sets { r with branched } c b.kind ↔ r.Sets c b.kind := by
      simp only [DotRule.Sets, hbranched c List.mem_cons_self]
    refine .framed opener kind ?_ ?_ outer
      (ih fun c hc => hbranched c (List.mem_cons_of_mem _ hc))
    · exact fun h => sets (hsets.1 h)
    · exact fun h => keeps fun h' => h (hsets.2 h')

theorem enterBranch {w : Walk} {branched : Nat → Prop}
    (h : Levels t r (c :: opened) w.groups w.stack.frames) (hc : branched c)
    (hother : ∀ c' ∈ opened, (branched c' ↔ r.branched c')) :
    Levels t { r with branched } (c :: opened) w.enterBranch.groups
      w.enterBranch.stack.frames := by
  obtain ⟨⟨root, top, below⟩, groups⟩ := w
  unfold ScopeStack.frames at h
  dsimp only at h
  cases h with
  | bare opener kind rest => exact .bare opener kind (rest.congr_branched hother)
  | @framed _ b _ groups _ g frames opener kind sets keeps outer rest =>
    cases hreturns : b.kind.returnsDot with
    | true =>
      have hdetaches : b.kind.detaches = false := by
        cases hk : b.kind <;> simp_all [BlockKind.returnsDot, BlockKind.detaches]
      have helse : ScopeStack.enterElse ⟨root, top, g :: frames⟩ =
          ⟨root, { top with dot := g.dot }, g :: frames⟩ := by
        rw [if_pos hreturns] at outer
        simp only [ScopeStack.enterElse, outer]
      rw [Walk.enterBranch_of_returnsDot hreturns, helse]
      refine .framed opener kind ?_ (fun _ => rfl) outer (rest.congr_branched hother)
      rintro (h | ⟨-, h⟩)
      · cases hdetaches.symm.trans h
      · exact absurd hc h
    | false =>
      have hsets : DotRule.Sets { r with branched } c b.kind ↔ r.Sets c b.kind := by
        simp [DotRule.Sets, hreturns]
      rw [Walk.enterBranch_of_returnsDot_eq_false hreturns]
      refine .framed opener kind ?_ ?_ outer (rest.congr_branched hother)
      · exact fun h => sets (hsets.1 h)
      · exact fun h => keeps fun h' => h (hsets.2 h')

theorem ensureFrame {w : Walk} (h : Levels t r (c :: opened) w.groups w.stack.frames) :
    Levels t r (c :: opened) w.ensureFrame.groups w.ensureFrame.stack.frames := by
  obtain ⟨⟨root, top, below⟩, groups⟩ := w
  unfold ScopeStack.frames at h
  dsimp only at h
  cases h with
  | @bare _ b _ groups _ opener kind rest =>
    have hsets : ¬r.Sets c b.kind := by
      unfold DotRule.Sets
      simp [kind, BlockKind.detaches, BlockKind.returnsDot]
    have hlevels : Levels t r (c :: opened) (⟨b.kind, true⟩ :: groups)
        (({ kind := .if_, dot := top.dot } : Frame) :: top :: below) :=
      .framed opener (by rw [kind]; rfl) (fun h => absurd h hsets) (fun _ => rfl)
        (by rw [kind]; rfl) rest
    rw [kind] at hlevels
    exact hlevels
  | framed opener kind sets keeps outer rest => exact .framed opener kind sets keeps outer rest

theorem close {w : Walk} {opener : Nat} (h : Levels t r (c :: opened) w.groups w.stack.frames) :
    Levels t r opened (w.close (some opener)).groups (w.close (some opener)).stack.frames := by
  obtain ⟨⟨root, top, below⟩, groups⟩ := w
  unfold ScopeStack.frames at h
  dsimp only at h
  cases h with
  | bare opener kind rest => exact rest
  | framed opener kind sets keeps outer rest => exact rest

theorem map_kind (h : Levels t r opened groups frames) :
    groups.map Group.kind = (opened.filterMap t.block?).map BlockOpen.kind := by
  induction h with
  | bottom => rfl
  | bare opener kind _ ih => simp [opener, kind, ih]
  | framed opener _ _ _ _ _ ih => simp [opener, ih]

theorem length_frames (h : Levels t r opened groups frames) :
    frames.length = 1 + groups.countP Group.pushed := by
  induction h with
  | bottom => rfl
  | bare _ _ _ ih => simp [ih]
  | framed _ _ _ _ _ _ ih =>
    rw [List.length_cons, ih, List.countP_cons_of_pos rfl]
    rfl

theorem map_frameKind (h : Levels t r opened groups frames) :
    frames.dropLast.map (fun f => some f.kind) =
      (groups.filter Group.pushed).map fun g => g.kind.frame? := by
  induction h with
  | bottom => rfl
  | bare _ _ _ ih => simpa using ih
  | framed _ kind _ _ _ _ ih => simp [kind, ih]

theorem getLast?_frames (h : Levels t r opened groups frames) :
    ∃ f, frames.getLast? = some f ∧ f.kind = .root ∧ f.dot = r.first := by
  induction h with
  | bottom kind dot => exact ⟨_, rfl, kind, dot⟩
  | bare _ _ _ ih => exact ih
  | framed _ _ _ _ _ _ ih =>
    rw [List.getLast?_cons_cons]
    exact ih

theorem exists_group {w : Walk} (h : Levels t r (c :: opened) w.groups w.stack.frames) :
    ∃ g rest b, w.groups = g :: rest ∧ t.block? c = some b ∧ g.kind = b.kind ∧
      (g.pushed = true → w.stack.pop?.isSome = true) := by
  obtain ⟨⟨root, top, below⟩, groups⟩ := w
  unfold ScopeStack.frames at h
  dsimp only at h
  cases h with
  | bare opener kind _ => exact ⟨_, _, _, rfl, opener, kind.symm, nofun⟩
  | framed opener _ _ _ _ _ => exact ⟨_, _, _, rfl, opener, rfl, fun _ => rfl⟩

theorem step {o : Options} {w next : Walk} {index : Nat} {body : NodeBody} {after : List Nat}
    (hbody : t.body? index = some body) (hstride : t.Stride o index w body opened after next)
    (hopened : ∀ b, body = .blockOpen b → r.opened index = w.stack.bodyDot o w.stack.top.dot b)
    (hfresh : ¬r.branched index)
    (h : Levels t r opened (w.facing body).groups (w.facing body).stack.frames) :
    Levels t r after next.groups next.stack.frames := by
  cases hstride with
  | @framed b f _ hgroup hframe =>
    rw [Walk.facing_of_ungrouped w hgroup] at h
    refine .framed (Template.block?_eq_some_iff.2 hbody) hframe.kind ?_ ?_ hframe.outer h
    · intro _
      rw [hopened b rfl]
      exact hframe.dot
    · intro hkeeps
      change f.dot = w.stack.top.dot
      have hkind : b.kind = .if_ := by
        have hframed := hframe.kind
        unfold DotRule.Sets at hkeeps
        cases hkind : b.kind <;>
          simp_all [BlockKind.frame?, BlockKind.detaches, BlockKind.returnsDot]
      rw [hframe.dot, ScopeStack.bodyDot, hkind]
  | bare hgroup hkind _ =>
    rw [Walk.facing_of_ungrouped w hgroup] at h
    exact .bare (Template.block?_eq_some_iff.2 hbody) hkind h
  | branch hbranch hgroup =>
    rwa [Walk.facing_of_branch w hbranch hgroup] at h
  | branchFrame hbranch hgroup locals =>
    rw [Walk.facing_of_branch w hbranch hgroup] at h
    exact h.ensureFrame.withLocals locals
  | closes => exact h.close
  | keeps hgroup locals =>
    rw [Walk.facing_of_ungrouped w hgroup] at h
    exact h.withLocals locals

end Levels

namespace Template

variable {t : Template} {index : Nat}

def Branched (t : Template) (index c : Nat) : Prop :=
  ∃ m < index, c < m ∧ ∃ b, t.block? m = some b ∧ b.kind.isBranch = true ∧ b.group = some c

def openedDot (t : Template) (o : Options) (ctx : Context) (c : Nat) : TypeRef :=
  let s := (t.walkBefore o ctx c).stack
  (t.block? c).elim s.top.dot (s.bodyDot o s.top.dot)

def dotRule (t : Template) (o : Options) (ctx : Context) (index : Nat) : DotRule where
  first := ctx.firstDot
  opened := t.openedDot o ctx
  branched := t.Branched index

theorem openedDot_eq (o : Options) (ctx : Context) {c : Nat} {b : BlockOpen}
    (hb : t.block? c = some b) :
    t.openedDot o ctx c =
      (t.walkBefore o ctx c).stack.bodyDot o (t.walkBefore o ctx c).stack.top.dot b := by
  unfold openedDot
  rw [hb]
  rfl

theorem branched_succ {c : Nat} :
    t.Branched (index + 1) c ↔ t.Branched index c ∨ (c < index ∧
      ∃ b, t.block? index = some b ∧ b.kind.isBranch = true ∧ b.group = some c) := by
  constructor
  · rintro ⟨m, hm, hc, hb⟩
    rcases Nat.lt_succ_iff_lt_or_eq.1 hm with hlt | rfl
    · exact .inl ⟨m, hlt, hc, hb⟩
    · exact .inr ⟨hc, hb⟩
  · rintro (⟨m, hm, hc, hb⟩ | ⟨hc, hb⟩)
    · exact ⟨m, by omega, hc, hb⟩
    · exact ⟨index, by omega, hc, hb⟩

theorem not_branched_self : ¬t.Branched (index + 1) index := by
  rintro ⟨m, hm, hc, -⟩
  omega

theorem branched_succ_of_group_ne {c : Nat}
    (hgroup : (t.body? index).bind NodeBody.group? ≠ some c) :
    t.Branched (index + 1) c ↔ t.Branched index c := by
  rw [branched_succ, or_iff_left]
  rintro ⟨-, b, hb, -, hc⟩
  rw [block?_eq_some_iff.1 hb] at hgroup
  exact hgroup hc

theorem WellPaired.levels_facing (ht : t.WellPaired) {o : Options} {ctx : Context} {w : Walk}
    {body : NodeBody} (hbody : t.body? index = some body)
    (h : Levels t (t.dotRule o ctx index) (t.openBefore index) w.groups w.stack.frames) :
    Levels t (t.dotRule o ctx (index + 1)) (t.openBefore index) (w.facing body).groups
      (w.facing body).stack.frames := by
  cases hgroup : body.group? with
  | none =>
    rw [Walk.facing_of_ungrouped w hgroup]
    apply h.congr_branched
    intro c _
    apply branched_succ_of_group_ne
    simp [hbody, hgroup]
  | some c =>
    obtain ⟨b, rest, rfl, hbranch, hopened⟩ := (ht.turn hbody).eq_cons_of_group hgroup
    have hmem : c ∈ t.openBefore index := by simp [hopened]
    have hlt := lt_of_mem_openBefore hmem
    have hpairwise := t.pairwise_openBefore index
    rw [hopened] at h hpairwise ⊢
    rw [Walk.facing_of_branch w hbranch hgroup]
    refine h.enterBranch ?_ ?_
    · exact branched_succ.2 (.inr ⟨hlt, b, block?_eq_some_iff.2 hbody, hbranch, hgroup⟩)
    · intro c' hc'
      have hlt' := (List.pairwise_cons.1 hpairwise).1 c' hc'
      apply branched_succ_of_group_ne
      rw [hbody, Option.bind_some, hgroup]
      intro heq
      cases heq
      omega

theorem WellPaired.levels (ht : t.WellPaired) (o : Options) (ctx : Context) (index : Nat) :
    Levels t (t.dotRule o ctx index) (t.openBefore index) (t.walkBefore o ctx index).groups
      (t.walkBefore o ctx index).stack.frames := by
  induction index with
  | zero =>
    obtain ⟨locals, hstack⟩ := ctx.exists_stack
    change Levels t _ [] [] ctx.stack.frames
    rw [hstack]
    exact .bottom rfl rfl
  | succ index ih =>
    cases hbody : t.body? index with
    | none =>
      rw [ht.past hbody, walkBefore_succ_of_body?_eq_none o ctx hbody]
      apply ih.congr_branched
      intro c _
      apply branched_succ_of_group_ne
      simp [hbody]
    | some body =>
      refine (ht.levels_facing hbody ih).step hbody (ht.stride o ctx hbody) ?_ not_branched_self
      rintro b rfl
      exact openedDot_eq o ctx (block?_eq_some_iff.2 hbody)

def openBlocks (t : Template) (index : Nat) : List BlockOpen :=
  ((List.range index).filterMap t.block?).filter fun b =>
    b.kind.hasBody && b.close.all (index ≤ ·)

theorem openBlocks_eq (t : Template) (index : Nat) :
    t.openBlocks index = (t.openBefore index).reverse.filterMap t.block? := by
  rw [openBlocks, openBefore, List.filter_reverse, List.reverse_reverse, List.filterMap_filter,
    List.filter_filterMap]
  congr 1
  funext i
  unfold staysOpen
  cases t.block? i with
  | none => rfl
  | some b => simp [Option.filter]

/-- The walk and the pairing agree before every node. The groups are the constructs open there, the
frames are those of the groups that have one, above the first frame, and an end that closes a
construct finds its group and its frame. -/
theorem walk_matches_pairing (d : Delimiters) (o : Options) (ctx : Context) (source : String)
    (index : Nat) :
    let t := parse d source
    let w := t.walkBefore o ctx index
    w.groups.reverse.map Group.kind = (t.openBlocks index).map BlockOpen.kind ∧
      w.stack.depth = 1 + w.groups.countP Group.pushed ∧
      w.stack.frames.dropLast.map (fun f => some f.kind) =
        (w.groups.filter Group.pushed).map (fun g => g.kind.frame?) ∧
      (∃ f, w.stack.frames.getLast? = some f ∧ f.kind = .root ∧ f.dot = ctx.firstDot) ∧
      ∀ i, t.body? index = some (.blockClose (some i)) →
        ∃ g rest b, w.groups = g :: rest ∧ t.block? i = some b ∧ g.kind = b.kind ∧
          (g.pushed = true → w.stack.pop?.isSome = true) := by
  intro t w
  have ht := wellPaired_parse d source
  have hlevels := ht.levels o ctx index
  refine ⟨?_, hlevels.length_frames, hlevels.map_frameKind, hlevels.getLast?_frames, ?_⟩
  · rw [openBlocks_eq, List.filterMap_reverse, List.map_reverse, List.map_reverse]
    exact congrArg List.reverse hlevels.map_kind
  · intro i hi
    have hturn := ht.turn hi
    generalize (parse d source).openBefore index = opened at hlevels hturn
    cases hturn with
    | closes => exact hlevels.exists_group
    | plain isPlain => cases isPlain

end Template
end TemplateLint
