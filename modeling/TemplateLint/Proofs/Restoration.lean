import TemplateLint.Proofs.WalkSteps

/-! The end of a construct gives back the scope that the construct was opened in, whatever stands
between the two. -/
namespace TemplateLint

theorem ScopeStack.exists_enterElse (s : ScopeStack) :
    ∃ dot, s.enterElse = { s with top := { s.top with dot } } := by
  unfold enterElse
  split
  · next dot _ => exact ⟨dot, rfl⟩
  · exact ⟨s.top.dot, rfl⟩

theorem Walk.enterBranch_cases (w : Walk) :
    w.enterBranch = w ∨ ∃ kind groups dot, w.groups = ⟨kind, true⟩ :: groups ∧
      w.enterBranch = { w with stack := { w.stack with top := { w.stack.top with dot } } } := by
  obtain ⟨dot, hdot⟩ := w.stack.exists_enterElse
  unfold enterBranch
  split
  · next groups hgroups => exact .inr ⟨.range, groups, dot, hgroups, by rw [hdot]⟩
  · next groups hgroups => exact .inr ⟨.with_, groups, dot, hgroups, by rw [hdot]⟩
  · exact .inl rfl

/-- A walk inside the construct at `c`, which was opened on the walk `base` with `outer` open. The
frames of `base` are still there. Only a construct that did not get a frame when it was opened lets
the variables of the innermost one change; `owned` says that it got one. -/
inductive Inside (base : Walk) (owned : Prop) (c : Nat) (outer : List Nat) :
    List Nat → List Group → List Frame → Prop where
  | shared (unowned : ¬owned) (locals : NameMap TypeRef) :
      Inside base owned c outer (c :: outer) (⟨.if_, false⟩ :: base.groups)
        (base.stack.withLocals locals).frames
  | own {kind : BlockKind} {f : Frame} {locals : NameMap TypeRef}
      (kept : owned → locals = base.stack.top.locals) :
      Inside base owned c outer (c :: outer) (⟨kind, true⟩ :: base.groups)
        (f :: (base.stack.withLocals locals).frames)
  | bare {c' : Nat} {opened : List Nat} {groups : List Group} {frames : List Frame}
      (rest : Inside base owned c outer opened groups frames) :
      Inside base owned c outer (c' :: opened) (⟨.if_, false⟩ :: groups) frames
  | framed {c' : Nat} {kind : BlockKind} {f : Frame} {opened : List Nat} {groups : List Group}
      {frames : List Frame} (rest : Inside base owned c outer opened groups frames) :
      Inside base owned c outer (c' :: opened) (⟨kind, true⟩ :: groups) (f :: frames)

namespace Inside

variable {base w : Walk} {owned : Prop} {c c' : Nat} {outer opened : List Nat}
  {groups : List Group} {frames : List Frame} {f : Frame}

theorem mem (h : Inside base owned c outer opened groups frames) : c ∈ opened := by
  induction h with
  | shared | own => exact List.mem_cons_self
  | bare _ ih | framed _ ih => exact List.mem_cons_of_mem _ ih

theorem frames_ne_nil (h : Inside base owned c outer opened groups frames) : frames ≠ [] := by
  induction h with
  | shared | own | framed => exact List.cons_ne_nil _ _
  | bare _ ih => exact ih

theorem withLocals (h : Inside base owned c outer opened groups (f :: frames))
    (locals : NameMap TypeRef) :
    Inside base owned c outer opened groups ({ f with locals } :: frames) := by
  generalize hframes : f :: frames = all at h
  induction h with
  | shared unowned _ =>
    cases hframes
    exact .shared unowned locals
  | own kept =>
    cases hframes
    exact .own kept
  | bare _ ih => exact .bare (ih hframes)
  | framed rest _ =>
    cases hframes
    exact .framed rest

theorem enterBranch (h : Inside base owned c outer opened w.groups w.stack.frames) :
    Inside base owned c outer opened w.enterBranch.groups w.enterBranch.stack.frames := by
  rcases w.enterBranch_cases with heq | ⟨kind, groups, dot, hgroups, heq⟩
  · rwa [heq]
  · rw [heq]
    change Inside base owned c outer opened w.groups ({ w.stack.top with dot } :: w.stack.below)
    unfold ScopeStack.frames at h
    rw [hgroups] at h ⊢
    generalize w.stack.below = below at h ⊢
    cases h with
    | own kept => exact .own kept
    | framed rest => exact .framed rest

theorem ensureFrame (h : Inside base owned c outer opened w.groups w.stack.frames) :
    Inside base owned c outer opened w.ensureFrame.groups w.ensureFrame.stack.frames := by
  obtain ⟨stack, groups⟩ := w
  dsimp only at h
  generalize hframes : stack.frames = frames at h
  cases h with
  | shared unowned locals =>
    unfold Walk.ensureFrame
    change Inside base owned c outer _ _ (_ :: stack.frames)
    rw [hframes]
    exact .own fun h => absurd h unowned
  | bare rest =>
    unfold Walk.ensureFrame
    change Inside base owned c outer _ _ (_ :: stack.frames)
    rw [hframes]
    exact .framed rest
  | own kept =>
    unfold Walk.ensureFrame
    rw [hframes]
    exact .own kept
  | framed rest =>
    unfold Walk.ensureFrame
    rw [hframes]
    exact .framed rest

theorem close_inner {opener : Nat}
    (h : Inside base owned c outer (c' :: opened) w.groups w.stack.frames) (hne : c' ≠ c) :
    Inside base owned c outer opened (w.close (some opener)).groups
      (w.close (some opener)).stack.frames := by
  obtain ⟨⟨root, top, below⟩, groups⟩ := w
  unfold ScopeStack.frames at h
  dsimp only at h
  generalize hframes : top :: below = frames at h
  cases h with
  | shared | own => exact absurd rfl hne
  | bare rest =>
    rw [← hframes] at rest
    exact rest
  | framed rest =>
    cases hframes
    cases below with
    | nil => cases rest.frames_ne_nil rfl
    | cons g below => exact rest

theorem close_own {opener : Nat}
    (h : Inside base owned c outer (c :: opened) w.groups w.stack.frames) (hc : c ∉ opened) :
    ∃ locals, (owned → locals = base.stack.top.locals) ∧
      (w.close (some opener)).stack.frames = (base.stack.withLocals locals).frames := by
  obtain ⟨⟨root, top, below⟩, groups⟩ := w
  unfold ScopeStack.frames at h
  dsimp only at h
  generalize hframes : top :: below = frames at h
  cases h with
  | shared unowned locals => exact ⟨locals, fun h => absurd h unowned, hframes⟩
  | @own _ _ locals kept =>
    cases hframes
    exact ⟨locals, kept, rfl⟩
  | bare rest | framed rest => exact absurd rest.mem hc

theorem step {t : Template} {o : Options} {next : Walk} {index : Nat} {body : NodeBody}
    {after : List Nat} (hstride : t.Stride o index w body opened after next)
    (hend : body ≠ .blockClose (some c))
    (h : Inside base owned c outer opened w.groups w.stack.frames) :
    Inside base owned c outer after next.groups next.stack.frames := by
  cases hstride with
  | framed _ _ => exact .framed h
  | bare _ _ _ => exact .bare h
  | branch _ _ => exact h.enterBranch
  | branchFrame _ _ locals => exact h.enterBranch.ensureFrame.withLocals locals
  | closes =>
    apply h.close_inner
    rintro rfl
    exact hend rfl
  | keeps _ locals => exact h.withLocals locals

end Inside

namespace Template

variable {t : Template} {i j : Nat} {b : BlockOpen}

theorem WellPaired.inside_open (ht : t.WellPaired) (o : Options) (ctx : Context)
    (hb : t.block? i = some b) (hi : i ∈ t.openBefore (i + 1)) :
    Inside (t.walkBefore o ctx i) (b.kind ≠ .if_ ∨ b.decl.isSome = true) i (t.openBefore i)
      (t.openBefore (i + 1)) (t.walkBefore o ctx (i + 1)).groups
      (t.walkBefore o ctx (i + 1)).stack.frames := by
  have hfresh : i ∉ t.openBefore i := fun h => Nat.lt_irrefl i (lt_of_mem_openBefore h)
  have hstride := ht.stride o ctx (block?_eq_some_iff.1 hb)
  generalize t.openBefore i = opened at hstride hfresh ⊢
  generalize t.openBefore (i + 1) = after at hstride hi ⊢
  generalize t.walkBefore o ctx (i + 1) = next at hstride ⊢
  cases hstride with
  | framed _ _ => exact .own fun _ => rfl
  | bare _ hkind hdecl =>
    refine .shared ?_ (t.walkBefore o ctx i).stack.top.locals
    rintro (h | h)
    · exact h hkind
    · rw [hdecl] at h
      cases h
  | branch _ _ | branchFrame _ _ _ | keeps _ _ => exact absurd hi hfresh

theorem WellPaired.inside (ht : t.WellPaired) (o : Options) (ctx : Context)
    (hb : t.block? i = some b) (hj : b.close = some j) {k : Nat} (hik : i + 1 ≤ k) (hkj : k ≤ j) :
    Inside (t.walkBefore o ctx i) (b.kind ≠ .if_ ∨ b.decl.isSome = true) i (t.openBefore i)
      (t.openBefore k) (t.walkBefore o ctx k).groups (t.walkBefore o ctx k).stack.frames := by
  obtain ⟨hend, hfirst⟩ := (ht.close_iff hb).1 hj
  have hmem : i ∈ t.openBefore j := by
    rw [ht.openBefore_of_blockClose hend]
    exact List.mem_cons_self
  induction hik with
  | refl =>
    apply ht.inside_open o ctx hb
    exact mem_openBefore_of_le hmem (Nat.lt_succ_self i) hkj
  | @step k hik ih =>
    have hinside := ih (by omega)
    cases hk : t.body? k with
    | none =>
      rw [ht.past hk, walkBefore_succ_of_body?_eq_none o ctx hk]
      exact hinside
    | some body =>
      apply hinside.step (ht.stride o ctx hk)
      rintro rfl
      exact hfirst k (by omega) hk

/-- The walk after an end has the frames of the walk before the opening, up to variables of the
innermost frame that an `if` without a frame of its own let through. -/
theorem WellPaired.frames_after_end (ht : t.WellPaired) (o : Options) (ctx : Context)
    (hb : t.block? i = some b) (hj : b.close = some j) :
    ∃ locals, (b.kind ≠ .if_ ∨ b.decl.isSome = true →
        locals = (t.walkBefore o ctx i).stack.top.locals) ∧
      (t.walkBefore o ctx (j + 1)).stack.frames =
        ((t.walkBefore o ctx i).stack.withLocals locals).frames := by
  have hend := ((ht.close_iff hb).1 hj).1
  have hopened := ht.openBefore_of_blockClose hend
  have hpairwise := t.pairwise_openBefore j
  have hmem : i ∈ t.openBefore j := by simp [hopened]
  have hinside := ht.inside o ctx hb hj (lt_of_mem_openBefore hmem) (Nat.le_refl j)
  have hstride := ht.stride o ctx hend
  rw [hopened] at hinside hstride hpairwise
  have hfresh : i ∉ t.openBefore (j + 1) := by
    intro h
    exact Nat.lt_irrefl i ((List.pairwise_cons.1 hpairwise).1 i h)
  generalize t.openBefore (j + 1) = after at *
  generalize t.walkBefore o ctx (j + 1) = next at *
  cases hstride with
  | closes => exact hinside.close_own hfresh

/-- After the `end` of a construct the scope is the one before its opening. Only the variables of the
innermost frame can be others, and only if the construct is an `if` that declares none. -/
theorem end_restores_scope (d : Delimiters) (o : Options) (ctx : Context) (source : String)
    {i j : Nat} {b : BlockOpen} (hb : (parse d source).block? i = some b)
    (hj : b.close = some j) :
    let before := ((parse d source).walkBefore o ctx i).stack
    let after := ((parse d source).walkBefore o ctx (j + 1)).stack
    after.depth = before.depth ∧
      after.frames.map (fun f => (f.kind, f.dot, f.detached)) =
        before.frames.map (fun f => (f.kind, f.dot, f.detached)) ∧
      after.below.map Frame.locals = before.below.map Frame.locals ∧
      (b.kind ≠ .if_ ∨ b.decl.isSome = true → after.top.locals = before.top.locals) := by
  intro before after
  obtain ⟨locals, hlocals, hframes⟩ :=
    (wellPaired_parse d source).frames_after_end o ctx hb hj
  change after.frames = (before.withLocals locals).frames at hframes
  obtain ⟨htop, hbelow⟩ := List.cons.inj hframes
  refine ⟨?_, ?_, ?_, ?_⟩
  · unfold ScopeStack.depth
    rw [hframes]
    rfl
  · rw [hframes]
    rfl
  · rw [hbelow]
    rfl
  · intro hown
    rw [htop]
    exact hlocals hown

theorem end_restores_scope_of_declaring_if :
    let t := parse {} (Delimiters.actions {}
      ["if $x := .A", "$y := .B", "with .C", "else if $z := .D", "end", "end"])
    let walk := t.walkBefore {} { file := "page", root := .unknown }
    ∃ b, t.block? 0 = some b ∧ b.close = some 5 ∧ b.decl.isSome = true ∧
      (walk 6).stack.depth = (walk 0).stack.depth ∧
      (walk 6).stack.top.locals = (walk 0).stack.top.locals := by
  intro t walk
  have hblock : (t.block? 0).map (fun b => (b.close, b.decl.isSome)) = some (some 5, true) := by
    decide +kernel
  obtain ⟨b, hb, hends⟩ := Option.map_eq_some_iff.1 hblock
  obtain ⟨hclose, hdecl⟩ := Prod.mk.inj hends
  obtain ⟨hdepth, -, -, hlocals⟩ := end_restores_scope {} {} _ _ hb hclose
  exact ⟨b, hb, hclose, hdecl, hdepth, hlocals (.inr hdecl)⟩

end Template
end TemplateLint
