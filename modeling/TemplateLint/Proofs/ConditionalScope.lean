import TemplateLint.Proofs.Restoration

/-! Which variables are left after an `if`. An `if` has a frame only from the first of its headers
that declares variables, so what its branches declare before that goes to the frame around it and
stays there. -/
namespace TemplateLint

def Declaration.introduced (d : Declaration) : List String :=
  if d.op = .declare then d.vars else []

def BlockOpen.framed? (b : BlockOpen) (index : Nat) : Option Nat :=
  match b.kind with
  | .range | .with_ | .define | .block => some index
  | .if_ => if b.decl.isSome then some index else none
  | .elseIf => if b.decl.isSome then b.group else none
  | .else_ | .template => none

namespace NodeBody

def declared : NodeBody → List String
  | .action a => if trimmed a.expr = "" then [] else a.decl.elim [] Declaration.introduced
  | _ => []

def framed? (index : Nat) : NodeBody → Option Nat
  | .blockOpen b => b.framed? index
  | _ => none

theorem framed?_of_isPlain {body : NodeBody} (h : body.isPlain = true) (index : Nat) :
    body.framed? index = none := by
  cases body with
  | blockOpen _ => cases h
  | text | comment _ | action _ | blockClose _ | loopControl _ | malformed _ => rfl

end NodeBody

theorem NameMap.contains_insert {α : Type} (m : NameMap α) (name : String) (value : α)
    (other : String) :
    (m.insert name value).contains other = true ↔ m.contains other = true ∨ other = name := by
  unfold contains
  rw [get?_insert]
  split <;> simp [*]

namespace ScopeStack

theorem contains_bindAll (s : ScopeStack) (names : List String) (ref : TypeRef) (name : String) :
    (s.bindAll names ref).top.locals.contains name = true ↔
      s.top.locals.contains name = true ∨ name ∈ names := by
  induction names generalizing s with
  | nil => simp [bindAll]
  | cons first names ih =>
    change ((s.bind first ref).bindAll names ref).top.locals.contains name = true ↔ _
    rw [ih, List.mem_cons, ← or_assoc]
    exact or_congr_left (s.top.locals.contains_insert first ref name)

theorem contains_declare (s : ScopeStack) (decl : Option Declaration) (type? : Option TypeRef)
    (name : String) :
    (s.declare decl type?).1.top.locals.contains name = true ↔
      s.top.locals.contains name = true ∨ name ∈ decl.elim [] Declaration.introduced := by
  unfold declare
  split
  · simp
  · exact contains_bindAll s _ _ name
  · simp [Declaration.introduced]

theorem isVisible_eq (s : ScopeStack) (name : String) :
    s.isVisible name = (s.top.locals.contains name ||
      (!s.top.detached && ((visibleOf s.below).findSome? (·.locals.get? name)).isSome)) := by
  unfold isVisible lookup? visible frames NameMap.contains
  rw [visibleOf]
  cases s.top.detached <;> cases h : s.top.locals.get? name <;> simp [h]

theorem isVisible_withLocals {s : ScopeStack} {name : String} (h : s.isVisible name = false)
    (locals : NameMap TypeRef) : (s.withLocals locals).isVisible name = locals.contains name := by
  rw [isVisible_eq, Bool.or_eq_false_iff] at h
  rw [isVisible_eq]
  unfold withLocals
  rw [h.2, Bool.or_false]

theorem isVisible_of_frames_eq {s s' : ScopeStack} (h : s.frames = s'.frames) (name : String) :
    s.isVisible name = s'.isVisible name := by
  unfold isVisible lookup? visible
  rw [h]

end ScopeStack

namespace Walk

section

variable (o : Options) (file : String) (pos : Position) (w : Walk) {b : BlockOpen}

theorem openConstruct_of_hasBody (hbody : b.kind.hasBody = true) (index : Nat) :
    (b.framed? index = some index ∧ ∃ f, (w.openConstruct o file pos b).walk =
        ⟨w.stack.pushFrame f, ⟨b.kind, true⟩ :: w.groups⟩) ∨
      (b.framed? index = none ∧ (w.openConstruct o file pos b).walk =
        { w with groups := ⟨.if_, false⟩ :: w.groups }) := by
  by_cases hbare : b.kind = .if_ ∧ b.decl = none
  · obtain ⟨hkind, hdecl⟩ := hbare
    refine .inr ⟨?_, ?_⟩
    · simp [BlockOpen.framed?, hkind, hdecl]
    · simp [openConstruct, openIf, declareConditional, hkind, hdecl]
  · refine .inl ⟨?_, ?_⟩
    · unfold BlockOpen.framed?
      cases hkind : b.kind with
      | range | with_ | define | block => rfl
      | if_ =>
        have hdecl : b.decl ≠ none := fun h => hbare ⟨hkind, h⟩
        exact if_pos (Option.isSome_iff_ne_none.2 hdecl)
      | elseIf | else_ | template =>
        rw [hkind] at hbody
        cases hbody
    · have hmove := move_openConstruct o file pos w (b := b)
      generalize (w.openConstruct o file pos b).walk = next at hmove ⊢
      cases hmove with
      | @frame _ f _ => exact ⟨f, rfl⟩
      | bare hkind hdecl => exact absurd ⟨hkind, hdecl⟩ hbare
      | branch hbranch _ | branchFrame hbranch _ _ | strayBranch hbranch _ =>
        cases (BlockKind.isBranch_eq_false_of_hasBody hbody).symm.trans hbranch
      | call hkind =>
        rw [hkind] at hbody
        cases hbody
      | plain isPlain => cases isPlain

theorem openConstruct_of_branch (hbranch : b.kind.isBranch = true) {c : Nat}
    (hgroup : b.group = some c) (index : Nat) :
    (b.framed? index = some c ∧ ∃ locals, (w.openConstruct o file pos b).walk =
        w.enterBranch.ensureFrame.withLocals locals) ∨
      (b.framed? index = none ∧ (w.openConstruct o file pos b).walk = w.enterBranch) := by
  cases hkind : b.kind with
  | elseIf =>
    cases hdecl : b.decl with
    | none =>
      refine .inr ⟨?_, ?_⟩
      · simp [BlockOpen.framed?, hkind, hdecl]
      · simp [openConstruct, openBranch, declareConditional, hkind, hgroup, hdecl]
    | some decl =>
      refine .inl ⟨?_, ?_⟩
      · simp [BlockOpen.framed?, hkind, hdecl, hgroup]
      · obtain ⟨locals, hlocals⟩ := ScopeStack.exists_declare w.enterBranch.ensureFrame.stack
          (some decl) (w.enterBranch.stack.check o b.expr b.path).type?
        refine ⟨locals, ?_⟩
        simp [openConstruct, openBranch, declareConditional, hkind, hgroup, hdecl, hlocals,
          withLocals]
  | else_ =>
    refine .inr ⟨?_, ?_⟩
    · simp [BlockOpen.framed?, hkind]
    · simp [openConstruct, openBranch, hkind, hgroup]
  | range | with_ | if_ | define | block | template =>
    rw [hkind] at hbranch
    cases hbranch

theorem openConstruct_of_stray (hbranch : b.kind.isBranch = true) (hgroup : b.group = none)
    (index : Nat) :
    b.framed? index = none ∧ (w.openConstruct o file pos b).walk = w := by
  cases hkind : b.kind with
  | elseIf | else_ => simp [BlockOpen.framed?, openConstruct, openBranch, hkind, hgroup]
  | range | with_ | if_ | define | block | template =>
    rw [hkind] at hbranch
    cases hbranch

theorem exists_effect_of_isPlain {n : Node} (h : n.body.isPlain = true) :
    ∃ locals, (w.effect o file n).walk = w.withLocals locals ∧
      ∀ name, locals.contains name = true ↔
        w.stack.top.locals.contains name = true ∨ name ∈ n.body.declared := by
  unfold effect
  cases hbody : n.body with
  | action a =>
    unfold action NodeBody.declared
    dsimp only
    split
    · exact ⟨w.stack.top.locals, rfl, by simp⟩
    · let type? := (w.stack.check o a.expr a.path).type?
      obtain ⟨locals, hlocals⟩ := ScopeStack.exists_declare w.stack a.decl type?
      refine ⟨locals, ?_, fun name => ?_⟩
      · change Walk.mk (w.stack.declare a.decl type?).1 w.groups = _
        rw [hlocals]
        rfl
      · have hnames := w.stack.contains_declare a.decl type? name
        rw [hlocals] at hnames
        exact hnames
  | text | comment _ | loopControl _ | malformed _ =>
    exact ⟨w.stack.top.locals, rfl, by simp [NodeBody.declared]⟩
  | blockOpen _ | blockClose _ =>
    rw [hbody] at h
    cases h

end

end Walk

/-- Constructs with and without frames, innermost first, and the groups and frames of a walk in
them. Below them are the groups `base` and the frames `bottom`. -/
inductive Stacked (framed : Nat → Prop) (base : List Group) (bottom : List Frame) :
    List Nat → List Group → List Frame → Prop where
  | bottom : Stacked framed base bottom [] base bottom
  | bare {c : Nat} {inner : List Nat} {groups : List Group} {frames : List Frame}
      (lacks : ¬framed c) (rest : Stacked framed base bottom inner groups frames) :
      Stacked framed base bottom (c :: inner) (⟨.if_, false⟩ :: groups) frames
  | framed {c : Nat} {kind : BlockKind} {f : Frame} {inner : List Nat} {groups : List Group}
      {frames : List Frame} (has : framed c)
      (rest : Stacked framed base bottom inner groups frames) :
      Stacked framed base bottom (c :: inner) (⟨kind, true⟩ :: groups) (f :: frames)

namespace Stacked

variable {framed framed' : Nat → Prop} {base groups : List Group} {bottom frames : List Frame}
  {c : Nat} {inner : List Nat} {f : Frame} {w : Walk}

theorem congr (h : Stacked framed base bottom inner groups frames)
    (hframed : ∀ c ∈ inner, (framed' c ↔ framed c)) :
    Stacked framed' base bottom inner groups frames := by
  induction h with
  | bottom => exact .bottom
  | bare lacks _ ih =>
    rw [List.forall_mem_cons] at hframed
    exact .bare (fun has => lacks (hframed.1.1 has)) (ih hframed.2)
  | framed has _ ih =>
    rw [List.forall_mem_cons] at hframed
    exact .framed (hframed.1.2 has) (ih hframed.2)

theorem frames_ne_nil (h : Stacked framed base bottom inner groups frames) (hne : bottom ≠ []) :
    frames ≠ [] := by
  induction h with
  | bottom => exact hne
  | bare _ _ ih => exact ih
  | framed => exact List.cons_ne_nil _ _

theorem rebase (h : Stacked framed base bottom inner groups frames)
    (hlacks : ∀ c ∈ inner, ¬framed c) (bottom' : List Frame) :
    frames = bottom ∧ Stacked framed base bottom' inner groups bottom' := by
  induction h with
  | bottom => exact ⟨rfl, .bottom⟩
  | bare lacks _ ih =>
    rw [List.forall_mem_cons] at hlacks
    obtain ⟨hframes, hrest⟩ := ih hlacks.2
    exact ⟨hframes, .bare lacks hrest⟩
  | framed has => exact absurd has (hlacks _ List.mem_cons_self)

theorem replaceTop (h : Stacked framed base bottom inner groups (f :: frames))
    (hhas : ∃ c ∈ inner, framed c) (f' : Frame) :
    Stacked framed base bottom inner groups (f' :: frames) := by
  generalize hall : f :: frames = all at h
  induction h with
  | bottom =>
    obtain ⟨c, hc, -⟩ := hhas
    cases hc
  | bare lacks _ ih =>
    obtain ⟨c, hc, has⟩ := hhas
    rcases List.mem_cons.1 hc with rfl | hc
    · exact absurd has lacks
    · exact .bare lacks (ih ⟨c, hc, has⟩ hall)
  | framed has rest _ =>
    cases hall
    exact .framed has rest

theorem enterBranch (h : Stacked framed base bottom (c :: inner) w.groups w.stack.frames) :
    Stacked framed base bottom (c :: inner) w.enterBranch.groups w.enterBranch.stack.frames := by
  rcases w.enterBranch_cases with heq | ⟨kind, groups, dot, hgroups, heq⟩
  · rwa [heq]
  · rw [heq]
    change Stacked framed base bottom _ w.groups ({ w.stack.top with dot } :: w.stack.below)
    unfold ScopeStack.frames at h
    rw [hgroups] at h ⊢
    generalize w.stack.below = below at h ⊢
    cases h with
    | framed has rest => exact .framed has rest

theorem ensureFrame (h : Stacked framed base bottom (c :: inner) w.groups w.stack.frames)
    (has : framed' c) (hframed : ∀ c' ∈ inner, (framed' c' ↔ framed c'))
    (locals : NameMap TypeRef) :
    Stacked framed' base bottom (c :: inner) (w.ensureFrame.withLocals locals).groups
      (w.ensureFrame.withLocals locals).stack.frames := by
  obtain ⟨⟨root, top, below⟩, groups⟩ := w
  unfold ScopeStack.frames at h
  dsimp only at h
  generalize hframes : top :: below = frames at h
  cases h with
  | bare _ rest =>
    rw [← hframes] at rest
    exact .framed has (rest.congr hframed)
  | framed _ rest =>
    cases hframes
    exact .framed has (rest.congr hframed)

theorem close (h : Stacked framed base bottom (c :: inner) w.groups w.stack.frames)
    (hne : bottom ≠ []) (opener : Nat) :
    Stacked framed base bottom inner (w.close (some opener)).groups
      (w.close (some opener)).stack.frames := by
  obtain ⟨⟨root, top, below⟩, groups⟩ := w
  unfold ScopeStack.frames at h
  dsimp only at h
  generalize hframes : top :: below = frames at h
  cases h with
  | bare _ rest =>
    rw [← hframes] at rest
    exact rest
  | framed _ rest =>
    cases hframes
    cases below with
    | nil => cases rest.frames_ne_nil hne rfl
    | cons g below => exact rest

end Stacked

namespace Template

def declared (t : Template) (index : Nat) : List String :=
  (t.body? index).elim [] NodeBody.declared

def framed? (t : Template) (index : Nat) : Option Nat :=
  (t.body? index).bind (NodeBody.framed? index)

def framedBefore (t : Template) (index : Nat) : List Nat :=
  (List.range index).filterMap t.framed?

def openSince (t : Template) (i index : Nat) : List Nat :=
  (t.openBefore index).filter (i ≤ ·)

/-- A declaration from `i` on and before `index` whose variables the frame around `i` gets: none of
the constructs around it, out to the one at `i`, has a frame yet. -/
def Escapes (t : Template) (i index : Nat) (name : String) : Prop :=
  ∃ k, i ≤ k ∧ k < index ∧ name ∈ t.declared k ∧ ∀ c ∈ t.openSince i k, c ∉ t.framedBefore k

theorem mem_framedBefore_succ {t : Template} {index c : Nat} :
    c ∈ t.framedBefore (index + 1) ↔ c ∈ t.framedBefore index ∨ t.framed? index = some c := by
  simp [framedBefore, List.range_succ]

theorem escapes_succ {t : Template} {i index : Nat} (hle : i ≤ index) {name : String} :
    t.Escapes i (index + 1) name ↔ t.Escapes i index name ∨
      name ∈ t.declared index ∧ ∀ c ∈ t.openSince i index, c ∉ t.framedBefore index := by
  constructor
  · rintro ⟨k, hik, hk, hdeclared⟩
    rcases Nat.lt_succ_iff_lt_or_eq.1 hk with hk | rfl
    · exact .inl ⟨k, hik, hk, hdeclared⟩
    · exact .inr hdeclared
  · rintro (⟨k, hik, hk, hdeclared⟩ | hdeclared)
    · exact ⟨k, hik, Nat.lt_succ_of_lt hk, hdeclared⟩
    · exact ⟨index, hle, Nat.lt_succ_self index, hdeclared⟩

inductive Shift (index : Nat) (w : Walk) :
    List String → Option Nat → List Nat → List Nat → Walk → Prop where
  | framed {kind : BlockKind} {f : Frame} {opened : List Nat} :
      Shift index w [] (some index) opened (index :: opened)
        ⟨w.stack.pushFrame f, ⟨kind, true⟩ :: w.groups⟩
  | bare {opened : List Nat} :
      Shift index w [] none opened (index :: opened) { w with groups := ⟨.if_, false⟩ :: w.groups }
  | branch {c : Nat} {opened : List Nat} :
      Shift index w [] none (c :: opened) (c :: opened) w.enterBranch
  | branchFrame {c : Nat} {opened : List Nat} (locals : NameMap TypeRef) :
      Shift index w [] (some c) (c :: opened) (c :: opened)
        (w.enterBranch.ensureFrame.withLocals locals)
  | closes {c : Nat} {opened : List Nat} :
      Shift index w [] none (c :: opened) opened (w.close (some c))
  | keeps {names : List String} {opened : List Nat} {locals : NameMap TypeRef}
      (contains : ∀ name, locals.contains name = true ↔
        w.stack.top.locals.contains name = true ∨ name ∈ names) :
      Shift index w names none opened opened (w.withLocals locals)

theorem Shift.refl (index : Nat) (w : Walk) (opened : List Nat) :
    Shift index w [] none opened opened w := by
  change Shift index w [] none opened opened (w.withLocals w.stack.top.locals)
  exact .keeps (by simp)

variable {t : Template} {i j index : Nat}

theorem Turn.shift (o : Options) (file : String) (w : Walk) {n : Node} {opened after : List Nat}
    (h : t.Turn index n.body opened after) :
    Shift index w n.body.declared (n.body.framed? index) opened after (w.effect o file n).walk := by
  generalize hbody : n.body = body at h
  unfold Walk.effect
  rw [hbody]
  cases h with
  | opens body _ =>
    change Shift index w [] _ _ _ _
    rcases w.openConstruct_of_hasBody o file n.pos body index with
      ⟨hframed, f, hwalk⟩ | ⟨hframed, hwalk⟩
    · rw [NodeBody.framed?, hframed, hwalk]
      exact .framed
    · rw [NodeBody.framed?, hframed, hwalk]
      exact .bare
  | branch hbranch hgroup _ _ =>
    change Shift index w [] _ _ _ _
    rcases w.openConstruct_of_branch o file n.pos hbranch hgroup index with
      ⟨hframed, locals, hwalk⟩ | ⟨hframed, hwalk⟩
    · rw [NodeBody.framed?, hframed, hwalk]
      exact .branchFrame locals
    · rw [NodeBody.framed?, hframed, hwalk]
      exact .branch
  | strayBranch hbranch hgroup _ =>
    obtain ⟨hframed, hwalk⟩ := w.openConstruct_of_stray o file n.pos hbranch hgroup index
    rw [NodeBody.framed?, hframed]
    dsimp only
    rw [hwalk]
    exact .refl index w opened
  | call hkind _ =>
    rw [NodeBody.framed?]
    simp only [BlockOpen.framed?, Walk.openConstruct, hkind]
    exact .refl index w opened
  | closes => exact .closes
  | strayEnd => exact .refl index w []
  | plain hplain =>
    rw [← hbody] at hplain
    obtain ⟨locals, hwalk, hcontains⟩ := w.exists_effect_of_isPlain o file hplain
    unfold Walk.effect at hwalk
    rw [hbody] at hwalk hcontains hplain
    rw [NodeBody.framed?_of_isPlain hplain, hwalk]
    exact .keeps hcontains

theorem le_head {c : Nat} {opened : List Nat} (h : (c :: opened).Pairwise (· > ·))
    (hi : i ∈ c :: opened) : i ≤ c := by
  rcases List.mem_cons.1 hi with rfl | hi
  · exact Nat.le_refl i
  · exact Nat.le_of_lt ((List.pairwise_cons.1 h).1 i hi)

/-- One node: its variables go to the frames at the bottom if no construct between has a frame, and
to the frame of a construct otherwise. -/
theorem Shift.stacked {w next : Walk} {names : List String} {gives : Option Nat}
    {opened after : List Nat} {framed framed' : Nat → Prop} {base : List Group} {s : ScopeStack}
    {locals : NameMap TypeRef} (hshift : Shift index w names gives opened after next)
    (hframed : ∀ c, framed' c ↔ framed c ∨ gives = some c) (hfresh : ¬framed index)
    (hlt : ∀ c ∈ opened, c < index) (hpairwise : opened.Pairwise (· > ·)) (hle : i ≤ index)
    (hin : i ∈ after)
    (h : Stacked framed base (s.withLocals locals).frames (opened.filter (i ≤ ·)) w.groups
      w.stack.frames) :
    ∃ locals', Stacked framed' base (s.withLocals locals').frames (after.filter (i ≤ ·))
        next.groups next.stack.frames ∧
      ∀ name, locals'.contains name = true ↔ locals.contains name = true ∨
        name ∈ names ∧ ∀ c ∈ opened.filter (i ≤ ·), ¬framed c := by
  cases hshift with
  | framed =>
    refine ⟨locals, ?_, by simp⟩
    rw [List.filter_cons_of_pos (by simpa using hle)]
    refine .framed ((hframed index).2 (.inr rfl)) (h.congr fun c hc => ?_)
    have hne : index ≠ c := Nat.ne_of_gt (hlt c (List.mem_filter.1 hc).1)
    simp [hframed, hne]
  | bare =>
    refine ⟨locals, ?_, by simp⟩
    rw [List.filter_cons_of_pos (by simpa using hle)]
    exact .bare (by simpa [hframed] using hfresh) (h.congr (by simp [hframed]))
  | @branch c rest =>
    have hic := le_head hpairwise hin
    refine ⟨locals, ?_, by simp⟩
    rw [List.filter_cons_of_pos (by simpa using hic)] at h ⊢
    exact h.enterBranch.congr (by simp [hframed])
  | @branchFrame c rest declared =>
    have hic := le_head hpairwise hin
    refine ⟨locals, ?_, by simp⟩
    rw [List.filter_cons_of_pos (by simpa using hic)] at h ⊢
    refine h.enterBranch.ensureFrame ((hframed c).2 (.inr rfl)) (fun c' hc' => ?_) declared
    have hgt := (List.pairwise_cons.1 hpairwise).1 c' (List.mem_filter.1 hc').1
    have hne : c ≠ c' := Nat.ne_of_gt hgt
    simp [hframed, hne]
  | @closes c =>
    have hic := le_head hpairwise (List.mem_cons_of_mem c hin)
    refine ⟨locals, ?_, by simp⟩
    rw [List.filter_cons_of_pos (by simpa using hic)] at h
    exact (h.close (List.cons_ne_nil _ _) c).congr (by simp [hframed])
  | @keeps _ _ declared contains =>
    have hsame : ∀ c ∈ opened.filter (i ≤ ·), (framed' c ↔ framed c) := by simp [hframed]
    by_cases hlacks : ∀ c ∈ opened.filter (i ≤ ·), ¬framed c
    · obtain ⟨hframes, hrest⟩ := h.rebase hlacks (s.withLocals declared).frames
      obtain ⟨htop, hbelow⟩ := List.cons.inj hframes
      refine ⟨declared, ?_, fun name => ?_⟩
      · change Stacked framed' base _ _ w.groups
          ({ w.stack.top with locals := declared } :: w.stack.below)
        rw [htop, hbelow]
        exact hrest.congr hsame
      · rw [contains, htop, and_iff_left hlacks]
        rfl
    · refine ⟨locals, ?_, fun name => ?_⟩
      · apply Stacked.congr _ hsame
        exact Stacked.replaceTop h (by simpa [and_assoc] using hlacks) _
      · exact (or_iff_left fun hname => hlacks hname.2).symm

namespace WellPaired

variable (ht : t.WellPaired)

include ht

theorem shift (o : Options) (ctx : Context) (index : Nat) :
    Shift index (t.walkBefore o ctx index) (t.declared index) (t.framed? index)
      (t.openBefore index) (t.openBefore (index + 1)) (t.walkBefore o ctx (index + 1)) := by
  unfold declared framed?
  cases hn : t.nodes[index]? with
  | none =>
    have hbody : t.body? index = none := by simp [body?, hn]
    rw [hbody, ht.past hbody, walkBefore_succ_of_body?_eq_none o ctx hbody]
    exact .refl index _ _
  | some n =>
    have hbody : t.body? index = some n.body := by simp [body?, hn]
    rw [hbody, walkBefore_succ o ctx hn]
    exact (ht.turn hbody).shift o ctx.file _

theorem le_of_framed? {c : Nat} (h : t.framed? index = some c) : c ≤ index := by
  have hshift := ht.shift {} { file := "", root := .unknown } index
  have hlt : ∀ c ∈ t.openBefore index, c < index := fun c => lt_of_mem_openBefore
  rw [h] at hshift
  generalize t.declared index = names at hshift
  generalize t.openBefore index = opened at hshift hlt
  generalize t.openBefore (index + 1) = after at hshift
  generalize t.walkBefore _ _ (index + 1) = next at hshift
  cases hshift with
  | framed => exact Nat.le_refl index
  | branchFrame _ => exact Nat.le_of_lt (hlt c List.mem_cons_self)

theorem not_mem_framedBefore_self (index : Nat) : index ∉ t.framedBefore index := by
  intro hmem
  obtain ⟨k, hk, hframed⟩ := List.mem_filterMap.1 hmem
  have hlt := List.mem_range.1 hk
  have hle := ht.le_of_framed? hframed
  omega

end WellPaired

/-- The walk before `index`, in the constructs from the one at `i` on, which opened on the walk
`base`. The frames of `base` are below theirs; the innermost has got the escaped variables. -/
structure Since (t : Template) (base : Walk) (i index : Nat) (w : Walk)
    (locals : NameMap TypeRef) : Prop where
  stacked : Stacked (· ∈ t.framedBefore index) base.groups (base.stack.withLocals locals).frames
    (t.openSince i index) w.groups w.stack.frames
  contains : ∀ name, locals.contains name = true ↔
    base.stack.top.locals.contains name = true ∨ t.Escapes i index name

theorem Since.start (base : Walk) (i : Nat) : Since t base i i base base.stack.top.locals where
  stacked := by
    have hnone : t.openSince i i = [] := by
      refine List.filter_eq_nil_iff.2 fun c hc => ?_
      have hlt := lt_of_mem_openBefore hc
      simpa using hlt
    rw [hnone]
    exact .bottom
  contains := by
    intro name
    refine ⟨.inl, ?_⟩
    rintro (h | ⟨k, hik, hk, -⟩)
    · exact h
    · omega

theorem Since.step (ht : t.WellPaired) (o : Options) (ctx : Context) {base : Walk}
    {locals : NameMap TypeRef} (h : Since t base i index (t.walkBefore o ctx index) locals)
    (hle : i ≤ index) (hin : i ∈ t.openBefore (index + 1)) :
    ∃ locals', Since t base i (index + 1) (t.walkBefore o ctx (index + 1)) locals' := by
  obtain ⟨locals', hstacked, hcontains⟩ := (ht.shift o ctx index).stacked
    (fun _ => mem_framedBefore_succ) (ht.not_mem_framedBefore_self index)
    (fun _ => lt_of_mem_openBefore) (t.pairwise_openBefore index) hle hin h.stacked
  refine ⟨locals', hstacked, fun name => ?_⟩
  rw [hcontains, h.contains, or_assoc, escapes_succ hle]
  rfl

namespace WellPaired

variable (ht : t.WellPaired) (o : Options) (ctx : Context)

include ht

theorem exists_since (hend : t.body? j = some (.blockClose (some i))) {k : Nat} (hik : i ≤ k)
    (hkj : k ≤ j) : ∃ locals, Since t (t.walkBefore o ctx i) i k (t.walkBefore o ctx k) locals := by
  have hmem : i ∈ t.openBefore j := by simp [ht.openBefore_of_blockClose hend]
  induction hik with
  | refl => exact ⟨_, .start _ i⟩
  | @step k hik ih =>
    obtain ⟨locals, hsince⟩ := ih (by omega)
    apply hsince.step ht o ctx hik
    exact mem_openBefore_of_le hmem (Nat.lt_succ_of_le hik) hkj

theorem escaped_after_end (hend : t.body? j = some (.blockClose (some i))) :
    ∃ locals, (t.walkBefore o ctx (j + 1)).stack.frames =
        ((t.walkBefore o ctx i).stack.withLocals locals).frames ∧
      ∀ name, locals.contains name = true ↔
        (t.walkBefore o ctx i).stack.top.locals.contains name = true ∨ t.Escapes i j name := by
  have hopened := ht.openBefore_of_blockClose hend
  have hmem : i ∈ t.openBefore j := by simp [hopened]
  obtain ⟨locals, hsince⟩ :=
    ht.exists_since o ctx hend (Nat.le_of_lt (lt_of_mem_openBefore hmem)) (Nat.le_refl j)
  refine ⟨locals, ?_, hsince.contains⟩
  have hinner : t.openSince i j = [i] := by
    have hpairwise := t.pairwise_openBefore j
    rw [hopened, List.pairwise_cons] at hpairwise
    rw [openSince, hopened, List.filter_cons_of_pos (by simp)]
    congr 1
    refine List.filter_eq_nil_iff.2 fun c hc => ?_
    simpa using hpairwise.1 c hc
  have hstacked := hsince.stacked
  rw [hinner] at hstacked
  obtain ⟨n, hn, hbody⟩ := Option.map_eq_some_iff.1 hend
  have hwalk : t.walkBefore o ctx (j + 1) = (t.walkBefore o ctx j).close (some i) := by
    rw [walkBefore_succ o ctx hn, Walk.effect, hbody]
  rw [hwalk]
  exact ((hstacked.close (List.cons_ne_nil _ _) i).rebase (by simp) []).1

end WellPaired

/-- A variable that cannot be seen before a construct can be seen after the end of it exactly if it
escapes: some action inside declares it while the construct and everything open within it have no
frame. All constructs but an `if` have one from the start. -/
theorem variable_outlives_end_iff_escapes (d : Delimiters) (o : Options) (ctx : Context)
    (source : String) {i j : Nat} {b : BlockOpen} (hb : (parse d source).block? i = some b)
    (hj : b.close = some j) {name : String}
    (hname : ((parse d source).walkBefore o ctx i).stack.isVisible name = false) :
    ((parse d source).walkBefore o ctx (j + 1)).stack.isVisible name = true ↔
      (parse d source).Escapes i j name := by
  have ht := wellPaired_parse d source
  obtain ⟨locals, hframes, hcontains⟩ := ht.escaped_after_end o ctx ((ht.close_iff hb).1 hj).1
  have htop : ((parse d source).walkBefore o ctx i).stack.top.locals.contains name = false := by
    rw [ScopeStack.isVisible_eq, Bool.or_eq_false_iff] at hname
    exact hname.1
  rw [ScopeStack.isVisible_of_frames_eq hframes, ScopeStack.isVisible_withLocals hname, hcontains,
    htop]
  simp

theorem variable_outlives_end_iff_escapes_of_nested_if :
    let t := parse {} (Delimiters.actions {}
      ["if .A", "if .B", "$x := 1", "else if $y := 2", "$z := 3", "end", "end"])
    let walk := t.walkBefore {} { file := "page", root := .unknown }
    ∃ b, t.block? 0 = some b ∧ b.kind = .if_ ∧ b.close = some 6 ∧
      (walk 0).stack.isVisible "x" = false ∧ (walk 0).stack.isVisible "z" = false ∧
      "x" ∈ t.declared 2 ∧ "z" ∈ t.declared 4 ∧
      (walk 7).stack.isVisible "x" = true ∧ (walk 7).stack.isVisible "z" = false := by
  intro t walk
  have hnodes : (t.block? 0).map (fun b => (b.kind, b.close)) = some (.if_, some 6) ∧
      ("x" ∈ t.declared 2 ∧ ∀ c ∈ t.openSince 0 2, c ∉ t.framedBefore 2) ∧
      "z" ∈ t.declared 4 ∧
      ∀ k < 6, ¬("z" ∈ t.declared k ∧ ∀ c ∈ t.openSince 0 k, c ∉ t.framedBefore k) := by
    decide +kernel
  obtain ⟨hblock, hx, hdeclared, hz⟩ := hnodes
  obtain ⟨b, hb, hparts⟩ := Option.map_eq_some_iff.1 hblock
  obtain ⟨hkind, hclose⟩ := Prod.mk.inj hparts
  refine ⟨b, hb, hkind, hclose, rfl, rfl, hx.1, hdeclared, ?_, ?_⟩
  · apply (variable_outlives_end_iff_escapes {} {} _ _ hb hclose rfl).2
    exact ⟨2, by decide, by decide, hx⟩
  · rw [← Bool.not_eq_true]
    intro hvisible
    obtain ⟨k, -, hk, hescapes⟩ :=
      (variable_outlives_end_iff_escapes {} {} _ _ hb hclose rfl).1 hvisible
    exact hz k hk hescapes

/-- What a plain `if` declares is still there after its `end`, and a use of it raises no alarm. -/
theorem declaration_outlives_plain_if :
    let source := Delimiters.actions {} ["if .A", "$x := 1", "end", "$x"]
    let ctx : Context := { file := "page", root := .unknown }
    let t := parse {} source
    (t.block? 0).map (fun b => (b.kind, b.close)) = some (.if_, some 2) ∧
      (t.walkBefore {} ctx 0).stack.isVisible "x" = false ∧
      (t.walkBefore {} ctx 3).stack.isVisible "x" = true ∧
      (check {} ctx source).diagnostics = [] := by
  intro source ctx t
  rw [← List.isEmpty_iff]
  decide +kernel

end Template
end TemplateLint
