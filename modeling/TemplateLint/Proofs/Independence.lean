import TemplateLint.Proofs.Nesting
import TemplateLint.Proofs.Restoration

/-! Bodies that see nothing of what is around them. From inside a detached frame only the frames
down to it and the root can be reached, so a walk over the body of a `define` goes as if nothing
were below, and the frames and constructs that are below come out of it untouched. -/
namespace TemplateLint

namespace ScopeStack

def above (s base : ScopeStack) : ScopeStack := { s with below := s.below ++ base.frames }

def Sealed (s : ScopeStack) : Prop := s.frames.any Frame.detached = true

theorem Sealed.pushFrame {s : ScopeStack} (h : s.Sealed) (f : Frame) : (s.pushFrame f).Sealed := by
  have hframes : (s.pushFrame f).frames = f :: s.frames := rfl
  rw [Sealed, hframes, List.any_cons, h, Bool.or_true]

theorem Sealed.push {s : ScopeStack} (h : s.Sealed) (kind : FrameKind) (dot : TypeRef) :
    (s.push kind dot).Sealed :=
  h.pushFrame _

theorem Sealed.enterElse {s : ScopeStack} (h : s.Sealed) : s.enterElse.Sealed := by
  unfold ScopeStack.enterElse
  split
  · exact h
  · exact h

theorem visibleOf_append {fs : List Frame} (h : fs.any Frame.detached = true) (gs : List Frame) :
    visibleOf (fs ++ gs) = visibleOf fs := by
  induction fs with
  | nil => cases h
  | cons f fs ih =>
    rw [List.cons_append, visibleOf, visibleOf]
    split
    · rfl
    · next hattached =>
      rw [List.any_cons, Bool.eq_false_iff.2 hattached, Bool.false_or] at h
      rw [ih h]

/-- A pipeline is checked against what names mean, and against nothing else of the scope. -/
theorem check_of_env_eq {s s' : ScopeStack} (h : s.env = s'.env) (o : Options) (expr : String)
    (path : Option Path) : s.check o expr path = s'.check o expr path := by
  have hdot : s.top.dot = s'.top.dot := congrArg Env.dot h
  have hresolve : s.resolve = s'.resolve := congrArg Env.resolve h
  have hproblem : s.pathProblem = s'.pathProblem := by
    funext p e
    unfold pathProblem dotIsRoot
    rw [hdot]
  have hproblems : s.pathProblems = s'.pathProblems := by
    funext e
    unfold pathProblems
    rw [hresolve, hproblem]
  unfold check checkPipeline checkPath checkExpr
  rw [h, hresolve, hproblem, hproblems]

variable (s base : ScopeStack)

theorem push_above (kind : FrameKind) (dot : TypeRef) :
    (s.above base).push kind dot = (s.push kind dot).above base := rfl

theorem bindAll_above (names : List String) (ref : TypeRef) :
    (s.above base).bindAll names ref = (s.bindAll names ref).above base := by
  unfold bindAll
  induction names generalizing s with
  | nil => rfl
  | cons name names ih => exact ih (s.bind name ref)

theorem enterElse_above : (s.above base).enterElse = s.enterElse.above base := by
  have htop : (s.above base).top = s.top := rfl
  unfold enterElse
  rw [htop]
  split <;> rfl

section

variable {s} (h : s.Sealed)
include h

theorem lookup?_above : (s.above base).lookup? = s.lookup? := by
  funext name
  unfold lookup? visible
  rw [← visibleOf_append h base.frames]
  rfl

theorem check_above (o : Options) (expr : String) (path : Option Path) :
    (s.above base).check o expr path = s.check o expr path := by
  apply check_of_env_eq
  unfold env
  rw [lookup?_above base h]
  rfl

theorem assignProblems_above (vars : List String) :
    (s.above base).assignProblems vars = s.assignProblems vars := by
  unfold assignProblems isVisible
  rw [lookup?_above base h]

theorem declare_above (decl : Option Declaration) (type? : Option TypeRef) :
    (s.above base).declare decl type? =
      ((s.declare decl type?).1.above base, (s.declare decl type?).2) := by
  unfold declare
  split
  · rfl
  · rw [bindAll_above]
  · rw [assignProblems_above base h]

theorem declareRange_above (decl : Option Declaration) (elem : TypeRef) :
    (s.above base).declareRange decl elem =
      ((s.declareRange decl elem).1.above base, (s.declareRange decl elem).2) := by
  unfold declareRange
  split
  · rfl
  · rw [assignProblems_above base h]
  · rfl
  · rfl
  · rw [bindAll_above]

end
end ScopeStack

theorem Walk.run_cons (o : Options) (file : String) (w : Walk) (n : Node) (ns : List Node) :
    w.run o file (n :: ns) =
      (((w.step o file n).1.run o file ns).1,
        (w.step o file n).2 ++ ((w.step o file n).1.run o file ns).2) := rfl

def Walk.above (w base : Walk) : Walk := ⟨w.stack.above base.stack, w.groups ++ base.groups⟩

def Effect.above (e : Effect) (base : Walk) : Effect := { e with walk := e.walk.above base }

namespace Walk

variable {w : Walk} (base : Walk)

theorem enterBranch_above (h : w.groups ≠ []) :
    (w.above base).enterBranch = w.enterBranch.above base := by
  obtain ⟨s, groups⟩ := w
  cases groups with
  | nil => exact absurd rfl h
  | cons g groups =>
    obtain ⟨kind, pushed⟩ := g
    change enterBranch ⟨s.above base.stack, ⟨kind, pushed⟩ :: (groups ++ base.groups)⟩ = _
    cases hreturns : kind.returnsDot with
    | false =>
      rw [enterBranch_of_returnsDot_eq_false hreturns, enterBranch_of_returnsDot_eq_false hreturns]
      rfl
    | true =>
      cases pushed with
      | false => cases kind <;> rfl
      | true =>
        rw [enterBranch_of_returnsDot hreturns, enterBranch_of_returnsDot hreturns,
          ScopeStack.enterElse_above]
        rfl

theorem ensureFrame_cases (w : Walk) :
    w.ensureFrame = w ∨ ∃ kind groups f, w.groups = ⟨kind, false⟩ :: groups ∧
      w.ensureFrame = ⟨w.stack.pushFrame f, ⟨kind, true⟩ :: groups⟩ := by
  unfold ensureFrame
  split
  · next kind groups hgroups => exact .inr ⟨kind, groups, _, hgroups, rfl⟩
  · exact .inl rfl

theorem ensureFrame_above (h : w.groups ≠ []) :
    (w.above base).ensureFrame = w.ensureFrame.above base := by
  obtain ⟨s, groups⟩ := w
  cases groups with
  | nil => exact absurd rfl h
  | cons g groups =>
    obtain ⟨kind, pushed⟩ := g
    cases pushed <;> rfl

theorem sealed_ensureFrame (h : w.stack.Sealed) : w.ensureFrame.stack.Sealed := by
  rcases w.ensureFrame_cases with heq | ⟨kind, groups, f, -, heq⟩
  · rwa [heq]
  · rw [heq]
    exact h.pushFrame f

theorem sealed_enterBranch (h : w.stack.Sealed) : w.enterBranch.stack.Sealed := by
  unfold enterBranch
  split
  · exact h.enterElse
  · exact h.enterElse
  · exact h

theorem groups_enterBranch (w : Walk) : w.enterBranch.groups = w.groups := by
  unfold enterBranch
  split <;> rfl

theorem stack_above (w base : Walk) : (w.above base).stack = w.stack.above base.stack := rfl

theorem declareConditional_above (hsealed : w.stack.Sealed) (hgroups : w.groups ≠ [])
    (decl : Option Declaration) (type? : Option TypeRef) :
    (w.above base).declareConditional decl type? =
      ((w.declareConditional decl type?).1.above base, (w.declareConditional decl type?).2) := by
  unfold declareConditional
  split
  · dsimp only
    rw [ensureFrame_above base hgroups, stack_above,
      ScopeStack.declare_above base.stack (sealed_ensureFrame hsealed)]
    rfl
  · rfl

theorem openRange_above (h : w.stack.Sealed) (o : Options) (b : BlockOpen) :
    (w.above base).openRange o b = (w.openRange o b).above base := by
  unfold openRange
  dsimp only
  rw [stack_above, ScopeStack.check_above base.stack h]
  generalize w.stack.check o b.expr b.path = header
  have helem : (w.stack.above base.stack).elementOf b.expr header.type? =
      w.stack.elementOf b.expr header.type? := rfl
  rw [helem]
  generalize w.stack.elementOf b.expr header.type? = found
  obtain ⟨elem, more⟩ := found
  rw [ScopeStack.push_above, ScopeStack.declareRange_above base.stack (h.push .range elem)]
  rfl

theorem openWith_above (h : w.stack.Sealed) (o : Options) (b : BlockOpen) :
    (w.above base).openWith o b = (w.openWith o b).above base := by
  unfold openWith
  dsimp only
  rw [stack_above, ScopeStack.check_above base.stack h]
  generalize (w.stack.check o b.expr b.path).type?.getD (.own .unknown) = dot
  rw [ScopeStack.push_above, ScopeStack.declare_above base.stack (h.push .with_ dot)]
  rfl

theorem openIf_above (h : w.stack.Sealed) (o : Options) (b : BlockOpen) :
    (w.above base).openIf o b = (w.openIf o b).above base := by
  unfold openIf
  dsimp only
  rw [stack_above, ScopeStack.check_above base.stack h]
  generalize w.stack.check o b.expr b.path = header
  have hopened : (⟨w.stack.above base.stack, ⟨.if_, false⟩ :: (w.above base).groups⟩ : Walk) =
      above ⟨w.stack, ⟨.if_, false⟩ :: w.groups⟩ base := rfl
  have hsealed : (⟨w.stack, ⟨.if_, false⟩ :: w.groups⟩ : Walk).stack.Sealed := h
  rw [hopened, declareConditional_above base hsealed (List.cons_ne_nil _ _)]
  rfl

theorem openBranch_above (h : w.stack.Sealed) (hgroups : w.groups ≠ []) (o : Options)
    (b : BlockOpen) : (w.above base).openBranch o b = (w.openBranch o b).above base := by
  have hgroups' : w.enterBranch.groups ≠ [] := by rwa [groups_enterBranch]
  unfold openBranch
  rw [enterBranch_above base hgroups]
  split
  · rfl
  · dsimp only
    split
    · rw [stack_above, ScopeStack.check_above base.stack (sealed_enterBranch h),
        declareConditional_above base (sealed_enterBranch h) hgroups']
      rfl
    · rfl

theorem openBlock_above (h : w.stack.Sealed) (o : Options) (file : String) (pos : Position)
    (b : BlockOpen) :
    (w.above base).openBlock o file pos b = (w.openBlock o file pos b).above base := by
  unfold openBlock
  rw [stack_above, ScopeStack.check_above base.stack h]
  rfl

theorem callTemplate_above (h : w.stack.Sealed) (o : Options) (file : String) (pos : Position)
    (b : BlockOpen) :
    (w.above base).callTemplate o file pos b = (w.callTemplate o file pos b).above base := by
  unfold callTemplate
  rw [stack_above, ScopeStack.check_above base.stack h]
  rfl

theorem openConstruct_above (h : w.stack.Sealed) (hgroups : w.groups ≠ []) (o : Options)
    (file : String) (pos : Position) (b : BlockOpen) :
    (w.above base).openConstruct o file pos b = (w.openConstruct o file pos b).above base := by
  unfold openConstruct
  split
  · exact openRange_above base h o b
  · exact openWith_above base h o b
  · exact openIf_above base h o b
  · exact openBranch_above base h hgroups o b
  · exact openBranch_above base h hgroups o b
  · rfl
  · exact openBlock_above base h o file pos b
  · exact callTemplate_above base h o file pos b

theorem action_above (h : w.stack.Sealed) (o : Options) (a : Action) :
    (w.above base).action o a = (w.action o a).above base := by
  unfold action
  split
  · rfl
  · dsimp only
    rw [stack_above, ScopeStack.check_above base.stack h, ScopeStack.declare_above base.stack h]
    rfl

end Walk

/-- Groups and frames of a walk inside a detached construct, from that construct up. -/
inductive InBody : List Group → List Frame → Prop where
  | outermost {kind : BlockKind} {f : Frame} (detached : f.detached = true) :
      InBody [⟨kind, true⟩] [f]
  | bare {kind : BlockKind} {groups : List Group} {frames : List Frame}
      (rest : InBody groups frames) : InBody (⟨kind, false⟩ :: groups) frames
  | framed {kind : BlockKind} {f : Frame} {groups : List Group} {frames : List Frame}
      (rest : InBody groups frames) : InBody (⟨kind, true⟩ :: groups) (f :: frames)

namespace InBody

variable {groups : List Group} {frames : List Frame} {w : Walk}

theorem groups_ne_nil (h : InBody groups frames) : groups ≠ [] := by
  cases h <;> exact List.cons_ne_nil _ _

theorem any_detached (h : InBody groups frames) : frames.any Frame.detached = true := by
  induction h with
  | outermost detached => rw [List.any_cons, detached, Bool.true_or]
  | bare _ ih => exact ih
  | framed _ ih => rw [List.any_cons, ih, Bool.or_true]

theorem withTop {f g : Frame} (h : InBody groups (f :: frames)) (hg : g.detached = f.detached) :
    InBody groups (g :: frames) := by
  generalize hframes : f :: frames = all at h
  induction h with
  | outermost detached =>
    cases hframes
    exact .outermost (hg.trans detached)
  | bare _ ih => exact .bare (ih hframes)
  | framed rest _ =>
    cases hframes
    exact .framed rest

end InBody

/-- A walk inside a detached construct, without what is below it; `around` counts the constructs
that are open around that one. -/
structure Walk.Enclosed (root : TypeNode) (around : Nat) (opened : List Nat) (w : Walk) : Prop where
  root : w.stack.root = root
  length : w.groups.length + around = opened.length
  inBody : InBody w.groups w.stack.frames

namespace Walk

namespace Enclosed

variable {w : Walk} {root : TypeNode} {around : Nat} {opened : List Nat}

theorem withTop {top : Frame} (h : w.Enclosed root around opened)
    (htop : top.detached = w.stack.top.detached) :
    Enclosed root around opened { w with stack := { w.stack with top } } :=
  ⟨h.root, h.length, h.inBody.withTop htop⟩

theorem enterBranch (h : w.Enclosed root around opened) :
    w.enterBranch.Enclosed root around opened := by
  rcases w.enterBranch_cases with heq | ⟨kind, groups, dot, -, heq⟩
  · rwa [heq]
  · rw [heq]
    exact h.withTop rfl

theorem ensureFrame (h : w.Enclosed root around opened) :
    w.ensureFrame.Enclosed root around opened := by
  rcases w.ensureFrame_cases with heq | ⟨kind, groups, f, hgroups, heq⟩
  · rwa [heq]
  · rw [heq]
    obtain ⟨hroot, hlength, hbody⟩ := h
    rw [hgroups] at hlength hbody
    refine ⟨hroot, hlength, ?_⟩
    cases hbody with
    | bare rest => exact .framed rest

theorem close (h : w.Enclosed root around opened) (hinner : around + 1 < opened.length)
    (base : Walk) (c : Nat) :
    (w.above base).close (some c) = (w.close (some c)).above base ∧
      (w.close (some c)).Enclosed root around opened.tail := by
  obtain ⟨⟨root', top, below⟩, groups⟩ := w
  obtain ⟨hroot, hlength, hbody⟩ := h
  unfold ScopeStack.frames at hbody
  dsimp only at hroot hlength hbody
  generalize hframes : top :: below = frames at hbody
  have htail := List.length_tail (l := opened)
  cases hbody with
  | outermost =>
    rw [List.length_singleton] at hlength
    omega
  | @bare kind groups _ rest =>
    rw [List.length_cons] at hlength
    have hlength : groups.length + around = opened.tail.length := by omega
    rw [← hframes] at rest
    exact ⟨rfl, hroot, hlength, rest⟩
  | @framed kind f groups _ rest =>
    rw [List.length_cons] at hlength
    have hlength : groups.length + around = opened.tail.length := by omega
    cases hframes
    cases below with
    | nil =>
      cases rest.any_detached
    | cons g below => exact ⟨rfl, hroot, hlength, rest⟩

theorem close_outermost (h : w.Enclosed root around opened) (hlast : opened.length = around + 1)
    (c : Nat) {base : Walk} (hbase : base.stack.root = root) :
    (w.above base).close (some c) = base := by
  obtain ⟨⟨root', top, below⟩, groups⟩ := w
  obtain ⟨hroot, hlength, hbody⟩ := h
  unfold ScopeStack.frames at hbody
  dsimp only at hroot hlength hbody
  generalize hframes : top :: below = frames at hbody
  cases hbody with
  | outermost =>
    cases hframes
    cases hroot.trans hbase.symm
    rfl
  | bare rest | framed rest =>
    have hpos := List.length_pos_iff.2 rest.groups_ne_nil
    rw [List.length_cons] at hlength
    omega

theorem effect_above (h : w.Enclosed root around opened) (o : Options) (file : String) {n : Node}
    (hinner : ∀ c, n.body = .blockClose (some c) → around + 1 < opened.length) (base : Walk) :
    (w.above base).effect o file n = (w.effect o file n).above base := by
  have hsealed : w.stack.Sealed := h.inBody.any_detached
  unfold effect
  split
  · exact action_above base hsealed o _
  · exact openConstruct_above base hsealed h.inBody.groups_ne_nil o file n.pos _
  · next opener hbody =>
    cases opener with
    | none => rfl
    | some c =>
      rw [(h.close (hinner c hbody) base c).1]
      rfl
  all_goals rfl

theorem step_above (h : w.Enclosed root around opened) (o : Options) (file : String) {n : Node}
    (hinner : ∀ c, n.body = .blockClose (some c) → around + 1 < opened.length) (base : Walk) :
    (w.above base).step o file n = ((w.step o file n).1.above base, (w.step o file n).2) := by
  unfold Walk.step
  rw [h.effect_above o file hinner base]
  rfl

theorem step {t : Template} {o : Options} {index : Nat} {next : Walk} {body : NodeBody}
    {after : List Nat} (hstride : t.Stride o index w body opened after next)
    (hinner : around < after.length) (h : w.Enclosed root around opened) :
    next.Enclosed root around after := by
  have hlength := h.length
  cases hstride with
  | framed _ _ =>
    refine ⟨h.root, ?_, .framed h.inBody⟩
    rw [List.length_cons, List.length_cons]
    omega
  | bare _ _ _ =>
    refine ⟨h.root, ?_, .bare h.inBody⟩
    rw [List.length_cons, List.length_cons]
    omega
  | branch _ _ => exact h.enterBranch
  | branchFrame _ _ locals => exact h.enterBranch.ensureFrame.withTop rfl
  | @closes c after => exact (h.close (Nat.succ_lt_succ hinner) w c).2
  | keeps _ locals => exact h.withTop rfl

end Enclosed
end Walk

/-- Constructs whose bodies take nothing from around them but the root: `define`, and a `block`
without a pipeline where the root is the dot of such a one. -/
def BlockOpen.StartsAfresh (o : Options) (b : BlockOpen) : Prop :=
  b.kind = .define ∨ (b.kind = .block ∧ trimmed b.expr = "" ∧ o.blockContext = .root)

namespace Walk

def within (root : TypeNode) (frame : FrameKind) (kind : BlockKind) : Walk :=
  ⟨⟨root, { kind := frame, dot := .root, detached := true }, []⟩, [⟨kind, true⟩]⟩

theorem enclosed_within (root : TypeNode) (frame : FrameKind) (kind : BlockKind) (c : Nat)
    (outer : List Nat) : (within root frame kind).Enclosed root outer.length (c :: outer) :=
  ⟨rfl, Nat.add_comm 1 outer.length, .outermost rfl⟩

theorem exists_opened {o : Options} {b : BlockOpen} (h : b.StartsAfresh o) (file : String)
    {n : Node} (hn : n.body = .blockOpen b) (root : TypeNode) :
    ∃ frame found, ∀ w : Walk, w.stack.root = root →
      w.step o file n = ((within root frame b.kind).above w, found) := by
  rcases h with hkind | ⟨hkind, hblank, hcontext⟩
  · refine ⟨.define, { edges := (edge file n.pos b .define none).toList }, ?_⟩
    rintro w rfl
    simp only [step, effect, hn, openConstruct, hkind]
    rfl
  · refine ⟨.block, { edges := (edge file n.pos b .block (some root)).toList }, ?_⟩
    rintro w rfl
    simp only [step, effect, hn, openConstruct, hkind, openBlock, ScopeStack.check, hblank,
      hcontext, if_true]
    rfl

end Walk

namespace Template

def segment (t : Template) (i j : Nat) : List Node := (t.nodes.drop i).take (j + 1 - i)

namespace WellPaired

variable {t : Template} (ht : t.WellPaired) {i j : Nat} (h : t.Pairs i j) (o : Options)
  (file : String) {root : TypeNode}
include ht h

theorem exists_node {k : Nat} (hkj : k ≤ j) :
    ∃ n, t.body? k = some n.body ∧ t.nodes.drop k = n :: t.nodes.drop (k + 1) := by
  obtain ⟨n, hn, -⟩ := Option.map_eq_some_iff.1 (ht.pairs_iff.1 h)
  have hlt : k < t.nodes.length := by
    have hj := (List.getElem?_eq_some_iff.1 hn).1
    omega
  refine ⟨t.nodes[k], ?_, List.drop_eq_getElem_cons hlt⟩
  rw [body?, List.getElem?_eq_getElem hlt, Option.map_some]

/-- A walk that is in the body of a detached construct goes on to its end in the same way and finds
the same, whatever is below. -/
theorem exists_run_body {w : Walk} {k count : Nat} (hik : i < k) (hkj : k + count = j)
    (hw : w.Enclosed root (t.openBefore i).length (t.openBefore k)) :
    ∃ found, ∀ base : Walk, base.stack.root = root →
      (w.above base).run o file ((t.nodes.drop k).take (count + 1)) = (base, found) := by
  -- on the nodes before the end; `base` stays out of the induction, or `found` would depend on it
  induction count generalizing w k with
  | zero =>
    obtain rfl : k = j := hkj
    obtain ⟨n, hn, hdrop⟩ := ht.exists_node h (Nat.le_refl k)
    have hbody : n.body = .blockClose (some i) :=
      Option.some.inj (hn.symm.trans (ht.pairs_iff.1 h))
    have hlast : (t.openBefore k).length = (t.openBefore i).length + 1 := by
      rw [ht.openBefore_end h, List.length_cons]
    refine ⟨{}, fun base hbase => ?_⟩
    rw [hdrop, List.take_succ_cons, List.take_zero, Walk.run_cons]
    simp only [Walk.step, Walk.effect, hbody, hw.close_outermost hlast i hbase]
    rfl
  | succ count ih =>
    obtain ⟨n, hn, hdrop⟩ := ht.exists_node h (show k ≤ j by omega)
    have hinner : (t.openBefore i).length < (t.openBefore (k + 1)).length :=
      (ht.suffix_openBefore h (by omega) (by omega)).length_le
    have hclose (c : Nat) (hc : n.body = .blockClose (some c)) :
        (t.openBefore i).length + 1 < (t.openBefore k).length := by
      rw [hc] at hn
      rw [ht.openBefore_of_blockClose hn, List.length_cons]
      omega
    have hnext : (w.step o file n).1.Enclosed root (t.openBefore i).length (t.openBefore (k + 1)) :=
      hw.step (Turn.stride o (ht.turn hn) (Walk.move_effect o file w n)) hinner
    obtain ⟨found, hfound⟩ := ih (Nat.lt_succ_of_lt hik) (by omega) hnext
    refine ⟨(w.step o file n).2 ++ found, fun base hbase => ?_⟩
    rw [hdrop, List.take_succ_cons, Walk.run_cons, hw.step_above o file hclose, hfound base hbase]

theorem exists_run_segment {b : BlockOpen} (hb : t.block? i = some b) (hfresh : b.StartsAfresh o) :
    ∃ found, ∀ w : Walk, w.stack.root = root → w.run o file (t.segment i j) = (w, found) := by
  have hlt := ht.lt_of_pairs h
  obtain ⟨n, hn, hdrop⟩ := ht.exists_node h (Nat.le_of_lt hlt)
  have hbody : n.body = .blockOpen b :=
    Option.some.inj (hn.symm.trans (block?_eq_some_iff.1 hb))
  obtain ⟨frame, opening, hopened⟩ := Walk.exists_opened hfresh file hbody root
  have henclosed := Walk.enclosed_within root frame b.kind i (t.openBefore i)
  rw [← ht.openBefore_succ_of_pairs h] at henclosed
  obtain ⟨found, hfound⟩ := ht.exists_run_body h o file (Nat.lt_succ_self i)
    (show i + 1 + (j - (i + 1)) = j by omega) henclosed
  have hcount : j + 1 - i = j - (i + 1) + 1 + 1 := by omega
  refine ⟨opening ++ found, fun w hw => ?_⟩
  rw [segment, hcount, hdrop, List.take_succ_cons, Walk.run_cons, hopened w hw, hfound w hw]

end WellPaired

/-- The body of a `define` is checked the same wherever it stands, and so is that of a `block`
without a pipeline if its dot is the root: two walks that agree on the root find the same in it,
whatever their frames and open constructs are, and both come out of it as they went in. -/
theorem detached_body_is_independent (d : Delimiters) (o : Options) (file source : String)
    {i j : Nat} {b : BlockOpen} (hb : (parse d source).block? i = some b) (hj : b.close = some j)
    (hfresh : b.StartsAfresh o) (w w' : Walk) (hroot : w.stack.root = w'.stack.root) :
    let nodes := (parse d source).segment i j
    (w.run o file nodes).2 = (w'.run o file nodes).2 ∧
      (w.run o file nodes).1 = w ∧ (w'.run o file nodes).1 = w' := by
  intro nodes
  obtain ⟨found, hfound⟩ :=
    (wellPaired_parse d source).exists_run_segment ⟨b, hb, hj⟩ o file hb hfresh
  rw [hfound w hroot, hfound w' rfl]
  exact ⟨rfl, rfl, rfl⟩

theorem detached_body_is_independent_of_variable :
    let t := parse {} (Delimiters.actions {}
      ["define \"row\"", "if $x := .Title", "$v", "else", "$x", "end", "end"])
    let root := TypeNode.root [.scalar "Title" "string"]
    let w : Walk := ⟨ScopeStack.start root, []⟩
    let w' : Walk :=
      ⟨((ScopeStack.start root).bind "v" .root).push .range (.own .unknown), [⟨.range, true⟩]⟩
    ∃ b, t.block? 0 = some b ∧ b.close = some 6 ∧ b.kind = .define ∧
      (w.run {} "page" (t.segment 0 6)).2.hasErrors = true ∧
      (w.run {} "page" (t.segment 0 6)).2 = (w'.run {} "page" (t.segment 0 6)).2 ∧
      (w'.run {} "page" (t.segment 0 6)).1 = w' := by
  intro t root w w'
  have hblock : (t.block? 0).map (fun b => (b.close, b.kind)) = some (some 6, .define) := by
    decide +kernel
  obtain ⟨b, hb, heq⟩ := Option.map_eq_some_iff.1 hblock
  obtain ⟨hclose, hkind⟩ := Prod.mk.inj heq
  have herrors : (w.run {} "page" (t.segment 0 6)).2.hasErrors = true := by decide +kernel
  obtain ⟨hfound, -, hw'⟩ :=
    detached_body_is_independent {} {} "page" _ hb hclose (.inl hkind) w w' rfl
  exact ⟨b, hb, hclose, hkind, herrors, hfound, hw'⟩

end Template
end TemplateLint
