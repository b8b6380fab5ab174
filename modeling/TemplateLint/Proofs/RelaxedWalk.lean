import TemplateLint.Proofs.Relaxation

/-! Two walks over one template, the second against looser types. As long as the first finds no
error the two stay in step: the same frames with the same variables, and looser types in them. -/
namespace TemplateLint

structure Frame.Looser (root root' : TypeNode) (f f' : Frame) : Prop where
  detached : f.detached = f'.detached
  dot : TypeRef.Looser root root' f.dot f'.dot
  outer : Option.Rel (TypeRef.Looser root root') f.outer f'.outer
  locals : ∀ name,
    Option.Rel (TypeRef.Looser root root') (f.locals.get? name) (f'.locals.get? name)

structure ScopeStack.Looser (s s' : ScopeStack) : Prop where
  root : s.root.Looser s'.root
  top : Frame.Looser s.root s'.root s.top s'.top
  below : List.Forall₂ (Frame.Looser s.root s'.root) s.below s'.below

namespace ScopeStack

variable {s s' : ScopeStack} {ref ref' : TypeRef} {type? type?' : Option TypeRef}

theorem looser_start {root root' : TypeNode} (hroot : root.Looser root')
    (hdot : TypeRef.Looser root root' ref ref') : (start root ref).Looser (start root' ref') :=
  ⟨hroot, ⟨rfl, hdot, .none, fun _ => .none⟩, .nil⟩

theorem rel_getD (h : Option.Rel (TypeRef.Looser s.root s'.root) type? type?') :
    TypeRef.Looser s.root s'.root (type?.getD (.own .unknown)) (type?'.getD (.own .unknown)) := by
  cases h with
  | some looser => exact looser
  | none => exact TypeNode.looser_unknown

theorem looser_elementOf (expr : String)
    (htype : Option.Rel (TypeRef.Looser s.root s'.root) type? type?')
    (hquiet : Quiet (s.elementOf expr type?).2) :
    TypeRef.Looser s.root s'.root (s.elementOf expr type?).1 (s'.elementOf expr type?').1 ∧
      Quiet (s'.elementOf expr type?').2 := by
  cases htype with
  | none => exact ⟨TypeNode.looser_unknown, quiet_nil⟩
  | @some ref ref' looser =>
    change (ref.type s.root).Looser (ref'.type s'.root) at looser
    unfold ScopeStack.elementOf at hquiet ⊢
    dsimp only [Option.map_some] at hquiet ⊢
    generalize ref.type s.root = t, ref'.type s'.root = t' at looser hquiet ⊢
    rcases looser with hunknown | halike
    · rw [if_pos hunknown]
      exact ⟨TypeNode.looser_unknown, quiet_nil⟩
    · rw [halike.isUnknown_eq, halike.isIterable_eq] at hquiet ⊢
      split
      · exact ⟨TypeNode.looser_unknown, quiet_nil⟩
      · split
        · exact ⟨halike.elementOrUnknown, quiet_nil⟩
        · next hunknown hiterable =>
          rw [if_neg hunknown, if_neg hiterable] at hquiet
          exact absurd rfl (hquiet _ List.mem_cons_self)

namespace Looser

variable (h : s.Looser s')
include h

theorem pushFrame {f f' : Frame} (hf : Frame.Looser s.root s'.root f f') :
    (s.pushFrame f).Looser (s'.pushFrame f') :=
  ⟨h.root, hf, .cons h.top h.below⟩

theorem push (kind : FrameKind) (href : TypeRef.Looser s.root s'.root ref ref') :
    (s.push kind ref).Looser (s'.push kind ref') := by
  refine h.pushFrame ⟨rfl, href, ?_, fun _ => .none⟩
  dsimp only
  split
  · exact .some h.top.dot
  · exact .none

theorem pushDetached (kind : FrameKind) (href : TypeRef.Looser s.root s'.root ref ref') :
    (s.pushDetached kind ref).Looser (s'.pushDetached kind ref') :=
  h.pushFrame ⟨rfl, href, .none, fun _ => .none⟩

theorem pop : s.pop.Looser s'.pop := by
  obtain ⟨root, top, below⟩ := s
  obtain ⟨root', top', below'⟩ := s'
  cases h.below with
  | nil => exact h
  | cons head rest => exact ⟨h.root, head, rest⟩

theorem enterElse : s.enterElse.Looser s'.enterElse := by
  have houter := h.top.outer
  unfold ScopeStack.enterElse
  generalize s.top.outer = outer, s'.top.outer = outer' at houter ⊢
  cases houter with
  | some looser => exact ⟨h.root, { h.top with dot := looser }, h.below⟩
  | none => exact h

theorem bind (name : String) (href : TypeRef.Looser s.root s'.root ref ref') :
    (s.bind name ref).Looser (s'.bind name ref') := by
  refine ⟨h.root, { h.top with locals := ?_ }, h.below⟩
  intro other
  dsimp only [ScopeStack.bind]
  rw [NameMap.get?_insert, NameMap.get?_insert]
  split
  · exact .some href
  · exact h.top.locals other

theorem bindAll (names : List String) (href : TypeRef.Looser s.root s'.root ref ref') :
    (s.bindAll names ref).Looser (s'.bindAll names ref') := by
  unfold ScopeStack.bindAll
  induction names generalizing s s' with
  | nil => exact h
  | cons name names ih => exact ih (h.bind name href) href

theorem visible :
    List.Forall₂ (Frame.Looser s.root s'.root) s.visible s'.visible := by
  have hframes : List.Forall₂ (Frame.Looser s.root s'.root) s.frames s'.frames :=
    .cons h.top h.below
  unfold ScopeStack.visible
  generalize s.frames = frames, s'.frames = frames' at hframes ⊢
  induction hframes with
  | nil => exact .nil
  | cons looser _ ih =>
    rw [visibleOf, visibleOf, looser.detached]
    split
    · exact .cons looser .nil
    · exact .cons looser ih

theorem lookup? (name : String) :
    Option.Rel (TypeRef.Looser s.root s'.root) (s.lookup? name) (s'.lookup? name) := by
  have hvisible := h.visible
  unfold ScopeStack.lookup?
  generalize s.visible = frames, s'.visible = frames' at hvisible ⊢
  induction hvisible with
  | nil => exact .none
  | @cons f f' _ _ looser _ ih =>
    have hlocals := looser.locals name
    rw [List.findSome?_cons, List.findSome?_cons]
    generalize f.locals.get? name = found, f'.locals.get? name = found' at hlocals ⊢
    cases hlocals with
    | some looser => exact .some looser
    | none => exact ih

theorem env : s.env.Looser s'.env := ⟨h.root, h.top.dot, h.lookup?⟩

theorem isVisible_eq (name : String) : s.isVisible name = s'.isVisible name := by
  have hlookup := h.lookup? name
  unfold isVisible
  generalize s.lookup? name = found, s'.lookup? name = found' at hlookup ⊢
  cases hlookup <;> rfl

theorem assignProblems_eq (vars : List String) :
    s.assignProblems vars = s'.assignProblems vars := by
  unfold assignProblems
  simp only [h.isVisible_eq]

theorem declare (decl : Option Declaration)
    (htype : Option.Rel (TypeRef.Looser s.root s'.root) type? type?') :
    (s.declare decl type?).1.Looser (s'.declare decl type?').1 ∧
      (s.declare decl type?).2 = (s'.declare decl type?').2 := by
  unfold ScopeStack.declare
  split
  · exact ⟨h, rfl⟩
  · exact ⟨h.bindAll _ (rel_getD htype), rfl⟩
  · exact ⟨h, h.assignProblems_eq _⟩

theorem declareRange (decl : Option Declaration)
    (helem : TypeRef.Looser s.root s'.root ref ref') :
    (s.declareRange decl ref).1.Looser (s'.declareRange decl ref').1 ∧
      (s.declareRange decl ref).2 = (s'.declareRange decl ref').2 := by
  have hint : TypeRef.Looser s.root s'.root (.own (.scalar "" TypeNode.intLabel))
      (.own (.scalar "" TypeNode.intLabel)) := TypeNode.looser_scalar _ _
  unfold ScopeStack.declareRange
  split
  · exact ⟨h, rfl⟩
  · exact ⟨h, h.assignProblems_eq _⟩
  · exact ⟨h.bind _ helem, rfl⟩
  · exact ⟨(h.bind _ hint).bind _ helem, rfl⟩
  · exact ⟨h.bindAll _ TypeNode.looser_unknown, rfl⟩

theorem checkPath (o : Options) (expr : String) (p : Path)
    (hquiet : Quiet (s.checkPath o expr p).2) :
    Quiet (s'.checkPath o expr p).2 ∧
      Option.Rel (TypeRef.Looser s.root s'.root) (s.checkPath o expr p).1
        (s'.checkPath o expr p).1 := by
  cases hresolve : s.resolve p with
  | ok ref =>
    obtain ⟨ref', hresolve', hlooser⟩ := h.env.exists_resolve hresolve
    rw [checkPath_of_resolve_eq_ok hresolve, checkPath_of_resolve_eq_ok hresolve']
    exact ⟨quiet_nil, .some hlooser⟩
  | error err =>
    obtain ⟨hdepth, t, hinfer⟩ := exists_of_quiet_checkPath hresolve hquiet
    rw [checkPath_of_inferText hresolve hdepth hinfer]
    rcases h.env.resolve_eq_error hresolve with hresolve' | ⟨ref', hresolve', hunknown⟩
    · obtain ⟨t', hinfer', hlooser⟩ := Expr.exists_inferText_of_looser h.env hinfer
      rw [checkPath_of_inferText hresolve' hdepth hinfer']
      exact ⟨quiet_nil, .some hlooser⟩
    · rw [checkPath_of_resolve_eq_ok hresolve']
      exact ⟨quiet_nil, .some (.inl hunknown)⟩

theorem checkExpr (o : Options) (expr : String) (hquiet : Quiet (s.checkExpr o expr).2) :
    Quiet (s'.checkExpr o expr).2 ∧
      Option.Rel (TypeRef.Looser s.root s'.root) (s.checkExpr o expr).1
        (s'.checkExpr o expr).1 := by
  obtain ⟨e, hparse, hpaths⟩ := exists_of_quiet_checkExpr hquiet
  have hpaths' : ∀ q ∈ e.paths, s'.env.Resolves q.1 := by
    intro q hq
    obtain ⟨ref, hresolve⟩ := hpaths q hq
    obtain ⟨ref', hresolve', -⟩ := h.env.exists_resolve hresolve
    exact ⟨ref', hresolve'⟩
  cases hinfer : e.infer s.env o.funcs with
  | ok t =>
    obtain ⟨t', hinfer', hlooser⟩ := Expr.exists_infer_of_looser h.env hinfer
    rw [checkExpr_of_infer_eq_ok hparse hpaths hinfer,
      checkExpr_of_infer_eq_ok hparse hpaths' hinfer']
    exact ⟨quiet_functionProblems o e, .some hlooser⟩
  | error err =>
    obtain ⟨func, expected, found, rfl⟩ :=
      exists_arity_of_quiet_checkExpr hparse hpaths hinfer hquiet
    rw [checkExpr_of_infer_eq_error hparse hpaths hinfer] at hquiet ⊢
    rw [checkExpr_of_infer_eq_error hparse hpaths' (Expr.infer_arity_of_looser h.env hinfer)]
    exact ⟨hquiet, .none⟩

theorem check (o : Options) (expr : String) (path : Option Path)
    (hquiet : Quiet (s.check o expr path).problems) :
    Quiet (s'.check o expr path).problems ∧
      Option.Rel (TypeRef.Looser s.root s'.root) (s.check o expr path).type?
        (s'.check o expr path).type? := by
  unfold ScopeStack.check at hquiet ⊢
  by_cases hblank : trimmed expr = ""
  · simp only [if_pos hblank]
    exact ⟨quiet_nil, .none⟩
  · simp only [if_neg hblank] at hquiet ⊢
    cases path with
    | some p => exact h.checkPath o expr p hquiet
    | none => exact h.checkExpr o expr hquiet

end Looser
end ScopeStack

structure Walk.Looser (w w' : Walk) : Prop where
  stack : w.stack.Looser w'.stack
  groups : w.groups = w'.groups

/-- A node that causes no error causes none against looser types either, and the walks stay in
step. -/
def Effect.Eases (e e' : Effect) : Prop :=
  Quiet e.problems → Quiet e'.problems ∧ e.walk.Looser e'.walk

theorem Walk.root_ensureFrame (w : Walk) : w.ensureFrame.stack.root = w.stack.root := by
  unfold ensureFrame
  split <;> rfl

namespace Walk.Looser

variable {w w' : Walk} (h : w.Looser w')
include h

theorem enter (kind : BlockKind) {s s' : ScopeStack} (hs : s.Looser s') :
    (w.enter kind s).Looser (w'.enter kind s') := by
  refine ⟨hs, ?_⟩
  unfold Walk.enter
  rw [h.groups]

theorem enterBranch : w.enterBranch.Looser w'.enterBranch := by
  unfold Walk.enterBranch
  rw [← h.groups]
  split
  · exact ⟨h.stack.enterElse, rfl⟩
  · exact ⟨h.stack.enterElse, rfl⟩
  · exact h

theorem ensureFrame : w.ensureFrame.Looser w'.ensureFrame := by
  unfold Walk.ensureFrame
  rw [← h.groups]
  split
  · exact ⟨h.stack.push .if_ h.stack.top.dot, rfl⟩
  · exact h

theorem declareConditional (decl : Option Declaration) {type? type?' : Option TypeRef}
    (htype : Option.Rel (TypeRef.Looser w.stack.root w'.stack.root) type? type?') :
    (w.declareConditional decl type?).1.Looser (w'.declareConditional decl type?').1 ∧
      (w.declareConditional decl type?).2 = (w'.declareConditional decl type?').2 := by
  unfold Walk.declareConditional
  split
  · rw [← root_ensureFrame w, ← root_ensureFrame w'] at htype
    obtain ⟨hstack, hproblems⟩ := h.ensureFrame.stack.declare decl htype
    exact ⟨⟨hstack, h.ensureFrame.groups⟩, hproblems⟩
  · exact ⟨h, rfl⟩

theorem openRange (o : Options) (b : BlockOpen) : (w.openRange o b).Eases (w'.openRange o b) := by
  intro hquiet
  unfold Walk.openRange at hquiet ⊢
  dsimp only at hquiet ⊢
  simp only [quiet_append] at hquiet ⊢
  obtain ⟨⟨hheader, hmore⟩, hdeclared⟩ := hquiet
  obtain ⟨hheader', htype⟩ := h.stack.check o b.expr b.path hheader
  obtain ⟨helem, hmore'⟩ := ScopeStack.looser_elementOf b.expr htype hmore
  obtain ⟨hstack, hproblems⟩ := (h.stack.push .range helem).declareRange b.decl helem
  rw [hproblems] at hdeclared
  exact ⟨⟨⟨hheader', hmore'⟩, hdeclared⟩, h.enter .range hstack⟩

theorem openWith (o : Options) (b : BlockOpen) : (w.openWith o b).Eases (w'.openWith o b) := by
  intro hquiet
  unfold Walk.openWith at hquiet ⊢
  dsimp only at hquiet ⊢
  simp only [quiet_append] at hquiet ⊢
  obtain ⟨hheader, hdeclared⟩ := hquiet
  obtain ⟨hheader', htype⟩ := h.stack.check o b.expr b.path hheader
  have hdot := ScopeStack.rel_getD htype
  obtain ⟨hstack, hproblems⟩ := (h.stack.push .with_ hdot).declare b.decl (.some hdot)
  rw [hproblems] at hdeclared
  exact ⟨⟨hheader', hdeclared⟩, h.enter .with_ hstack⟩

theorem openIf (o : Options) (b : BlockOpen) : (w.openIf o b).Eases (w'.openIf o b) := by
  intro hquiet
  unfold Walk.openIf at hquiet ⊢
  dsimp only at hquiet ⊢
  simp only [quiet_append] at hquiet ⊢
  obtain ⟨hheader, hdeclared⟩ := hquiet
  obtain ⟨hheader', htype⟩ := h.stack.check o b.expr b.path hheader
  have hopened : Walk.Looser ⟨w.stack, ⟨.if_, false⟩ :: w.groups⟩
      ⟨w'.stack, ⟨.if_, false⟩ :: w'.groups⟩ := ⟨h.stack, by rw [h.groups]⟩
  obtain ⟨hwalk, hproblems⟩ := hopened.declareConditional b.decl htype
  rw [hproblems] at hdeclared
  exact ⟨⟨hheader', hdeclared⟩, hwalk⟩

theorem openBranch (o : Options) (b : BlockOpen) :
    (w.openBranch o b).Eases (w'.openBranch o b) := by
  intro hquiet
  unfold Walk.openBranch at hquiet ⊢
  by_cases hgroup : b.group.isNone = true
  · simp only [if_pos hgroup]
    exact ⟨quiet_nil, h⟩
  · by_cases hkind : b.kind = .elseIf
    · simp only [if_neg hgroup, if_pos hkind, quiet_append] at hquiet ⊢
      obtain ⟨hheader, hdeclared⟩ := hquiet
      obtain ⟨hheader', htype⟩ := h.enterBranch.stack.check o b.expr b.path hheader
      obtain ⟨hwalk, hproblems⟩ := h.enterBranch.declareConditional b.decl htype
      rw [hproblems] at hdeclared
      exact ⟨⟨hheader', hdeclared⟩, hwalk⟩
    · simp only [if_neg hgroup, if_neg hkind]
      exact ⟨quiet_nil, h.enterBranch⟩

theorem openBlock (o : Options) (file : String) (pos : Position) (b : BlockOpen) :
    (w.openBlock o file pos b).Eases (w'.openBlock o file pos b) := by
  intro hquiet
  unfold Walk.openBlock at hquiet ⊢
  dsimp only at hquiet ⊢
  obtain ⟨hheader', htype⟩ := h.stack.check o b.expr b.path hquiet
  refine ⟨hheader', h.enter .block (h.stack.pushDetached .block ?_)⟩
  split
  · split
    · exact h.stack.root
    · exact h.stack.top.dot
  · exact ScopeStack.rel_getD htype

theorem callTemplate (o : Options) (file : String) (pos : Position) (b : BlockOpen) :
    (w.callTemplate o file pos b).Eases (w'.callTemplate o file pos b) := by
  intro hquiet
  unfold Walk.callTemplate at hquiet ⊢
  dsimp only at hquiet ⊢
  exact ⟨(h.stack.check o b.expr b.path hquiet).1, h⟩

theorem openConstruct (o : Options) (file : String) (pos : Position) (b : BlockOpen) :
    (w.openConstruct o file pos b).Eases (w'.openConstruct o file pos b) := by
  unfold Walk.openConstruct
  split
  · exact h.openRange o b
  · exact h.openWith o b
  · exact h.openIf o b
  · exact h.openBranch o b
  · exact h.openBranch o b
  · intro _
    exact ⟨quiet_nil, h.enter .define (h.stack.pushDetached .define h.stack.root)⟩
  · exact h.openBlock o file pos b
  · exact h.callTemplate o file pos b

theorem close (opener : Option Nat) : (w.close opener).Looser (w'.close opener) := by
  unfold Walk.close
  rw [← h.groups]
  split
  · refine ⟨?_, rfl⟩
    dsimp only
    split
    · exact h.stack.pop
    · exact h.stack
  · exact h

theorem action (o : Options) (a : Action) : (w.action o a).Eases (w'.action o a) := by
  intro hquiet
  unfold Walk.action at hquiet ⊢
  by_cases hblank : trimmed a.expr = ""
  · simp only [if_pos hblank]
    exact ⟨quiet_nil, h⟩
  · simp only [if_neg hblank, quiet_append] at hquiet ⊢
    obtain ⟨hchecked, hdeclared⟩ := hquiet
    obtain ⟨hchecked', htype⟩ := h.stack.check o a.expr a.path hchecked
    obtain ⟨hstack, hproblems⟩ := h.stack.declare a.decl htype
    rw [hproblems] at hdeclared
    exact ⟨⟨hchecked', hdeclared⟩, hstack, h.groups⟩

theorem effect (o : Options) (file : String) (n : Node) :
    (w.effect o file n).Eases (w'.effect o file n) := by
  unfold Walk.effect
  split
  · exact h.action o _
  · exact h.openConstruct o file n.pos _
  · intro _
    exact ⟨quiet_nil, h.close _⟩
  all_goals
    intro _
    exact ⟨quiet_nil, h⟩

end Walk.Looser

namespace Findings

theorem hasErrors_append (f g : Findings) : (f ++ g).hasErrors = (f.hasErrors || g.hasErrors) :=
  List.any_append

theorem hasErrors_sorted (f : Findings) : f.sorted.hasErrors = f.hasErrors :=
  (List.mergeSort_perm f.diagnostics Diagnostic.le).any_eq

end Findings

namespace Walk

variable {o : Options} {file : String} {w w' : Walk}

theorem hasErrors_step {n : Node} :
    (w.step o file n).2.hasErrors = false ↔ Quiet (w.effect o file n).problems := by
  unfold Findings.hasErrors step Quiet
  rw [List.any_map, List.any_eq_false]
  refine forall₂_congr fun p _ => not_congr ?_
  exact decide_eq_true_iff

theorem Looser.run (h : w.Looser w') {nodes : List Node}
    (hclean : (w.run o file nodes).2.hasErrors = false) :
    (w'.run o file nodes).2.hasErrors = false := by
  induction nodes generalizing w w' with
  | nil => rfl
  | cons n nodes ih =>
    rw [Walk.run] at hclean ⊢
    simp only [Findings.hasErrors_append, Bool.or_eq_false_iff, hasErrors_step] at hclean ⊢
    obtain ⟨hquiet, hlooser⟩ := h.effect o file n hclean.1
    exact ⟨hquiet, ih hlooser hclean.2⟩

end Walk

structure Context.Relaxes (c c' : Context) : Prop where
  file : c.file = c'.file
  root : c.root.Relaxes c'.root
  dot : Option.Rel TypeNode.Relaxes c.dot c'.dot
  locals : List.Forall₂ (fun l l' => l.1 = l'.1 ∧ l.2.Relaxes l'.2) c.locals c'.locals

namespace Context.Relaxes

variable {c c' : Context} (h : c.Relaxes c')
include h

theorem stack : c.stack.Looser c'.stack := by
  have hstart : (ScopeStack.start c.root (c.dot.elim .root .own)).Looser
      (ScopeStack.start c'.root (c'.dot.elim .root .own)) := by
    apply ScopeStack.looser_start h.root.looser
    have hdot := h.dot
    generalize c.dot = dot, c'.dot = dot' at hdot ⊢
    cases hdot with
    | some relaxes => exact relaxes.looser
    | none => exact h.root.looser
  have hlocals := h.locals
  unfold Context.stack
  generalize c.locals = locals, c'.locals = locals' at hlocals ⊢
  generalize ScopeStack.start c.root _ = s, ScopeStack.start c'.root _ = s' at hstart ⊢
  induction hlocals generalizing s s' with
  | nil => exact hstart
  | @cons l l' _ _ relaxes _ ih =>
    obtain ⟨hname, htype⟩ := relaxes
    refine ih _ _ ?_
    dsimp only
    rw [hname]
    exact hstart.bind l'.1 htype.looser

theorem walk : c.walk.Looser c'.walk := ⟨h.stack, rfl⟩

end Context.Relaxes

/-- Where a check finds no error, it finds none either if types are relaxed. -/
theorem relaxing_types_creates_no_errors (o : Options) {c c' : Context} (h : c.Relaxes c')
    (source : String) (hclean : (check o c source).hasErrors = false) :
    (check o c' source).hasErrors = false := by
  unfold check Template.analyze at hclean ⊢
  simp only [Findings.hasErrors_sorted, Findings.hasErrors_append, Bool.or_eq_false_iff] at hclean ⊢
  rw [← h.file]
  exact ⟨hclean.1, h.walk.run hclean.2⟩

theorem relaxing_types_creates_no_errors_of_elements :
    let orders := TypeNode.slice "Orders" (.structure_ "" "Order" [.scalar "Total" "int"])
    let user := TypeNode.structure_ "User" "User" [.scalar "Name" "string"]
    let title := TypeNode.scalar "Title" "string"
    let c : Context := { file := "a.tmpl", root := .root [orders, user, title] }
    let orders' := { orders with elem := some (.scalar "" "any") }
    let c' : Context := { c with root := .root [orders', .scalar "User" "unknown", title] }
    let source := Delimiters.actions {}
      ["range .Orders", ".Total | printf $.Title", "end", ".User.Name"]
    c.Relaxes c' ∧ (check {} c source).hasErrors = false ∧
      (check {} c' source).hasErrors = false := by
  intro orders user title c orders' c' source
  have horders : orders.Relaxes orders' :=
    .kept rfl (.mk (.some (.replaced _ (by decide))) .nil)
  have huser : user.Relaxes (.scalar "User" "unknown") := .replaced user (by decide)
  have htitle : title.Relaxes title := .kept rfl (.mk .none .nil)
  have hrelaxes : c.Relaxes c' :=
    ⟨rfl, .kept rfl (.mk .none (.cons horders (.cons huser (.cons htitle .nil)))), .none, .nil⟩
  have hclean : (check {} c source).hasErrors = false := by decide +kernel
  exact ⟨hrelaxes, hclean, relaxing_types_creates_no_errors {} hrelaxes source hclean⟩

end TemplateLint
