import TemplateLint.Analysis.Cursor
import TemplateLint.Proofs.LexicalDot
import TemplateLint.Proofs.Nesting
import TemplateLint.Proofs.Reporting

/-! What a question about a place sees. The scope at a node is made by stopping the walk there, and
it is the scope on which the walk that goes on checks the node; a place in the source finds its node
by where the nodes end. -/
namespace TemplateLint

theorem BlockKind.returnsDot_eq_false_of_acceptsElse {kind : BlockKind}
    (h : kind.acceptsElse = false) : kind.returnsDot = false := by
  cases kind <;> first | rfl | cases h

theorem Span.Tiles.findIdx?_start {start stop index : Nat} {spans : List Span} {s : Span}
    (h : Tiles start spans stop) (hs : spans[index]? = some s) :
    spans.findIdx? (fun s' => s.start < s'.stop) = some index := by
  induction spans generalizing start index with
  | nil => cases hs
  | cons s' spans ih =>
    obtain ⟨-, hlt, hrest⟩ := h
    cases index with
    | zero =>
      cases hs
      simp [List.findIdx?_cons, hlt]
    | succ index =>
      have hmem : s ∈ spans := List.mem_of_getElem? hs
      have hpast : ¬s.start < s'.stop := Nat.not_lt.2 (hrest.start_le s hmem)
      simp [List.findIdx?_cons, hpast, ih hrest hs]

namespace Template

variable {t : Template} {index : Nat}

theorem WellPaired.enterBranch_of_ungrouped (ht : t.WellPaired) (o : Options) (ctx : Context)
    {b : BlockOpen} (hb : t.block? index = some b) (hbranch : b.kind.isBranch = true)
    (hgroup : b.group = none) :
    (t.walkBefore o ctx index).enterBranch = t.walkBefore o ctx index := by
  have hlevels := ht.levels o ctx index
  have hrefused : ∀ c, (t.openBefore index).head? = some c → ∀ top, t.block? c = some top →
      top.kind.acceptsElse = false := by
    intro c hc top htop
    refine Bool.eq_false_iff.2 fun haccepts => ?_
    cases hgroup.symm.trans ((ht.group_iff hb hbranch).2 ⟨hc, top, htop, haccepts⟩)
  generalize t.walkBefore o ctx index = w at hlevels ⊢
  generalize t.openBefore index = opened at hlevels hrefused
  cases opened with
  | nil =>
    have hgroups : w.groups = [] := List.map_eq_nil_iff.1 hlevels.map_kind
    unfold Walk.enterBranch
    rw [hgroups]
  | cons c opened =>
    obtain ⟨g, rest, top, hgroups, htop, hkind, -⟩ := hlevels.exists_group
    have hreturns : g.kind.returnsDot = false := by
      rw [hkind]
      exact BlockKind.returnsDot_eq_false_of_acceptsElse (hrefused c rfl top htop)
    obtain ⟨stack, groups⟩ := w
    cases hgroups
    exact Walk.enterBranch_of_returnsDot_eq_false hreturns stack g.pushed rest

/-- Stopping at a node leaves the scope that its pipeline is checked on. -/
theorem WellPaired.scopeAt_eq (ht : t.WellPaired) (o : Options) (ctx : Context) (index : Nat) :
    t.scopeAt o ctx index = t.scopeFacing o ctx index := by
  cases hbody : t.body? index with
  | none =>
    have hnone : t.nodes[index]?.map Node.body = none := hbody
    unfold scopeAt scopeFacing
    rw [hnone, hbody]
    rfl
  | some body =>
    have hsome : t.nodes[index]?.map Node.body = some body := hbody
    rw [scopeFacing_of_body? o ctx hbody, scopeAt, hsome]
    cases body with
    | blockOpen b =>
      change (if b.kind.isBranch = true then (t.walkBefore o ctx index).enterBranch
        else t.walkBefore o ctx index).stack = _
      cases hbranch : b.kind.isBranch with
      | false =>
        rw [Walk.facing_of_isBranch_eq_false _ hbranch]
        rfl
      | true =>
        rw [if_pos rfl]
        cases hgroup : b.group with
        | none =>
          have hungrouped : (NodeBody.blockOpen b).group? = none := hgroup
          rw [ht.enterBranch_of_ungrouped o ctx (block?_eq_some_iff.2 hbody) hbranch hgroup,
            Walk.facing_of_ungrouped _ hungrouped]
        | some c => rw [Walk.facing_of_branch _ hbranch hgroup]
    | text | comment _ | action _ | blockClose _ | loopControl _ | malformed _ => rfl

theorem findIdx?_start {d : Delimiters} {source : String} {n : Node}
    (hn : (parse d source).nodes[index]? = some n) :
    (parse d source).nodes.findIdx? (fun m => n.span.start < m.span.stop) = some index := by
  have hspan : ((parse d source).nodes.map Node.span)[index]? = some n.span := by
    rw [List.getElem?_map, hn, Option.map_some]
  rw [← (tiles_parse d source).findIdx?_start hspan, List.findIdx?_map]
  rfl

theorem inferAt?_start {o : Options} {source : String} {n : Node} {expr : String} {e : Expr}
    (ctx : Context) (hn : (parse o.delimiters source).nodes[index]? = some n)
    (he : Expr.parse expr = .ok e) :
    inferAt? o ctx source n.span.start expr =
      (e.infer ((parse o.delimiters source).scopeAt o ctx index).env o.funcs).toOption := by
  unfold inferAt?
  dsimp only
  rw [findIdx?_start hn, he]
  rfl

end Template

theorem Walk.openConstruct_of_ungrouped (o : Options) (file : String) (pos : Position) (w : Walk)
    {b : BlockOpen} (hbranch : b.kind.isBranch = true) (hgroup : b.group = none) :
    w.openConstruct o file pos b = { walk := w } := by
  unfold openConstruct
  cases hkind : b.kind with
  | elseIf | else_ =>
    unfold openBranch
    rw [hgroup]
    rfl
  | range | with_ | if_ | define | block | template =>
    rw [hkind] at hbranch
    cases hbranch

theorem ScopeStack.exists_infer_of_check {s : ScopeStack} {o : Options} {expr : String}
    {ref : TypeRef} (h : (s.check o expr none).type? = some ref) :
    ∃ e type, Expr.parse expr = .ok e ∧ e.infer s.env o.funcs = .ok type ∧
      ref = .own type.toNode := by
  unfold check checkPipeline at h
  split at h
  · cases h
  · change (s.checkExpr o expr).1 = some ref at h
    unfold checkExpr at h
    split at h
    · cases h
    · next e he =>
      dsimp only at h
      split at h
      · cases h
      · split at h
        · next type htype =>
          cases h
          exact ⟨e, type, he, htype, rfl⟩
        · cases h

/-- A question about a node is answered on the scope on which the walk over the whole template
checks the node's pipeline, or on which it passes by a branch that belongs to no construct. So a
pipeline that is not a path has, at the start of its node, the type that the walk finds. -/
theorem cursor_sees_checked_scope (o : Options) (ctx : Context) (source : String) {index : Nat}
    {n : Node} (hn : (Template.parse o.delimiters source).nodes[index]? = some n) :
    let t := Template.parse o.delimiters source
    let w := t.walkBefore o ctx index
    let scope := (w.facing n.body).stack
    (∀ expr path, n.body.checked? = some (expr, path) →
      t.scopeAt o ctx index = scope ∧
        (w.effect o ctx.file n).Reports (scope.check o expr path)) ∧
    (∀ b, n.body = .blockOpen b → b.kind.isBranch = true → b.group = none →
      t.scopeAt o ctx index = w.stack ∧ w.effect o ctx.file n = { walk := w }) ∧
    ∀ expr ref, n.body.checked? = some (expr, none) → (scope.check o expr none).type? = some ref →
      ∃ type, Expr.inferText scope.env o.funcs expr = .ok type ∧ ref = .own type.toNode ∧
        inferAt? o ctx source n.span.start expr = some type := by
  intro t w scope
  have hbody : t.body? index = some n.body := congrArg (Option.map Node.body) hn
  have hscope : t.scopeAt o ctx index = scope := by
    rw [(Template.wellPaired_parse o.delimiters source).scopeAt_eq o ctx index]
    exact Template.scopeFacing_of_body? o ctx hbody
  refine ⟨?_, ?_, ?_⟩
  · intro expr path hchecked
    exact ⟨hscope, w.reports_effect o ctx.file hchecked⟩
  · intro b hb hbranch hgroup
    have hungrouped : n.body.group? = none := by
      rw [hb]
      exact hgroup
    refine ⟨hscope.trans (congrArg Walk.stack (w.facing_of_ungrouped hungrouped)), ?_⟩
    rw [Walk.effect, hb]
    exact w.openConstruct_of_ungrouped o ctx.file n.pos hbranch hgroup
  · intro expr ref _ href
    obtain ⟨e, type, he, htype, rfl⟩ := ScopeStack.exists_infer_of_check href
    refine ⟨type, ?_, rfl, ?_⟩
    · rw [Expr.inferText_of_parse he]
      exact htype
    · rw [Template.inferAt?_start ctx hn he]
      change (e.infer (t.scopeAt o ctx index).env o.funcs).toOption = _
      rw [hscope, htype]
      rfl

theorem cursor_sees_checked_scope_of_else_if :
    let source := Delimiters.actions {} ["with .A", "else if index .M 0", "end"]
    let ctx : Context :=
      { file := "page"
        root := .root [.scalar "A" "string", .slice "M" (.scalar "" "string")] }
    ∃ n type, (Template.parse {} source).nodes[1]? = some n ∧ n.span.start = 11 ∧
      inferAt? {} ctx source 11 "index .M 0" = some type ∧ type.label = "string" := by
  intro source ctx
  let t := Template.parse {} source
  let w := t.walkBefore {} ctx 1
  obtain ⟨hnode, hheader⟩ :
      t.nodes[1]?.map (fun n => (n.span.start, n.body.checked?)) =
          some (11, some ("index .M 0", none)) ∧
        t.nodes[1]?.map (fun n => ((w.facing n.body).stack.check {} "index .M 0" none).type?.map
          fun ref => (ref.type ctx.root).label) = some (some "string") := by
    decide +kernel
  obtain ⟨n, hn, hshape⟩ := Option.map_eq_some_iff.1 hnode
  obtain ⟨hstart, hchecked⟩ := Prod.mk.inj hshape
  rw [hn, Option.map_some, Option.some_inj] at hheader
  obtain ⟨ref, href, hlabel⟩ := Option.map_eq_some_iff.1 hheader
  obtain ⟨type, -, rfl, hinfer⟩ :=
    (cursor_sees_checked_scope {} ctx source hn).2.2 _ ref hchecked href
  rw [hstart] at hinfer
  exact ⟨n, type, hn, hstart, hinfer, hlabel⟩

end TemplateLint
