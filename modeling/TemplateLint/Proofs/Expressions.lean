import TemplateLint.Infer
import TemplateLint.Proofs.Resolution

/-! Reasoning about expressions: induction over their nested lists, the paths that they refer to,
and inference over arguments and stages. -/
namespace TemplateLint

namespace Expr

@[elab_as_elim, induction_eliminator]
theorem induct {motive : Expr → Prop} (path : ∀ s p, motive (.path s p))
    (literal : ∀ s v, motive (.literal s v))
    (call : ∀ s f args, (∀ e ∈ args, motive e) → motive (.call s f args))
    (method : ∀ s r m args, (∀ e ∈ args, motive e) → motive (.method s r m args))
    (chain : ∀ s base segments, motive base → motive (.chain s base segments))
    (pipeline : ∀ s stages, (∀ e ∈ stages, motive e) → motive (.pipeline s stages)) :
    (e : Expr) → motive e
  | .path s p => path s p
  | .literal s v => literal s v
  | .call s f args =>
    call s f args fun e _ => induct path literal call method chain pipeline e
  | .method s r m args =>
    method s r m args fun e _ => induct path literal call method chain pipeline e
  | .chain s base segments =>
    chain s base segments (induct path literal call method chain pipeline base)
  | .pipeline s stages =>
    pipeline s stages fun e _ => induct path literal call method chain pipeline e

section

variable (s : Span) (p : Path) (v : Literal) (f m : String) (args stages : List Expr) (base : Expr)
  (segments : List Segment)

theorem partsOfAll_eq_flatMap : parts.partsOfAll args = args.flatMap parts := by
  induction args with
  | nil => rfl
  | cons e es ih => rw [parts.partsOfAll, ih, List.flatMap_cons]

theorem filterMap_partsOfAll {α : Type} (g : Expr → Option α) :
    (parts.partsOfAll args).filterMap g = args.flatMap fun e => e.parts.filterMap g := by
  rw [partsOfAll_eq_flatMap, List.filterMap_flatMap]

@[simp] theorem paths_path : (path s p).paths = [(p, s)] := rfl

@[simp] theorem paths_literal : (literal s v).paths = [] := rfl

@[simp] theorem paths_call : (call s f args).paths = args.flatMap paths :=
  filterMap_partsOfAll args ownPath?

@[simp] theorem paths_method :
    (method s p m args).paths = (method s p m args).ownPath?.toList ++ args.flatMap paths := by
  change ((method s p m args) :: parts.partsOfAll args).filterMap ownPath? = _
  rw [List.filterMap_cons, filterMap_partsOfAll]
  cases (method s p m args).ownPath? <;> rfl

@[simp] theorem paths_chain : (chain s base segments).paths = base.paths := rfl

@[simp] theorem paths_pipeline : (pipeline s stages).paths = stages.flatMap paths :=
  filterMap_partsOfAll stages ownPath?

end

section

variable {env : Env} {funcs : FuncTable} {es stages : List Expr} {input : TypeNode}
  {err : ExprError}

theorem exists_of_typesIn_eq_ok {ts : List TypeNode} (h : typesIn env funcs es = .ok ts) :
    ∀ e ∈ es, ∃ t, e.typeIn env funcs = .ok t := by
  induction es generalizing ts with
  | nil => simp
  | cons e es ih =>
    rw [typesIn, bind_eq_ok] at h
    obtain ⟨t, ht, h⟩ := h
    obtain ⟨ts, hts, -⟩ := bind_eq_ok.1 h
    rw [List.forall_mem_cons]
    exact ⟨⟨t, ht⟩, ih hts⟩

theorem exists_of_typesIn_eq_error (h : typesIn env funcs es = .error err) :
    ∃ e ∈ es, e.typeIn env funcs = .error err := by
  induction es with
  | nil => cases h
  | cons e es ih =>
    rw [typesIn, bind_eq_error] at h
    rcases h with h | ⟨t, -, h⟩
    · exact ⟨e, List.mem_cons_self, h⟩
    · rcases bind_eq_error.1 h with h | ⟨ts, -, h⟩
      · obtain ⟨e', hmem, he'⟩ := ih h
        exact ⟨e', List.mem_cons_of_mem _ hmem, he'⟩
      · cases h

theorem exists_of_stagesIn_eq_ok {t : TypeNode} (h : stagesIn env funcs input stages = .ok t) :
    ∀ stage ∈ stages, ∃ u v, stageIn env funcs u stage = .ok v := by
  induction stages generalizing input with
  | nil => simp
  | cons stage stages ih =>
    rw [stagesIn, bind_eq_ok] at h
    obtain ⟨next, hstage, h⟩ := h
    rw [List.forall_mem_cons]
    exact ⟨⟨input, next, hstage⟩, ih h⟩

theorem exists_of_stagesIn_eq_error (h : stagesIn env funcs input stages = .error err) :
    ∃ stage ∈ stages, ∃ u, stageIn env funcs u stage = .error err := by
  induction stages generalizing input with
  | nil => cases h
  | cons stage stages ih =>
    rw [stagesIn, bind_eq_error] at h
    rcases h with h | ⟨next, -, h⟩
    · exact ⟨stage, List.mem_cons_self, input, h⟩
    · obtain ⟨later, hmem, hlater⟩ := ih h
      exact ⟨later, List.mem_cons_of_mem _ hmem, hlater⟩

end

end Expr
end TemplateLint
