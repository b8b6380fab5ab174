import TemplateLint.Analysis.Check
import TemplateLint.Proofs.Expressions
import TemplateLint.Proofs.Staging

/-! What the check of a pipeline reports, against what inference makes of it. The paths of an
expression are resolved before its type is inferred, so two traversals have to agree on which paths
count and on how much of each has to be there. -/
namespace TemplateLint

def Quiet (problems : List Problem) : Prop := ∀ p ∈ problems, p.severity ≠ .error

instance : DecidablePred Quiet := fun problems =>
  inferInstanceAs (Decidable (∀ p ∈ problems, p.severity ≠ .error))

@[simp] theorem quiet_nil : Quiet [] := by simp [Quiet]

@[simp] theorem quiet_cons {p : Problem} {problems : List Problem} :
    Quiet (p :: problems) ↔ p.severity ≠ .error ∧ Quiet problems := by
  simp [Quiet]

@[simp] theorem quiet_append {problems more : List Problem} :
    Quiet (problems ++ more) ↔ Quiet problems ∧ Quiet more := by
  simp only [Quiet, List.forall_mem_append]

namespace ScopeStack

variable (s : ScopeStack) (o : Options)

@[simp] theorem severity_pathProblem (p : Path) (e : ResolveError) :
    (s.pathProblem p e).severity = .error := by
  unfold pathProblem
  repeat' split
  all_goals rfl

@[simp] theorem quiet_functionProblems (e : Expr) : Quiet (functionProblems o e) := by
  unfold functionProblems
  split
  · intro problem hproblem
    obtain ⟨⟨f, _⟩, -, hf⟩ := List.mem_filterMap.1 hproblem
    dsimp only at hf
    split at hf
    · cases hf
    · cases hf
      exact nofun
  · exact quiet_nil

variable {s}

theorem mem_pathProblems {e : Expr} {problem : Problem} :
    problem ∈ s.pathProblems e ↔
      ∃ q ∈ e.paths, ∃ err, s.resolve q.1 = .error err ∧ problem = s.pathProblem q.1 err := by
  unfold pathProblems
  rw [List.mem_filterMap]
  refine exists_congr fun q => and_congr_right fun _ => ?_
  dsimp only
  cases s.resolve q.1 with
  | ok ref => simp
  | error err => simp [eq_comm]

theorem pathProblems_eq_nil {e : Expr} :
    s.pathProblems e = [] ↔ ∀ q ∈ e.paths, s.env.Resolves q.1 := by
  rw [List.eq_nil_iff_forall_not_mem]
  constructor
  · intro h q hq
    cases hresolve : s.resolve q.1 with
    | ok ref => exact ⟨ref, hresolve⟩
    | error err => exact absurd (mem_pathProblems.2 ⟨q, hq, err, hresolve, rfl⟩) (h _)
  · intro h problem hproblem
    obtain ⟨q, hq, err, herr, -⟩ := mem_pathProblems.1 hproblem
    obtain ⟨ref, hok⟩ := h q hq
    cases hok.symm.trans herr

theorem quiet_pathProblems {e : Expr} :
    Quiet (s.pathProblems e) ↔ ∀ q ∈ e.paths, s.env.Resolves q.1 := by
  rw [← pathProblems_eq_nil]
  constructor
  · intro h
    rw [List.eq_nil_iff_forall_not_mem]
    intro problem hproblem
    obtain ⟨q, -, err, -, rfl⟩ := mem_pathProblems.1 hproblem
    exact h _ hproblem (severity_pathProblem s q.1 err)
  · intro h
    simp [h]

end ScopeStack

/-- Errors of inference that an expression does not have once it has been read and all its paths
resolve. -/
def ExprError.isPrecluded : ExprError → Bool
  | .malformed _ | .resolve (.undefinedVariable _) => true
  | .resolve _ | .arity .. | .notIndexable .. => false

theorem ScopeStack.arity_of_quiet {expr : String} {err : ExprError}
    (hquiet : Quiet (inferenceProblems expr err)) (hpossible : err.isPrecluded = false) :
    ∃ f expected found, err = .arity f expected found := by
  cases err with
  | malformed => cases hpossible
  | resolve e =>
    cases e with
    | undefinedVariable => cases hpossible
    | undefinedField => exact absurd rfl (hquiet _ List.mem_cons_self)
    | notIndexable => exact absurd rfl (hquiet _ List.mem_cons_self)
  | arity f expected found => exact ⟨f, expected, found, rfl⟩
  | notIndexable => exact absurd rfl (hquiet _ List.mem_cons_self)

section

variable {t : TypeNode} {err : ExprError}

theorem TypeNode.isPrecluded_of_descend {depth : Nat} {segments : List Segment} {e : ResolveError}
    (h : t.descend depth segments = .error e) : (ExprError.resolve e).isPrecluded = false := by
  obtain ⟨front, segment, back, u, -, -, hstep⟩ := exists_of_descend_eq_error h
  have hdepth := depth?_of_step hstep
  cases e with
  | undefinedVariable => cases hdepth
  | undefinedField | notIndexable => rfl

theorem TypeNode.isPrecluded_of_indexWithAll {keys : List TypeNode}
    (h : t.indexWithAll keys = .error err) : err.isPrecluded = false := by
  induction keys generalizing t with
  | nil => cases h
  | cons key keys ih =>
    rw [indexWithAll] at h
    split at h
    · next hkey =>
      cases h
      unfold indexWith at hkey
      repeat' split at hkey
      all_goals cases hkey
      rfl
    · exact ih h

theorem FuncTable.isPrecluded_of_call {funcs : FuncTable} {func : String} {args : List TypeNode}
    (h : funcs.call func args = .error err) : err.isPrecluded = false := by
  unfold call at h
  split at h
  · cases h
  · split at h
    · unfold ReturnRule.result at h
      split at h
      case h_4 => exact TypeNode.isPrecluded_of_indexWithAll h
      all_goals cases h
    · cases h
      rfl

end

namespace Env

variable {env : Env} {p : Path} {t : TypeNode} {err : ExprError}

theorem operand_eq_ok : env.operand p = .ok t ↔ env.typeOf p = .ok t := by
  unfold operand
  cases env.typeOf p <;> simp

theorem operand_eq_error {e : ResolveError} :
    env.operand p = .error (.resolve e) ↔ env.typeOf p = .error e := by
  unfold operand
  cases env.typeOf p <;> simp

theorem Resolves.operand_ne_error (h : env.Resolves p) : env.operand p ≠ .error err := by
  obtain ⟨t, ht⟩ := resolves_iff.1 h
  rw [operand_eq_ok.2 ht]
  simp

theorem resolves_of_operand (h : env.operand p = .ok t) : env.Resolves p :=
  resolves_iff.2 ⟨t, operand_eq_ok.1 h⟩

end Env

namespace Expr

variable {env : Env} {funcs : FuncTable} {e : Expr}

theorem resolves_receiver {s : Span} {r : Path} {m : String} {args : List Expr}
    (h : ∀ q ∈ (method s r m args).paths, env.Resolves q.1) : env.Resolves r := by
  by_cases hdot : r = .dot
  · rw [hdot]
    exact env.resolves_dot
  · apply h (r, ⟨s.start, s.start + Text.byteLength r.chars⟩)
    simp [ownPath?, hdot]

theorem stageIn_method (input : TypeNode) (s : Span) (r : Path) (m : String) (args : List Expr) :
    stageIn env funcs input (method s r m args) = typeIn env funcs (method s r m args) := by
  rw [stageIn, typeIn]

section

variable {s : Span} {p : Path} {f m : String} {args stages : List Expr} {base : Expr}
  {segments : List Segment} {input : TypeNode} {err : ExprError}

theorem stageIn_path_ne_error (hp : env.Resolves p) :
    stageIn env funcs input (path s p) ≠ .error err := by
  intro h
  rw [stageIn, bind_eq_error] at h
  rcases h with h | ⟨_, -, h⟩
  · exact (hp.take _).operand_ne_error h
  · cases h

theorem isPrecluded_of_typesIn
    (ih : ∀ a ∈ args, ∀ err, a.typeIn env funcs = .error err → err.isPrecluded = false)
    (h : typesIn env funcs args = .error err) : err.isPrecluded = false := by
  obtain ⟨a, ha, herr⟩ := exists_of_typesIn_eq_error h
  exact ih a ha err herr

theorem isPrecluded_of_call
    (ih : ∀ a ∈ args, ∀ err, a.typeIn env funcs = .error err → err.isPrecluded = false)
    (h : typeIn env funcs (call s f args) = .error err ∨
      ∃ input, stageIn env funcs input (call s f args) = .error err) :
    err.isPrecluded = false := by
  rcases h with h | ⟨input, h⟩
  · rw [typeIn, bind_eq_error] at h
    rcases h with h | ⟨_, -, h⟩
    · exact isPrecluded_of_typesIn ih h
    · exact FuncTable.isPrecluded_of_call h
  · rw [stageIn, bind_eq_error] at h
    rcases h with h | ⟨_, -, h⟩
    · exact isPrecluded_of_typesIn ih h
    · exact FuncTable.isPrecluded_of_call h

theorem isPrecluded_of_method (hp : env.Resolves p)
    (ih : ∀ a ∈ args, ∀ err, a.typeIn env funcs = .error err → err.isPrecluded = false)
    (h : typeIn env funcs (method s p m args) = .error err) : err.isPrecluded = false := by
  rw [typeIn, bind_eq_error] at h
  rcases h with h | ⟨_, -, h⟩
  · exact absurd h hp.operand_ne_error
  · rcases bind_eq_error.1 h with h | ⟨_, -, h⟩
    · exact isPrecluded_of_typesIn ih h
    · cases h

theorem isPrecluded_of_chain
    (ih : ∀ err, base.typeIn env funcs = .error err → err.isPrecluded = false)
    (h : typeIn env funcs (chain s base segments) = .error err) : err.isPrecluded = false := by
  rw [typeIn, bind_eq_error] at h
  rcases h with h | ⟨t, -, h⟩
  · exact ih err h
  · split at h
    · cases h
    · next hdescend =>
      cases h
      exact TypeNode.isPrecluded_of_descend hdescend

theorem isPrecluded_of_pipeline
    (hfirst : ∀ stage ∈ stages, ∀ err, stage.typeIn env funcs = .error err →
      err.isPrecluded = false)
    (hlater : ∀ stage ∈ stages.tail, ∀ input err, stageIn env funcs input stage = .error err →
      err.isPrecluded = false)
    (h : typeIn env funcs (pipeline s stages) = .error err) : err.isPrecluded = false := by
  cases stages with
  | nil => cases h
  | cons first rest =>
    rw [typeIn, bind_eq_error] at h
    rcases h with h | ⟨t, -, h⟩
    · exact hfirst first List.mem_cons_self err h
    · obtain ⟨stage, hstage, input, herr⟩ := exists_of_stagesIn_eq_error h
      exact hlater stage hstage input err herr

end

/-- What is wrong with an expression whose paths resolve is that a part of it that is not a path
has no such field or cannot be indexed, or that a function gets too few or too many arguments. -/
theorem Staged.isPrecluded_eq_false (he : e.Staged) (hpaths : ∀ q ∈ e.paths, env.Resolves q.1) :
    (∀ err, e.typeIn env funcs = .error err → err.isPrecluded = false) ∧
      (Level.isExecutable e = true →
        ∀ input err, stageIn env funcs input e = .error err → err.isPrecluded = false) := by
  induction he with
  | path =>
    have hresolves := hpaths _ List.mem_cons_self
    constructor
    · intro err h
      exact absurd h hresolves.operand_ne_error
    · intro _ input err h
      exact absurd h (stageIn_path_ne_error hresolves)
  | literal =>
    constructor
    · intro err h
      cases h
    · intro h
      cases h
  | @call s f args each ih =>
    rw [paths_call] at hpaths
    have hargs (a : Expr) (ha : a ∈ args) :=
      (ih a ha fun q hq => hpaths q (List.mem_flatMap.2 ⟨a, ha, hq⟩)).1
    constructor
    · intro err h
      exact isPrecluded_of_call hargs (.inl h)
    · intro _ input err h
      exact isPrecluded_of_call hargs (.inr ⟨input, h⟩)
  | @method s r m args each ih =>
    have hreceiver := resolves_receiver hpaths
    rw [paths_method, List.forall_mem_append] at hpaths
    have hargs (a : Expr) (ha : a ∈ args) :=
      (ih a ha fun q hq => hpaths.2 q (List.mem_flatMap.2 ⟨a, ha, hq⟩)).1
    constructor
    · intro err h
      exact isPrecluded_of_method hreceiver hargs h
    · intro _ input err h
      rw [stageIn_method] at h
      exact isPrecluded_of_method hreceiver hargs h
  | chain staged ih =>
    constructor
    · intro err h
      exact isPrecluded_of_chain (ih hpaths).1 h
    · intro h
      cases h
  | @pipeline s stages each later ih =>
    rw [paths_pipeline] at hpaths
    have hstages (stage : Expr) (hstage : stage ∈ stages) :=
      ih stage hstage fun q hq => hpaths q (List.mem_flatMap.2 ⟨stage, hstage, hq⟩)
    constructor
    · intro err h
      refine isPrecluded_of_pipeline (fun stage hstage => (hstages stage hstage).1) ?_ h
      intro stage hstage
      exact (hstages stage (List.mem_of_mem_tail hstage)).2 (later stage hstage)
    · intro h
      cases h

theorem inferText_of_parse {text : String} (h : parse text = .ok e) :
    inferText env funcs text = e.infer env funcs := by
  unfold inferText
  rw [h]

theorem infer_eq_error {err : ExprError} :
    e.infer env funcs = .error err ↔ e.typeIn env funcs = .error err :=
  map_eq_error

theorem infer_eq_ok {t : InferredType} :
    e.infer env funcs = .ok t ↔ ∃ u, e.typeIn env funcs = .ok u ∧ InferredType.ofNode u = t :=
  map_eq_ok

end Expr

namespace ScopeStack

variable {s : ScopeStack} {o : Options} {expr : String} {e : Expr} {p : Path}

theorem checkExpr_of_infer_eq_ok {t : InferredType} (hparse : Expr.parse expr = .ok e)
    (hpaths : ∀ q ∈ e.paths, s.env.Resolves q.1) (hinfer : e.infer s.env o.funcs = .ok t) :
    s.checkExpr o expr = (some (.own t.toNode), functionProblems o e) := by
  unfold checkExpr
  rw [hparse]
  dsimp only
  rw [if_neg (by simpa using pathProblems_eq_nil.2 hpaths), hinfer]

theorem checkExpr_of_infer_eq_error {err : ExprError} (hparse : Expr.parse expr = .ok e)
    (hpaths : ∀ q ∈ e.paths, s.env.Resolves q.1) (hinfer : e.infer s.env o.funcs = .error err) :
    s.checkExpr o expr = (none, functionProblems o e ++ inferenceProblems expr err) := by
  unfold checkExpr
  rw [hparse]
  dsimp only
  rw [if_neg (by simpa using pathProblems_eq_nil.2 hpaths), hinfer]

theorem checkExpr_of_not_resolves (hparse : Expr.parse expr = .ok e)
    (hpaths : ¬∀ q ∈ e.paths, s.env.Resolves q.1) :
    s.checkExpr o expr = (none, s.pathProblems e ++ functionProblems o e) := by
  unfold checkExpr
  rw [hparse]
  dsimp only
  rw [if_pos (by rwa [ne_eq, pathProblems_eq_nil])]

theorem exists_of_quiet_checkExpr (h : Quiet (s.checkExpr o expr).2) :
    ∃ e, Expr.parse expr = .ok e ∧ ∀ q ∈ e.paths, s.env.Resolves q.1 := by
  cases hparse : Expr.parse expr with
  | error err =>
    unfold checkExpr at h
    rw [hparse] at h
    exact absurd rfl (h _ List.mem_cons_self)
  | ok e =>
    refine ⟨e, rfl, ?_⟩
    by_cases hpaths : ∀ q ∈ e.paths, s.env.Resolves q.1
    · exact hpaths
    · rw [checkExpr_of_not_resolves hparse hpaths, quiet_append, quiet_pathProblems] at h
      exact h.1

theorem checkPath_of_resolve_eq_ok {ref : TypeRef} (h : s.resolve p = .ok ref) :
    s.checkPath o expr p = (some ref, []) := by
  unfold checkPath
  rw [h]

theorem exists_arity_of_quiet_checkExpr {err : ExprError} (hparse : Expr.parse expr = .ok e)
    (hpaths : ∀ q ∈ e.paths, s.env.Resolves q.1) (hinfer : e.infer s.env o.funcs = .error err)
    (hquiet : Quiet (s.checkExpr o expr).2) :
    ∃ func expected found, err = .arity func expected found := by
  rw [checkExpr_of_infer_eq_error hparse hpaths hinfer, quiet_append] at hquiet
  have hpossible := ((Expr.staged_of_parse hparse).isPrecluded_eq_false hpaths).1 err
    (Expr.infer_eq_error.1 hinfer)
  exact arity_of_quiet hquiet.2 hpossible

theorem checkPath_of_inferText {err : ResolveError} {t : InferredType}
    (hresolve : s.resolve p = .error err) (hdepth : err.depth?.any (0 < ·) = true)
    (hinfer : Expr.inferText s.env o.funcs expr = .ok t) :
    s.checkPath o expr p = (some (.own t.toNode), []) := by
  unfold checkPath
  rw [hresolve]
  dsimp only
  rw [if_pos hdepth, hinfer]
  rfl

theorem exists_of_quiet_checkPath {err : ResolveError} (hresolve : s.resolve p = .error err)
    (hquiet : Quiet (s.checkPath o expr p).2) :
    err.depth?.any (0 < ·) = true ∧ ∃ t, Expr.inferText s.env o.funcs expr = .ok t := by
  unfold checkPath at hquiet
  rw [hresolve] at hquiet
  dsimp only at hquiet
  split at hquiet
  · next t hrescued =>
    split at hrescued
    · next hdepth =>
      refine ⟨hdepth, t, ?_⟩
      cases hinfer : Expr.inferText s.env o.funcs expr with
      | ok u =>
        rw [hinfer] at hrescued
        cases hrescued
        rfl
      | error e =>
        rw [hinfer] at hrescued
        cases hrescued
    · cases hrescued
  · simp at hquiet

theorem not_quiet_of_checkPath (h : (s.checkPath o expr p).1 = none) :
    ¬Quiet (s.checkPath o expr p).2 := by
  intro hquiet
  cases hresolve : s.resolve p with
  | ok ref =>
    rw [checkPath_of_resolve_eq_ok hresolve] at h
    cases h
  | error err =>
    obtain ⟨hdepth, t, hinfer⟩ := exists_of_quiet_checkPath hresolve hquiet
    rw [checkPath_of_inferText hresolve hdepth hinfer] at h
    cases h

/-- A pipeline without a type of which no error is told can only be one where a function gets the
wrong number of arguments: nothing else that inference can fail with is kept quiet. -/
theorem untyped_pipeline_is_arity_mismatch (s : ScopeStack) (o : Options) (text : String) :
    (∀ problems, s.checkPipeline o text (Path.ofString? text) = (none, problems) →
      Quiet problems →
        ∃ e, Expr.parse text = .ok e ∧
          ∃ func expected found, e.infer s.env o.funcs = .error (.arity func expected found)) ∧
    ∀ (env : Env) (funcs : FuncTable) (e : Expr), Expr.parse text = .ok e →
      (∀ q ∈ e.paths, ∃ ref, env.resolve q.1 = .ok ref) →
        ∀ err, e.infer env funcs = .error err →
          (∀ name, err ≠ .resolve (.undefinedVariable name)) ∧ ∀ m, err ≠ .malformed m := by
  constructor
  · intro problems hchecked hquiet
    cases hpath : Path.ofString? text with
    | some p =>
      rw [hpath] at hchecked
      have huntyped := congrArg Prod.fst hchecked
      have hloud := not_quiet_of_checkPath huntyped
      rw [show (s.checkPath o text p).2 = problems from congrArg Prod.snd hchecked] at hloud
      exact absurd hquiet hloud
    | none =>
      rw [hpath] at hchecked
      change s.checkExpr o text = _ at hchecked
      obtain ⟨e, hparse, hpaths⟩ := exists_of_quiet_checkExpr (by rw [hchecked]; exact hquiet)
      refine ⟨e, hparse, ?_⟩
      cases herr : e.infer s.env o.funcs with
      | ok t =>
        rw [checkExpr_of_infer_eq_ok hparse hpaths herr] at hchecked
        cases hchecked
      | error err =>
        obtain ⟨func, expected, found, rfl⟩ :=
          exists_arity_of_quiet_checkExpr hparse hpaths herr (by rw [hchecked]; exact hquiet)
        exact ⟨func, expected, found, rfl⟩
  · intro env funcs e hparse hpaths err herr
    have hpossible := ((Expr.staged_of_parse hparse).isPrecluded_eq_false hpaths).1 err
      (Expr.infer_eq_error.1 herr)
    constructor
    · rintro name rfl
      cases hpossible
    · rintro m rfl
      cases hpossible

theorem untyped_pipeline_is_arity_mismatch_of_len :
    let s := start (.root [.scalar "A" "int", .scalar "B" "int"])
    let text := "len .A .B"
    s.checkPipeline {} text (Path.ofString? text) = (none, []) ∧
      ∃ e func expected found, Expr.parse text = .ok e ∧
        (∀ q ∈ e.paths, ∃ ref, s.env.resolve q.1 = .ok ref) ∧
        e.infer s.env FuncTable.builtins = .error (.arity func expected found) ∧
        ∀ m, ExprError.arity func expected found ≠ .malformed m := by
  intro s text
  have huntyped : (s.checkPipeline {} text (Path.ofString? text)).1.isNone = true := by
    decide +kernel
  have hempty : (s.checkPipeline {} text (Path.ofString? text)).2.isEmpty = true := by
    decide +kernel
  have hchecked : s.checkPipeline {} text (Path.ofString? text) = (none, []) :=
    Prod.ext (Option.isNone_iff_eq_none.1 huntyped) (List.isEmpty_iff.1 hempty)
  obtain ⟨hsilent, hprecluded⟩ := untyped_pipeline_is_arity_mismatch s {} text
  obtain ⟨e, hparse, func, expected, found, herr⟩ := hsilent [] hchecked quiet_nil
  have hquiet : Quiet (s.checkExpr {} text).2 := by decide +kernel
  obtain ⟨e', hparse', hpaths⟩ := exists_of_quiet_checkExpr hquiet
  obtain rfl := Except.ok.inj (hparse.symm.trans hparse')
  exact ⟨hchecked, e, func, expected, found, hparse, hpaths, herr,
    (hprecluded s.env _ e hparse hpaths _ herr).2⟩

end ScopeStack
end TemplateLint
