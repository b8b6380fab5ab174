import Mathlib.Data.List.Basic
import TemplateLint.Analysis.Check
import TemplateLint.Proofs.Expressions

/-! Pipelines that start at `$` everywhere. What `$` means is the same in all frames, so the check
of such a pipeline does not see where it stands. -/
namespace TemplateLint

namespace Expr

def written? : Expr → Option Path
  | path _ p => some p
  | method _ receiver _ _ => some receiver
  | literal .. | call .. | chain .. | pipeline .. => none

def FromRoot (e : Expr) : Prop := ∀ part ∈ e.parts, ∀ p ∈ part.written?, p.root = .root

instance : DecidablePred FromRoot := fun e =>
  inferInstanceAs (Decidable (∀ part ∈ e.parts, ∀ p ∈ part.written?, p.root = .root))

section

variable {s : Span} {p : Path} {f m : String} {args stages : List Expr} {base : Expr}
  {segments : List Segment}

theorem forall_mem_partsOfAll {P : Expr → Prop} :
    (∀ part ∈ parts.partsOfAll args, P part) ↔ ∀ e ∈ args, ∀ part ∈ e.parts, P part := by
  rw [partsOfAll_eq_flatMap]
  simp only [List.mem_flatMap, forall_exists_index, and_imp]
  exact ⟨fun h e he part hpart => h part e he hpart, fun h part e he hpart => h e he part hpart⟩

@[simp] theorem fromRoot_path : (path s p).FromRoot ↔ p.root = .root := by
  simp [FromRoot, parts, written?]

@[simp] theorem fromRoot_call : (call s f args).FromRoot ↔ ∀ e ∈ args, e.FromRoot := by
  simp [FromRoot, parts, written?, forall_mem_partsOfAll]

@[simp] theorem fromRoot_method :
    (method s p m args).FromRoot ↔ p.root = .root ∧ ∀ e ∈ args, e.FromRoot := by
  simp [FromRoot, parts, written?, forall_mem_partsOfAll]

@[simp] theorem fromRoot_chain : (chain s base segments).FromRoot ↔ base.FromRoot := by
  simp [FromRoot, parts, written?]

@[simp] theorem fromRoot_pipeline : (pipeline s stages).FromRoot ↔ ∀ e ∈ stages, e.FromRoot := by
  simp [FromRoot, parts, written?, forall_mem_partsOfAll]

theorem FromRoot.root_of_mem_paths {e : Expr} (h : e.FromRoot) {q : Path × Span}
    (hq : q ∈ e.paths) : q.1.root = .root := by
  obtain ⟨part, hpart, hown⟩ := List.mem_filterMap.1 hq
  refine h part hpart q.1 ?_
  cases part with
  | path =>
    cases hown
    rfl
  | method =>
    rw [ownPath?] at hown
    split at hown
    · cases hown
    · cases hown
      rfl
  | literal | call | chain | pipeline => cases hown

end

end Expr

section

variable {env env' : Env} {funcs : FuncTable} {es : List Expr}

theorem Expr.typesIn_congr
    (h : ∀ e ∈ es, e.typeIn env funcs = e.typeIn env' funcs) :
    typesIn env funcs es = typesIn env' funcs es := by
  induction es with
  | nil => rfl
  | cons e es ih =>
    rw [List.forall_mem_cons] at h
    rw [typesIn, typesIn, h.1, ih h.2]

theorem Expr.stagesIn_congr
    (h : ∀ e ∈ es, ∀ input, stageIn env funcs input e = stageIn env' funcs input e)
    (input : TypeNode) : stagesIn env funcs input es = stagesIn env' funcs input es := by
  induction es generalizing input with
  | nil => rfl
  | cons e es ih =>
    rw [List.forall_mem_cons] at h
    rw [stagesIn, stagesIn, h.1]
    exact bind_congr fun next => ih h.2 next

end

section

variable {env env' : Env} (hroot : env.root = env'.root)
include hroot

theorem Env.resolve_of_root_eq {p : Path} (hp : p.root = .root) :
    env.resolve p = env'.resolve p := by
  unfold resolve
  rw [hp, hroot]
  rfl

theorem Env.operand_of_root_eq {p : Path} (hp : p.root = .root) :
    env.operand p = env'.operand p := by
  unfold operand typeOf
  rw [resolve_of_root_eq hroot hp, hroot]

namespace Expr

variable (funcs : FuncTable)

theorem FromRoot.typeIn_eq {e : Expr} (h : e.FromRoot) :
    e.typeIn env funcs = e.typeIn env' funcs ∧
      ∀ input, stageIn env funcs input e = stageIn env' funcs input e := by
  induction e with
  | path s p =>
    rw [fromRoot_path] at h
    have hreceiver : (p.take (p.segments.length - 1)).root = .root := h
    refine ⟨?_, fun input => ?_⟩
    · rw [typeIn, typeIn, Env.operand_of_root_eq hroot h]
    · rw [stageIn, stageIn, Env.operand_of_root_eq hroot hreceiver]
  | literal s v => exact ⟨rfl, fun _ => rfl⟩
  | call s f args ih =>
    rw [fromRoot_call] at h
    have hargs := typesIn_congr fun e he => (ih e he (h e he)).1
    refine ⟨?_, fun input => ?_⟩
    · rw [typeIn, typeIn, hargs]
    · rw [stageIn, stageIn, hargs]
  | method s r m args ih =>
    rw [fromRoot_method] at h
    have hargs := typesIn_congr fun e he => (ih e he (h.2 e he)).1
    refine ⟨?_, fun input => ?_⟩
    · rw [typeIn, typeIn, Env.operand_of_root_eq hroot h.1, hargs]
    · rw [stageIn, stageIn, Env.operand_of_root_eq hroot h.1, hargs]
  | chain s base segments ih =>
    rw [fromRoot_chain] at h
    refine ⟨?_, fun _ => rfl⟩
    rw [typeIn, typeIn, (ih h).1]
  | pipeline s stages ih =>
    rw [fromRoot_pipeline] at h
    refine ⟨?_, fun _ => rfl⟩
    cases stages with
    | nil => rfl
    | cons first stages =>
      rw [List.forall_mem_cons] at h ih
      rw [typeIn, typeIn, (ih.1 h.1).1]
      refine bind_congr fun t => stagesIn_congr ?_ t
      intro e he
      exact (ih.2 e he (h.2 e he)).2

theorem FromRoot.infer_eq {e : Expr} (h : e.FromRoot) :
    e.infer env funcs = e.infer env' funcs := by
  unfold infer
  rw [(h.typeIn_eq hroot funcs).1]

end Expr
end

namespace ScopeStack

variable {s s' : ScopeStack} (hroot : s.root = s'.root) (o : Options)
include hroot

theorem resolve_of_root_eq {p : Path} (hp : p.root = .root) : s.resolve p = s'.resolve p :=
  Env.resolve_of_root_eq hroot hp

omit hroot in
theorem pathProblem_of_root {p : Path} (hp : p.root = .root) (e : ResolveError) :
    s.pathProblem p e = s'.pathProblem p e := by
  unfold pathProblem
  simp only [hp, true_or, if_true]

theorem pathProblems_of_root_eq {e : Expr} (h : e.FromRoot) :
    s.pathProblems e = s'.pathProblems e := by
  apply List.filterMap_congr
  intro q hq
  have hp := h.root_of_mem_paths hq
  dsimp only
  rw [resolve_of_root_eq hroot hp]
  cases s'.resolve q.1 with
  | ok ref => rfl
  | error err => exact congrArg some (pathProblem_of_root hp err)

theorem checkExpr_of_root_eq {text : String} (h : ∀ e, Expr.parse text = .ok e → e.FromRoot) :
    s.checkExpr o text = s'.checkExpr o text := by
  unfold checkExpr
  cases hparse : Expr.parse text with
  | error e => rfl
  | ok e =>
    have hinfer : e.infer s.env o.funcs = e.infer s'.env o.funcs :=
      (h e hparse).infer_eq hroot o.funcs
    dsimp only
    rw [pathProblems_of_root_eq hroot (h e hparse), hinfer]

theorem checkPath_of_root_eq {text : String} {p : Path} (hp : p.root = .root)
    (h : ∀ e, Expr.parse text = .ok e → e.FromRoot) :
    s.checkPath o text p = s'.checkPath o text p := by
  have hinfer : Expr.inferText s.env o.funcs text = Expr.inferText s'.env o.funcs text := by
    unfold Expr.inferText
    cases hparse : Expr.parse text with
    | error e => rfl
    | ok e => exact (h e hparse).infer_eq hroot o.funcs
  unfold checkPath
  rw [resolve_of_root_eq hroot hp, hinfer]
  cases s'.resolve p with
  | ok ref => rfl
  | error e =>
    dsimp only
    rw [pathProblem_of_root hp]

/-- A pipeline whose operands and receivers all start at `$` is checked alike on all stacks with one
root: the findings and the type are the same, whatever the frames are, and whether it is checked as
the path that it is or as an expression. -/
theorem rooted_pipeline_ignores_frames {text : String} {path : Option Path}
    (hpath : ∀ p ∈ path, p.root = .root) (htext : ∀ e, Expr.parse text = .ok e → e.FromRoot) :
    s.checkPipeline o text path = s'.checkPipeline o text path := by
  cases path with
  | none => exact checkExpr_of_root_eq hroot o htext
  | some p => exact checkPath_of_root_eq hroot o (hpath p rfl) htext

omit hroot in
theorem rooted_pipeline_ignores_frames_of_detached :
    let root : TypeNode := .root [.slice "Rows" (.scalar "" "int"), .scalar "Title" "string"]
    let s := start root
    let s' := ((s.push .range (.own (.scalar "" "int"))).bind "x" .root).pushDetached .block
      (.own .unknown)
    let text := "index $.Rows 0 | printf $.Title (len $.Nope)"
    let p : Path := ⟨.root, [.field "Title", .field "Size"]⟩
    (s.checkPipeline {} text none).2.map (fun problem => (problem.kind, problem.subject)) =
        [(.undefinedVariable, "$.Nope")] ∧
      s.checkPipeline {} text none = s'.checkPipeline {} text none ∧
      (s.checkPipeline {} p.toString (some p)).2.map (fun problem => problem.kind) =
        [.undefinedField] ∧
      s.checkPipeline {} p.toString (some p) = s'.checkPipeline {} p.toString (some p) := by
  intro root s s' text p
  have hroot : s.root = s'.root := rfl
  have htext : (Expr.parse text).toOption.all (fun e => decide e.FromRoot) = true ∧
      (s.checkPipeline {} text none).2.map (fun problem => (problem.kind, problem.subject)) =
        [(.undefinedVariable, "$.Nope")] := by
    decide +kernel
  have hp : (Expr.parse p.toString).toOption.all (fun e => decide e.FromRoot) = true ∧
      (s.checkPipeline {} p.toString (some p)).2.map (fun problem => problem.kind) =
        [.undefinedField] := by
    decide +kernel
  refine ⟨htext.2, ?_, hp.2, ?_⟩
  · refine rooted_pipeline_ignores_frames hroot {} (by simp) ?_
    intro e he
    rw [he] at htext
    exact of_decide_eq_true htext.1
  · refine rooted_pipeline_ignores_frames hroot {} (by simp [p]) ?_
    intro e he
    rw [he] at hp
    exact of_decide_eq_true hp.1

end ScopeStack
end TemplateLint
