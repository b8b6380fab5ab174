import TemplateLint.Proofs.Reporting

/-! Paths that something is piped into. Inference takes such a path for a method and asks for its
receiver only, while the check resolves it to the end, the name of the method included. -/
namespace TemplateLint

def Path.receiver (p : Path) : Path := p.take (p.segments.length - 1)

namespace Expr

def stagePaths : Expr → List Path
  | pipeline _ stages => stages.tail.filterMap asPath?
  | _ => []

/-- The paths that something is piped into, anywhere in the expression. -/
def pipedPaths (e : Expr) : List Path := e.parts.flatMap stagePaths

section

variable (s : Span) (p : Path) (v : Literal) (f m : String) (args stages : List Expr) (base : Expr)
  (segments : List Segment)

theorem flatMap_partsOfAll :
    (parts.partsOfAll args).flatMap stagePaths = args.flatMap pipedPaths := by
  rw [partsOfAll_eq_flatMap, List.flatMap_assoc]
  rfl

@[simp] theorem pipedPaths_path : (path s p).pipedPaths = [] := rfl

@[simp] theorem pipedPaths_literal : (literal s v).pipedPaths = [] := rfl

@[simp] theorem pipedPaths_call : (call s f args).pipedPaths = args.flatMap pipedPaths :=
  flatMap_partsOfAll args

@[simp] theorem pipedPaths_method : (method s p m args).pipedPaths = args.flatMap pipedPaths :=
  flatMap_partsOfAll args

@[simp] theorem pipedPaths_chain : (chain s base segments).pipedPaths = base.pipedPaths := rfl

@[simp] theorem pipedPaths_pipeline :
    (pipeline s stages).pipedPaths =
      stages.tail.filterMap asPath? ++ stages.flatMap pipedPaths := by
  rw [← flatMap_partsOfAll]
  rfl

end

variable {env : Env} {funcs : FuncTable} {e : Expr} {p : Path}

theorem exists_of_asPath? (h : e.asPath? = some p) : ∃ s, e = path s p := by
  cases e with
  | path s q =>
    cases h
    exact ⟨s, rfl⟩
  | literal | call | method | chain | pipeline => cases h

theorem exists_mem_paths_of_mem_pipedPaths (h : p ∈ e.pipedPaths) : ∃ s, (p, s) ∈ e.paths := by
  have hlist {es : List Expr} (ih : ∀ e ∈ es, p ∈ e.pipedPaths → ∃ s, (p, s) ∈ e.paths)
      (h : p ∈ es.flatMap pipedPaths) : ∃ s, (p, s) ∈ es.flatMap paths := by
    obtain ⟨e, he, hp⟩ := List.mem_flatMap.1 h
    obtain ⟨s, hs⟩ := ih e he hp
    exact ⟨s, List.mem_flatMap.2 ⟨e, he, hs⟩⟩
  induction e with
  | path | literal => cases h
  | call _ _ args ih =>
    rw [pipedPaths_call] at h
    rw [paths_call]
    exact hlist ih h
  | method _ _ _ args ih =>
    rw [pipedPaths_method] at h
    obtain ⟨s, hs⟩ := hlist ih h
    rw [paths_method]
    exact ⟨s, List.mem_append_right _ hs⟩
  | chain _ base _ ih => exact ih h
  | pipeline _ stages ih =>
    rw [pipedPaths_pipeline, List.mem_append] at h
    rw [paths_pipeline]
    rcases h with h | h
    · obtain ⟨stage, hstage, hp⟩ := List.mem_filterMap.1 h
      obtain ⟨s, rfl⟩ := exists_of_asPath? hp
      exact ⟨s, List.mem_flatMap.2 ⟨_, List.mem_of_mem_tail hstage, List.mem_cons_self⟩⟩
    · exact hlist ih h

/-- A path that an expression in which `piped` are piped into refers to is one of these, of which
the receiver resolves, or it resolves itself. -/
def Accepted (env : Env) (piped : List Path) (p : Path) : Prop :=
  env.Resolves p ∨ p ∈ piped ∧ env.Resolves p.receiver

theorem Accepted.mono {piped more : List Path} (h : Accepted env piped p) (hsub : piped ⊆ more) :
    Accepted env more p :=
  h.imp_right fun ⟨hp, hreceiver⟩ => ⟨hsub hp, hreceiver⟩

theorem accepted_of_typesIn {args : List Expr} {ts : List TypeNode}
    (ih : ∀ a ∈ args, ∀ t, a.typeIn env funcs = .ok t →
      ∀ q ∈ a.paths, Accepted env a.pipedPaths q.1)
    (h : typesIn env funcs args = .ok ts) :
    ∀ q ∈ args.flatMap paths, Accepted env (args.flatMap pipedPaths) q.1 := by
  intro q hq
  obtain ⟨a, ha, hqa⟩ := List.mem_flatMap.1 hq
  obtain ⟨t, ht⟩ := exists_of_typesIn_eq_ok h a ha
  refine (ih a ha t ht q hqa).mono ?_
  intro p hp
  exact List.mem_flatMap.2 ⟨a, ha, hp⟩

theorem accepted_of_method {s : Span} {r : Path} {m : String} {args : List Expr} {t : TypeNode}
    (ih : ∀ a ∈ args, ∀ t, a.typeIn env funcs = .ok t →
      ∀ q ∈ a.paths, Accepted env a.pipedPaths q.1)
    (h : typeIn env funcs (method s r m args) = .ok t) :
    ∀ q ∈ (method s r m args).paths, Accepted env (method s r m args).pipedPaths q.1 := by
  rw [typeIn, bind_eq_ok] at h
  obtain ⟨u, hreceiver, h⟩ := h
  obtain ⟨ts, hts, -⟩ := bind_eq_ok.1 h
  rw [paths_method, List.forall_mem_append, pipedPaths_method]
  refine ⟨?_, accepted_of_typesIn ih hts⟩
  intro q hq
  simp only [ownPath?] at hq
  split at hq
  · cases hq
  · obtain rfl := List.mem_singleton.1 hq
    exact .inl (Env.resolves_of_operand hreceiver)

theorem accepted_of_call {s : Span} {f : String} {args : List Expr} {t : TypeNode}
    (ih : ∀ a ∈ args, ∀ t, a.typeIn env funcs = .ok t →
      ∀ q ∈ a.paths, Accepted env a.pipedPaths q.1)
    (h : typeIn env funcs (call s f args) = .ok t ∨
      ∃ input, stageIn env funcs input (call s f args) = .ok t) :
    ∀ q ∈ (call s f args).paths, Accepted env (call s f args).pipedPaths q.1 := by
  rw [paths_call, pipedPaths_call]
  rcases h with h | ⟨input, h⟩
  · rw [typeIn, bind_eq_ok] at h
    obtain ⟨ts, hts, -⟩ := h
    exact accepted_of_typesIn ih hts
  · rw [stageIn, bind_eq_ok] at h
    obtain ⟨ts, hts, -⟩ := h
    exact accepted_of_typesIn ih hts

theorem accepted_of_stageIn_path {s : Span} {input t : TypeNode}
    (h : stageIn env funcs input (path s p) = .ok t) (piped : List Path) :
    Accepted env (p :: piped) p := by
  rw [stageIn, bind_eq_ok] at h
  obtain ⟨u, hreceiver, -⟩ := h
  exact .inr ⟨List.mem_cons_self, Env.resolves_of_operand hreceiver⟩

theorem pipedPaths_subset_of_mem {s : Span} {stages : List Expr} {stage : Expr}
    (h : stage ∈ stages) : stage.pipedPaths ⊆ (pipeline s stages).pipedPaths := by
  intro p hp
  rw [pipedPaths_pipeline]
  exact List.mem_append_right _ (List.mem_flatMap.2 ⟨stage, h, hp⟩)

theorem asPath?_subset_of_mem {s : Span} {stages : List Expr} {stage : Expr}
    (h : stage ∈ stages.tail) : stage.asPath?.toList ⊆ (pipeline s stages).pipedPaths := by
  intro p hp
  rw [pipedPaths_pipeline]
  exact List.mem_append_left _ (List.mem_filterMap.2 ⟨stage, h, Option.mem_toList.1 hp⟩)

theorem accepted_of_pipeline {s : Span} {stages : List Expr} {t : TypeNode}
    (hfirst : ∀ stage ∈ stages, ∀ t, stage.typeIn env funcs = .ok t →
      ∀ q ∈ stage.paths, Accepted env stage.pipedPaths q.1)
    (hlater : ∀ stage ∈ stages, ∀ input t, stageIn env funcs input stage = .ok t →
      ∀ q ∈ stage.paths, Accepted env (stage.asPath?.toList ++ stage.pipedPaths) q.1)
    (h : typeIn env funcs (pipeline s stages) = .ok t) :
    ∀ q ∈ (pipeline s stages).paths, Accepted env (pipeline s stages).pipedPaths q.1 := by
  intro q hq
  rw [paths_pipeline] at hq
  obtain ⟨stage, hstage, hqs⟩ := List.mem_flatMap.1 hq
  have hsub : stage.pipedPaths ⊆ (pipeline s stages).pipedPaths := pipedPaths_subset_of_mem hstage
  cases stages with
  | nil => cases hstage
  | cons first rest =>
    rw [typeIn, bind_eq_ok] at h
    obtain ⟨u, hu, h⟩ := h
    rcases List.mem_cons.1 hstage with rfl | hrest
    · exact (hfirst stage hstage u hu q hqs).mono hsub
    · obtain ⟨input, v, hv⟩ := exists_of_stagesIn_eq_ok h stage hrest
      exact (hlater stage hstage input v hv q hqs).mono
        (List.append_subset.2 ⟨asPath?_subset_of_mem hrest, hsub⟩)

/-- Inference resolves all paths to the end but those that something is piped into. -/
theorem accepted_of_typeIn :
    (∀ t, e.typeIn env funcs = .ok t → ∀ q ∈ e.paths, Accepted env e.pipedPaths q.1) ∧
      ∀ input t, stageIn env funcs input e = .ok t →
        ∀ q ∈ e.paths, Accepted env (e.asPath?.toList ++ e.pipedPaths) q.1 := by
  induction e with
  | path s p =>
    constructor
    · intro t h q hq
      obtain rfl := List.mem_singleton.1 hq
      exact .inl (Env.resolves_of_operand h)
    · intro input t h q hq
      obtain rfl := List.mem_singleton.1 hq
      exact accepted_of_stageIn_path h []
  | literal =>
    constructor
    · intro t _ q hq
      cases hq
    · intro input t h
      cases h
  | call s f args ih =>
    constructor
    · intro t h
      exact accepted_of_call (fun a ha => (ih a ha).1) (.inl h)
    · intro input t h
      exact accepted_of_call (fun a ha => (ih a ha).1) (.inr ⟨input, h⟩)
  | method s r m args ih =>
    constructor
    · intro t h
      exact accepted_of_method (fun a ha => (ih a ha).1) h
    · intro input t h
      rw [stageIn_method] at h
      exact accepted_of_method (fun a ha => (ih a ha).1) h
  | chain s base segments ih =>
    constructor
    · intro t h
      rw [typeIn, bind_eq_ok] at h
      obtain ⟨u, hu, -⟩ := h
      exact ih.1 u hu
    · intro input t h
      cases h
  | pipeline s stages ih =>
    constructor
    · intro t h
      exact accepted_of_pipeline (fun stage hstage => (ih stage hstage).1)
        (fun stage hstage => (ih stage hstage).2) h
    · intro input t h
      cases h

end Expr

namespace ScopeStack

/-- An expression that has a type gets it, with no error told, exactly if the paths that something
is piped into resolve. Every error is about such a path, and blames the name of the method. -/
theorem alarm_iff_piped_method_unresolved (s : ScopeStack) (o : Options) {text : String} {e : Expr}
    {t : InferredType} (hpath : Path.ofString? text = none) (hparse : Expr.parse text = .ok e)
    (hinfer : e.infer s.env o.funcs = .ok t) :
    let checked := s.checkPipeline o text (Path.ofString? text)
    (checked.1 = some (.own t.toNode) ∧ Quiet checked.2 ↔
      ∀ p ∈ e.pipedPaths, ∃ ref, s.resolve p = .ok ref) ∧
    ∀ problem ∈ checked.2, problem.severity = .error →
      ∃ p ∈ e.pipedPaths, ∃ err, s.resolve p = .error err ∧
        err.depth? = some (p.segments.length - 1) ∧ problem = s.pathProblem p err := by
  intro checked
  have hchecked : checked = s.checkExpr o text := by
    simp only [checked, hpath]
    rfl
  obtain ⟨u, hu, -⟩ := Expr.infer_eq_ok.1 hinfer
  have haccepted := Expr.accepted_of_typeIn.1 u hu
  rw [hchecked]
  by_cases hpaths : ∀ q ∈ e.paths, s.env.Resolves q.1
  · rw [checkExpr_of_infer_eq_ok hparse hpaths hinfer]
    constructor
    · refine ⟨?_, fun _ => ⟨rfl, quiet_functionProblems o e⟩⟩
      intro _ p hp
      obtain ⟨span, hspan⟩ := Expr.exists_mem_paths_of_mem_pipedPaths hp
      exact hpaths _ hspan
    · intro problem hproblem herror
      exact absurd herror (quiet_functionProblems o e problem hproblem)
  · rw [checkExpr_of_not_resolves hparse hpaths]
    constructor
    · constructor
      · rintro ⟨htyped, -⟩
        cases htyped
      · intro hpiped
        refine absurd (fun q hq => ?_) hpaths
        rcases haccepted q hq with h | ⟨hq, -⟩
        · exact h
        · exact hpiped q.1 hq
    · intro problem hproblem herror
      rcases List.mem_append.1 hproblem with h | h
      · obtain ⟨q, hq, err, herr, rfl⟩ := mem_pathProblems.1 h
        rcases haccepted q hq with ⟨ref, hok⟩ | ⟨hpiped, hreceiver⟩
        · cases hok.symm.trans herr
        · exact ⟨q.1, hpiped, err, herr, Env.depth?_of_resolves_take hreceiver herr, rfl⟩
      · exact absurd herror (quiet_functionProblems o e problem h)

theorem alarm_iff_piped_method_unresolved_of_field :
    let s := start (.root [.structure_ "User" "User" [.scalar "Name" "string"]])
    let text := "len . | .User.Name"
    let checked := s.checkPipeline {} text (Path.ofString? text)
    ∃ e t, Expr.parse text = .ok e ∧ e.infer s.env FuncTable.builtins = .ok t ∧
      e.pipedPaths = [⟨.dot, [.field "User", .field "Name"]⟩] ∧
      checked.1 = some (.own t.toNode) ∧ Quiet checked.2 := by
  intro s text checked
  have hread : (Expr.parse text).toOption.map Expr.pipedPaths =
      some [⟨.dot, [.field "User", .field "Name"]⟩] := by
    decide +kernel
  have htype : (Expr.inferText s.env FuncTable.builtins text).toOption.map InferredType.label =
      some "unknown" := by
    decide +kernel
  obtain ⟨e, hparse, hpiped⟩ := map_toOption_eq_some.1 hread
  obtain ⟨t, hinfer, -⟩ := map_toOption_eq_some.1 htype
  rw [Expr.inferText_of_parse hparse] at hinfer
  have halarm := (alarm_iff_piped_method_unresolved s {} (by decide +kernel) hparse hinfer).1.2
  refine ⟨e, t, hparse, hinfer, hpiped, halarm ?_⟩
  rw [hpiped]
  intro p hp
  obtain rfl := List.mem_singleton.1 hp
  exact ⟨.own (.scalar "Name" "string"), rfl⟩

/-- A method that is no field of its receiver is reported, though the pipeline has a type and its
path leads through its first name. -/
theorem piped_method_raises_alarm :
    let s := start (.root [.structure_ "User" "User" [.scalar "Name" "string"]])
    let text := ".User.Name | .User.Greet"
    let checked := s.checkPipeline {} text (Path.ofString? text)
    ∃ e t, Path.ofString? text = none ∧ Expr.parse text = .ok e ∧
      (∀ q ∈ e.paths, ∀ err, s.resolve q.1 = .error err → err.depth? = some 1) ∧
      e.infer s.env FuncTable.builtins = .ok t ∧ checked.1 = none ∧ ¬Quiet checked.2 := by
  intro s text checked
  have hread : (Expr.parse text).toOption.map (fun e => e.paths.map Prod.fst) =
      some [⟨.dot, [.field "User", .field "Name"]⟩, ⟨.dot, [.field "User", .field "Greet"]⟩] := by
    decide +kernel
  have htype : (Expr.inferText s.env FuncTable.builtins text).toOption.map InferredType.label =
      some "unknown" := by
    decide +kernel
  have huntyped : checked.1.isNone = true := by decide +kernel
  have hloud : ¬Quiet checked.2 := by decide +kernel
  obtain ⟨e, hparse, hpaths⟩ := map_toOption_eq_some.1 hread
  obtain ⟨t, hinfer, -⟩ := map_toOption_eq_some.1 htype
  rw [Expr.inferText_of_parse hparse] at hinfer
  refine ⟨e, t, by decide +kernel, hparse, ?_, hinfer, Option.isNone_iff_eq_none.1 huntyped, hloud⟩
  intro q hq err herr
  have hmem := List.mem_map_of_mem (f := Prod.fst) hq
  rw [hpaths] at hmem
  rcases List.mem_cons.1 hmem with hname | hmem
  · rw [hname] at herr
    cases herr
  · rw [List.mem_singleton.1 hmem] at herr
    cases herr
    rfl

end ScopeStack
end TemplateLint
