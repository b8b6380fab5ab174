import TemplateLint.Expr.Parser
import TemplateLint.Proofs.Resolution

/-! What a token can do to the reader of expressions, and what the reader can build: every stage of
a pipeline but the first can be called. -/
namespace TemplateLint

def TokenKind.segment? : TokenKind → Option Segment
  | .field name => some (.field name)
  | .index key => some (.index key)
  | _ => none

namespace Expr

section

variable {level next : Level} {offset : Nat} {t : Token}

theorem exists_of_endStage (h : level.endStage offset = .ok next) :
    ∃ stage, level.command offset = .ok stage ∧
      (level.stages ≠ [] → Level.isExecutable stage = true) ∧
      next = { stages := stage :: level.stages } := by
  unfold Level.endStage at h
  obtain ⟨stage, hstage, h⟩ := bind_eq_ok.1 h
  refine ⟨stage, hstage, ?_⟩
  split at h
  · cases h
  · next hexecutable =>
    cases h
    simpa using hexecutable

theorem finish_of_endStage {stage : Expr}
    (h : level.endStage offset = .ok { stages := stage :: level.stages }) :
    ∃ e, level.finish offset = .ok e ∧ (level.stages = [] ∧ e = stage ∨
      level.stages ≠ [] ∧ ∃ s, e = .pipeline s (level.stages.reverse ++ [stage])) := by
  unfold Level.finish
  rw [h]
  simp only [bind, Except.bind, List.reverse_cons]
  cases hstages : level.stages.reverse with
  | nil => exact ⟨stage, rfl, .inl ⟨List.reverse_eq_nil_iff.1 hstages, rfl⟩⟩
  | cons first rest =>
    have hne : level.stages ≠ [] := by
      intro hnil
      simp [hnil] at hstages
    cases rest with
    | nil => exact ⟨_, rfl, .inr ⟨hne, _, rfl⟩⟩
    | cons => exact ⟨_, rfl, .inr ⟨hne, _, rfl⟩⟩

theorem exists_of_finish {e : Expr} (h : level.finish offset = .ok e) :
    ∃ stage, level.command offset = .ok stage ∧
      level.endStage offset = .ok { stages := stage :: level.stages } ∧
      (level.stages = [] ∧ e = stage ∨
        level.stages ≠ [] ∧ ∃ s, e = .pipeline s (level.stages.reverse ++ [stage])) := by
  obtain ⟨next, hnext, -⟩ := bind_eq_ok.1 h
  obtain ⟨stage, hstage, -, rfl⟩ := exists_of_endStage hnext
  obtain ⟨e', he', hcases⟩ := finish_of_endStage hnext
  cases h.symm.trans he'
  exact ⟨stage, hstage, hnext, hcases⟩

theorem exists_of_operand (h : level.operand t = .ok next) :
    (∃ o, Operand.ofToken t = .ok o ∧ next = level.push o) ∨
      ∃ segment last before longer, level.operands = last :: before ∧
        last.extend? segment t.span.stop = .ok (some longer) ∧
        (t.kind.segment? = some segment ∧ last.span.stop = t.span.start) ∧
        next = { level with operands := longer :: before } := by
  have hpush {next : Level} (h : (do return level.push (← Operand.ofToken t)) = .ok next) :
      ∃ o, Operand.ofToken t = .ok o ∧ next = level.push o := by
    obtain ⟨o, ho, h⟩ := bind_eq_ok.1 h
    cases h
    exact ⟨o, ho, rfl⟩
  unfold Level.operand at h
  dsimp only at h
  split at h
  · next segment last before hsegment hoperands =>
    split at h
    · next hfollows =>
      obtain ⟨longer?, hlonger, h⟩ := bind_eq_ok.1 h
      split at h
      · next longer =>
        cases h
        exact .inr ⟨segment, last, before, longer, hoperands, hlonger, ⟨hsegment, hfollows⟩, rfl⟩
      · exact .inl (hpush h)
    · exact .inl (hpush h)
  · exact .inl (hpush h)

end

namespace Reading

variable {r next : Reading}

inductive Moves (r : Reading) (t : Token) : Reading → Prop where
  | opened : Moves r t ⟨{}, (t.span, r.level) :: r.outer⟩
  | piped {level : Level} (ended : r.level.endStage t.span.start = .ok level) :
      Moves r t ⟨level, r.outer⟩
  | closed {inner : Expr} {start : Span} {level : Level} {outer : List (Span × Level)}
      (finished : r.level.finish t.span.start = .ok inner)
      (around : r.outer = (start, level) :: outer) :
      Moves r t ⟨level.push (.paren ⟨start.start, t.span.stop⟩ inner []), outer⟩
  | took {level : Level} (taken : r.level.operand t = .ok level) : Moves r t ⟨level, r.outer⟩

theorem moves_of_step {t : Token} (h : r.step t = .ok next) : r.Moves t next := by
  unfold step at h
  split at h
  · cases h
    exact .opened
  · obtain ⟨level, hlevel, h⟩ := bind_eq_ok.1 h
    cases h
    exact .piped hlevel
  · obtain ⟨inner, hinner, h⟩ := bind_eq_ok.1 h
    split at h
    · next heq =>
      cases h
      exact .closed hinner heq
    · cases h
  · obtain ⟨level, hlevel, h⟩ := bind_eq_ok.1 h
    cases h
    exact .took hlevel

theorem invariant_of_run {P : Reading → Prop}
    (keeps : ∀ {r next : Reading} {t : Token}, P r → r.Moves t next → P next) {tokens : List Token}
    (hr : P r) (h : tokens.foldlM step r = .ok next) : P next := by
  induction tokens generalizing r with
  | nil =>
    cases h
    exact hr
  | cons t tokens ih =>
    rw [List.foldlM_cons, bind_eq_ok] at h
    obtain ⟨mid, hstep, hrest⟩ := h
    exact ih (keeps hr (moves_of_step hstep)) hrest

end Reading

inductive Staged : Expr → Prop where
  | path {s : Span} {p : Path} : Staged (.path s p)
  | literal {s : Span} {v : Literal} : Staged (.literal s v)
  | call {s : Span} {f : String} {args : List Expr} (each : ∀ e ∈ args, Staged e) :
      Staged (.call s f args)
  | method {s : Span} {r : Path} {m : String} {args : List Expr} (each : ∀ e ∈ args, Staged e) :
      Staged (.method s r m args)
  | chain {s : Span} {base : Expr} {segments : List Segment} (staged : Staged base) :
      Staged (.chain s base segments)
  | pipeline {s : Span} {stages : List Expr} (each : ∀ e ∈ stages, Staged e)
      (later : ∀ e ∈ stages.tail, Level.isExecutable e = true) : Staged (.pipeline s stages)

theorem Staged.withSpan {e : Expr} (h : e.Staged) (s : Span) : (e.withSpan s).Staged := by
  cases h with
  | path => exact .path
  | literal => exact .literal
  | call each => exact .call each
  | method each => exact .method each
  | chain staged => exact .chain staged
  | pipeline each later => exact .pipeline each later

def Operand.Staged : Operand → Prop
  | .paren _ inner _ => inner.Staged
  | .path .. | .function .. | .literal .. => True

namespace Operand

variable {o : Operand}

theorem Staged.expr (h : o.Staged) : o.expr.Staged := by
  cases o with
  | path => exact .path
  | function => exact .call (by simp)
  | literal => exact .literal
  | paren s inner segments =>
    cases segments with
    | nil => exact Expr.Staged.withSpan h s
    | cons segment segments => exact .chain h

theorem Staged.extend? (h : o.Staged) {segment : Segment} {stop : Nat} {longer : Operand}
    (hlonger : o.extend? segment stop = .ok (some longer)) : longer.Staged := by
  cases o with
  | path =>
    cases hlonger
    trivial
  | paren =>
    cases hlonger
    exact h
  | function => cases hlonger
  | literal => cases hlonger

theorem staged_of_ofToken {t : Token} (h : ofToken t = .ok o) : o.Staged := by
  unfold ofToken at h
  split at h
  all_goals cases h
  all_goals trivial

end Operand

theorem staged_of_apply {first : Operand} {args : List Expr} {span : Span} {e : Expr}
    (hargs : ∀ a ∈ args, a.Staged) (h : apply first args span = .ok e) : e.Staged := by
  unfold apply at h
  split at h
  · cases h
    exact .call hargs
  · split at h
    · cases h
      exact .method hargs
    · cases h
    · cases h
  · cases h

/-- Stages are kept latest first, so that the last of the list is the first of the pipeline. -/
structure Level.Staged (level : Level) : Prop where
  stages : ∀ e ∈ level.stages, e.Staged
  later : ∀ e ∈ level.stages.dropLast, isExecutable e = true
  operands : ∀ o ∈ level.operands, o.Staged

namespace Level

variable {level next : Level} {offset : Nat} {e : Expr}

theorem staged_empty : Level.Staged {} := ⟨by simp, by simp, by simp⟩

theorem Staged.push (h : level.Staged) {o : Operand} (ho : o.Staged) : (level.push o).Staged :=
  ⟨h.stages, h.later, List.forall_mem_cons.2 ⟨ho, h.operands⟩⟩

theorem Staged.command (h : level.Staged) (he : level.command offset = .ok e) : e.Staged := by
  have hoperands : ∀ o ∈ level.operands.reverse, o.Staged := by
    intro o ho
    exact h.operands o (List.mem_reverse.1 ho)
  unfold Level.command at he
  split at he
  · cases he
  · next first heq =>
    cases he
    exact (hoperands first (by simp [heq])).expr
  · next first second rest heq =>
    refine staged_of_apply ?_ he
    intro a ha
    obtain ⟨o, ho, rfl⟩ := List.mem_map.1 ha
    exact (hoperands o (heq ▸ List.mem_cons_of_mem _ ho)).expr

theorem Staged.endStage (h : level.Staged) (hnext : level.endStage offset = .ok next) :
    next.Staged := by
  obtain ⟨stage, hstage, hexecutable, rfl⟩ := exists_of_endStage hnext
  refine ⟨List.forall_mem_cons.2 ⟨h.command hstage, h.stages⟩, ?_, by simp⟩
  cases hstages : level.stages with
  | nil => simp
  | cons latest earlier =>
    rw [List.dropLast_cons_of_ne_nil (List.cons_ne_nil _ _), List.forall_mem_cons, ← hstages]
    exact ⟨hexecutable (by simp [hstages]), h.later⟩

theorem Staged.finish (h : level.Staged) (he : level.finish offset = .ok e) : e.Staged := by
  obtain ⟨stage, hstage, hend, hcases⟩ := exists_of_finish he
  rcases hcases with ⟨-, rfl⟩ | ⟨-, s, rfl⟩
  · exact h.command hstage
  · have hstaged := h.endStage hend
    rw [← List.reverse_cons]
    constructor
    · intro x hx
      exact hstaged.stages x (List.mem_reverse.1 hx)
    · intro x hx
      apply hstaged.later
      rwa [← List.mem_reverse, ← List.tail_reverse]

theorem Staged.operand (h : level.Staged) {t : Token} (hnext : level.operand t = .ok next) :
    next.Staged := by
  rcases exists_of_operand hnext with
    ⟨o, ho, rfl⟩ | ⟨segment, last, before, longer, heq, hlonger, -, rfl⟩
  · exact h.push (Operand.staged_of_ofToken ho)
  · have hoperands := h.operands
    rw [heq, List.forall_mem_cons] at hoperands
    exact ⟨h.stages, h.later, List.forall_mem_cons.2 ⟨hoperands.1.extend? hlonger, hoperands.2⟩⟩

end Level

structure Reading.Staged (r : Reading) : Prop where
  level : r.level.Staged
  outer : ∀ around ∈ r.outer, around.2.Staged

namespace Reading

variable {r next : Reading}

theorem Staged.step {t : Token} (h : r.Staged) (hmoves : r.Moves t next) : next.Staged := by
  cases hmoves with
  | opened => exact ⟨Level.staged_empty, List.forall_mem_cons.2 ⟨h.level, h.outer⟩⟩
  | piped ended => exact ⟨h.level.endStage ended, h.outer⟩
  | closed finished around =>
    have houter := h.outer
    rw [around, List.forall_mem_cons] at houter
    exact ⟨houter.1.push (h.level.finish finished), houter.2⟩
  | took taken => exact ⟨h.level.operand taken, h.outer⟩

theorem Staged.finish (h : r.Staged) {offset : Nat} {e : Expr} (he : r.finish offset = .ok e) :
    e.Staged := by
  unfold Reading.finish at he
  obtain ⟨expr, hexpr, he⟩ := bind_eq_ok.1 he
  split at he
  · cases he
    exact h.level.finish hexpr
  · cases he

end Reading

theorem staged_of_parse {text : String} {e : Expr} (h : parse text = .ok e) : e.Staged := by
  unfold parse ofChars at h
  obtain ⟨tokens, -, h⟩ := bind_eq_ok.1 h
  unfold ofTokens at h
  split at h
  · cases h
  · obtain ⟨r, hr, h⟩ := bind_eq_ok.1 h
    have hstart : Reading.Staged {} := ⟨Level.staged_empty, by simp⟩
    exact (Reading.invariant_of_run Reading.Staged.step hstart hr).finish h

end Expr
end TemplateLint
