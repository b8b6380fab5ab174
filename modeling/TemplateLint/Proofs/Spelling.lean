import TemplateLint.Proofs.Piping
import TemplateLint.Proofs.TokenSlices

/-! Which tokens an expression is spelled with. The reader keeps stages, operands and open
parentheses, and each of them has tokens of its own: the tokens read so far are theirs, one after
the other. So every part of an expression is what its own tokens are read as by themselves. -/
namespace TemplateLint.Expr

def children : Expr → List Expr
  | path .. | literal .. => []
  | call _ _ args | method _ _ _ args => args
  | chain _ base _ => [base]
  | pipeline _ stages => stages

def Runs (tokens : List Token) (level : Level) : Prop :=
  tokens.foldlM Reading.step {} = .ok ⟨level, []⟩

def Reads (tokens : List Token) (e : Expr) : Prop :=
  ∃ level, Runs tokens level ∧ ∀ offset, level.finish offset = .ok e

inductive Row {α : Type} (R : List Token → α → Prop) : List Token → List α → Prop where
  | nil : Row R [] []
  | cons {own tokens : List Token} {x : α} {xs : List α} (first : R own x)
      (rest : Row R tokens xs) : Row R (own ++ tokens) (x :: xs)

/-- Expressions in a row, with other tokens before, between and behind their own. -/
inductive Holds : List Token → List Expr → Prop where
  | nil {tokens : List Token} : Holds tokens []
  | cons {front own tokens : List Token} {e : Expr} {es : List Expr} (first : Reads own e)
      (rest : Holds tokens es) : Holds (front ++ (own ++ tokens)) (e :: es)

inductive Operand.Spelled : List Token → Operand → Prop where
  | token {t : Token} {o : Operand} (taken : ofToken t = .ok o) : Spelled [t] o
  | paren {first last : Token} {tokens : List Token} {inner : Expr}
      (opens : first.kind = .leftParen) (closes : last.kind = .rightParen)
      (reads : Reads tokens inner) :
      Spelled (first :: (tokens ++ [last])) (.paren ⟨first.span.start, last.span.stop⟩ inner [])
  | longer {tokens : List Token} {t : Token} {o longer : Operand} {segment : Segment}
      (spelled : Spelled tokens o) (isSegment : t.kind.segment? = some segment)
      (adjacent : o.span.stop = t.span.start)
      (extended : o.extend? segment t.span.stop = .ok (some longer)) :
      Spelled (tokens ++ [t]) longer

inductive Piped : List Token → Expr → Prop where
  | mk {own : List Token} {pipe : Token} {stage : Expr} (reads : Reads own stage)
      (covers : stage.span.Covers own) : Piped (own ++ [pipe]) stage

/-- The tokens of a pipeline: those of its stages, then those of the command that is being read,
which by themselves are read as that command. -/
inductive Level.Spelled : List Token → Level → Prop where
  | mk {front command : List Token} {level : Level} (stages : Row Piped front level.stages.reverse)
      (operands : Row Operand.Spelled command level.operands.reverse)
      (alone : Runs command ⟨[], level.operands⟩) (runs : Runs (front ++ command) level) :
      Spelled (front ++ command) level

/-- The tokens of all that a reader keeps: every open parenthesis stands between the pipeline put
aside for it and the one inside. -/
inductive Reading.Spelled : List Token → Reading → Prop where
  | outside {tokens : List Token} {level : Level} (spelled : level.Spelled tokens) :
      Spelled tokens ⟨level, []⟩
  | inside {front tokens : List Token} {t : Token} {level around : Level}
      {outer : List (Span × Level)} (before : Spelled front ⟨around, outer⟩)
      (opens : t.kind = .leftParen) (spelled : level.Spelled tokens) :
      Spelled (front ++ t :: tokens) ⟨level, (t.span, around) :: outer⟩

namespace Row

variable {α : Type} {R : List Token → α → Prop} {tokens own : List Token} {x : α} {xs : List α}

theorem snoc (h : Row R tokens xs) (hx : R own x) : Row R (tokens ++ own) (xs ++ [x]) := by
  induction h with
  | nil => simpa using cons hx nil
  | cons hfirst _ ih =>
    rw [List.append_assoc]
    exact cons hfirst ih

theorem exists_of_snoc (h : Row R tokens (xs ++ [x])) :
    ∃ front own, tokens = front ++ own ∧ Row R front xs ∧ R own x := by
  induction xs generalizing tokens with
  | nil =>
    cases h with
    | cons hfirst hrest =>
      cases hrest
      exact ⟨[], _, by simp, nil, hfirst⟩
  | cons y xs ih =>
    cases h with
    | cons hfirst hrest =>
      obtain ⟨front, own, rfl, hfront, hown⟩ := ih hrest
      exact ⟨_, own, (List.append_assoc ..).symm, cons hfirst hfront, hown⟩

end Row

theorem shift_zero (e : Expr) : e.shift 0 = e := by
  induction e with
  | path | literal => rfl
  | call s f args ih | method s r m args ih =>
    rw [shift, shiftAll_eq_map, List.map_congr_left ih, List.map_id']
    rfl
  | chain s base segments ih =>
    rw [shift, ih]
    rfl
  | pipeline s stages ih =>
    rw [shift, shiftAll_eq_map, List.map_congr_left ih, List.map_id']
    rfl

section

variable {level next : Level} {offset : Nat} {t : Token} {tokens own : List Token} {e : Expr}

theorem Level.finish_of_finish (h : level.finish offset = .ok e) (offset' : Nat) :
    level.finish offset' = .ok e := by
  unfold finish at h ⊢
  obtain ⟨last, hlast, h⟩ := bind_eq_ok.1 h
  refine bind_eq_ok.2 ⟨last, endStage_of_endStage hlast offset', ?_⟩
  split at h
  · exact h
  · exact h
  · cases h

theorem Level.operand_withStages (h : level.operand t = .ok next) (stages : List Expr) :
    operand ⟨stages, level.operands⟩ t = .ok ⟨stages, next.operands⟩ := by
  by_cases hpush : t.kind.segment? = none ∨
      ∀ o ∈ level.operands.head?, o.span.stop ≠ t.span.start
  · rw [operand_eq_push hpush] at h
    obtain ⟨o, ho, h⟩ := bind_eq_ok.1 h
    cases h
    rw [operand_eq_push (by exact hpush), ho]
    rfl
  · rw [not_or] at hpush
    obtain ⟨segment, hsegment⟩ := Option.ne_none_iff_exists'.1 hpush.1
    have hlast := hpush.2
    cases hoperands : level.operands with
    | nil => simp [hoperands] at hlast
    | cons last before =>
      have hadjacent : last.span.stop = t.span.start := by simpa [hoperands] using hlast
      rw [operand_eq_extend hsegment hoperands hadjacent] at h
      obtain ⟨longer?, hlonger, h⟩ := bind_eq_ok.1 h
      refine (operand_eq_extend hsegment rfl hadjacent).trans (bind_eq_ok.2 ⟨longer?, hlonger, ?_⟩)
      cases longer? with
      | none =>
        obtain ⟨o, ho, h⟩ := bind_eq_ok.1 h
        cases h
        exact bind_eq_ok.2 ⟨o, ho, by rewrite [push, push, hoperands]; rfl⟩
      | some longer =>
        cases h
        rfl

theorem Reading.step_of_operand {outer : List (Span × Level)} (h : level.operand t = .ok next) :
    step ⟨level, outer⟩ t = .ok ⟨next, outer⟩ := by
  have hstep : (do return (⟨← level.operand t, outer⟩ : Reading)) = .ok ⟨next, outer⟩ := by
    rw [h]
    rfl
  obtain ⟨kind, span⟩ := t
  cases kind with
  | leftParen | rightParen | pipe => cases h
  | _ => exact hstep

theorem Runs.operand (h : Runs tokens level) (hnext : level.operand t = .ok next) :
    Runs (tokens ++ [t]) next := by
  rw [Runs, run_append h, run_cons (Reading.step_of_operand hnext)]
  rfl

theorem Runs.pipe (h : Runs tokens level) (hnext : level.endStage offset = .ok next)
    (ht : t.kind = .pipe) : Runs (tokens ++ [t]) next := by
  have hstep : Reading.step ⟨level, []⟩ t = .ok ⟨next, []⟩ := by
    unfold Reading.step
    rw [ht]
    exact bind_eq_ok.2 ⟨next, Level.endStage_of_endStage hnext _, rfl⟩
  rw [Runs, run_append h, run_cons hstep]
  rfl

theorem Runs.paren {first last : Token} (h : Runs tokens level) (hown : Reads own e)
    (hfirst : first.kind = .leftParen) (hlast : last.kind = .rightParen) :
    Runs (tokens ++ first :: (own ++ [last]))
      (level.push (.paren ⟨first.span.start, last.span.stop⟩ e [])) := by
  obtain ⟨inner, hrun, hfinish⟩ := hown
  obtain ⟨kind, span⟩ := first
  obtain ⟨kind', span'⟩ := last
  cases hfirst
  cases hlast
  have hparens := run_parens hrun rfl (hfinish span'.start) 0 level [] span span' rfl
  rw [map_shift_zero, shift_zero] at hparens
  rw [Runs, run_append h, hparens]

theorem Runs.reads (h : Runs tokens level) (he : level.finish offset = .ok e) : Reads tokens e :=
  ⟨level, h, Level.finish_of_finish he⟩

theorem Runs.reads_command (h : Runs tokens ⟨[], level.operands⟩)
    (he : level.command offset = .ok e) : Reads tokens e := by
  have hend : Level.endStage ⟨[], level.operands⟩ offset = .ok ⟨[e], []⟩ :=
    bind_eq_ok.2 ⟨e, he, rfl⟩
  exact h.reads (bind_eq_ok.2 ⟨⟨[e], []⟩, hend, rfl⟩)

end

section

variable {tokens own : List Token} {o : Operand} {level : Level} {offset : Nat} {e : Expr}

theorem span_withSpan (s : Span) (e : Expr) : (e.withSpan s).span = s := by
  cases e <;> rfl

theorem children_withSpan (s : Span) (e : Expr) : (e.withSpan s).children = e.children := by
  cases e <;> rfl

theorem Operand.span_expr (o : Operand) : o.expr.span = o.span := by
  cases o with
  | paren s inner segments =>
    cases segments with
    | nil => exact span_withSpan s inner
    | cons => rfl
  | path | function | literal => rfl

theorem Operand.span_ofToken {t : Token} (h : ofToken t = .ok o) : o.span = t.span := by
  obtain ⟨kind, span⟩ := t
  cases kind <;> cases h <;> rfl

theorem Operand.span_extend? {segment : Segment} {stop : Nat} {longer : Operand}
    (h : o.extend? segment stop = .ok (some longer)) : longer.span = ⟨o.span.start, stop⟩ := by
  cases o <;> cases h <;> rfl

namespace Operand.Spelled

theorem covers (h : o.Spelled tokens) : o.span.Covers tokens := by
  induction h with
  | token taken =>
    rw [span_ofToken taken]
    exact Token.covers_singleton _
  | @paren first last tokens =>
    refine ⟨⟨first, rfl, rfl⟩, last, ?_, rfl⟩
    rw [← List.cons_append]
    exact List.getLast?_concat
  | @longer tokens t o longer segment _ _ _ extended ih =>
    rw [span_extend? extended]
    exact ih.append (Token.covers_singleton t) []

theorem runs (h : o.Spelled tokens) : Runs tokens ⟨[], [o]⟩ := by
  induction h with
  | @token t o taken =>
    have hempty : Runs [] {} := rfl
    refine hempty.operand ?_
    rw [Level.operand_eq_push (.inr (by simp)), taken]
    rfl
  | paren opens closes reads =>
    have hempty : Runs [] {} := rfl
    exact hempty.paren reads opens closes
  | longer _ isSegment adjacent extended ih =>
    refine ih.operand ?_
    rw [Level.operand_eq_extend isSegment rfl adjacent, extended]
    rfl

theorem reads (h : o.Spelled tokens) : Reads tokens o.expr := by
  have hfinish : Level.finish ⟨[], [o]⟩ 0 = .ok o.expr := rfl
  exact h.runs.reads hfinish

theorem exists_inner {s : Span} {inner : Expr} {segments : List Segment}
    (h : (Operand.paren s inner segments).Spelled tokens) :
    ∃ own, own <:+: tokens ∧ own.length < tokens.length ∧ Reads own inner := by
  generalize ho : Operand.paren s inner segments = o at h
  induction h generalizing s segments with
  | @token t _ taken =>
    cases ho
    obtain ⟨kind, span⟩ := t
    cases kind <;> cases taken
  | @paren first last tokens _ _ _ hreads =>
    cases ho
    refine ⟨tokens, ⟨[first], [last], by simp⟩, ?_, hreads⟩
    rw [List.length_cons, List.length_append]
    omega
  | @longer tokens t o _ _ _ _ _ extended ih =>
    cases o with
    | paren s inner segments =>
      cases extended
      cases ho
      obtain ⟨own, hown, hlength, hreads⟩ := ih rfl
      refine ⟨own, hown.trans (List.infix_append' [] tokens [t]), ?_, hreads⟩
      rw [List.length_append]
      omega
    | path | function | literal =>
      cases extended <;> cases ho

end Operand.Spelled

theorem Row.covers {first : Operand} {rest : List Operand}
    (h : Row Operand.Spelled tokens (first :: rest)) :
    Span.Covers ⟨first.span.start, ((first :: rest).getLast (by simp)).span.stop⟩ tokens := by
  induction rest generalizing first tokens with
  | nil =>
    cases h with
    | cons hfirst hrest =>
      cases hrest
      simpa using hfirst.covers
  | cons second rest ih =>
    cases h with
    | cons hfirst hrest =>
      have hcovers := hfirst.covers.append (ih hrest) []
      rwa [List.getLast_cons (by simp)]

theorem span_and_children_of_apply {first : Operand} {args : List Expr} {s : Span}
    (h : apply first args s = .ok e) : e.span = s ∧ e.children = args := by
  unfold apply at h
  split at h
  · cases h
    exact ⟨rfl, rfl⟩
  · split at h <;> cases h
    exact ⟨rfl, rfl⟩
  · cases h

theorem covers_command (h : level.command offset = .ok e)
    (hrow : Row Operand.Spelled tokens level.operands.reverse) : e.span.Covers tokens := by
  unfold Level.command at h
  split at h
  · cases h
  · next first hoperands =>
    cases h
    rw [hoperands] at hrow
    rw [Operand.span_expr]
    exact hrow.covers
  · next first second rest hoperands =>
    rw [hoperands] at hrow
    rw [(span_and_children_of_apply h).1]
    have hcovers := hrow.covers
    rwa [List.getLast_cons (by simp)] at hcovers

end

theorem Level.span_of_finish {level : Level} {offset : Nat} {e stage first : Expr}
    {rest : List Expr} (h : level.finish offset = .ok e) (hstage : level.command offset = .ok stage)
    (hstages : level.stages.reverse = first :: rest) :
    e.span = ⟨first.span.start, stage.span.stop⟩ := by
  unfold finish at h
  obtain ⟨last, hlast, h⟩ := bind_eq_ok.1 h
  obtain ⟨stage', hstage', -, rfl⟩ := exists_of_endStage hlast
  cases hstage.symm.trans hstage'
  simp only [List.reverse_cons, hstages, List.cons_append] at h
  cases rest with
  | nil =>
    cases h
    rfl
  | cons second rest =>
    cases h
    have hlast : (second :: (rest ++ [stage])).getLast (by simp) = stage := by
      rw [List.getLast_cons (by simp), List.getLast_concat]
    exact congrArg (fun last : Expr => Span.mk first.span.start last.span.stop) hlast

namespace Level.Spelled

variable {tokens own : List Token} {level next : Level} {t : Token} {offset : Nat} {e : Expr}

theorem runs (h : level.Spelled tokens) : Runs tokens level := by
  cases h with
  | mk _ _ _ runs => exact runs

theorem empty : Level.Spelled [] {} := by
  have h : Level.Spelled ([] ++ []) {} := mk .nil .nil rfl rfl
  exact h

theorem operand (h : level.Spelled tokens) (hnext : level.operand t = .ok next) :
    next.Spelled (tokens ++ [t]) := by
  cases h with
  | @mk front command _ stages operands alone runs =>
    have halone := alone.operand (operand_withStages hnext [])
    have hruns := runs.operand hnext
    rw [List.append_assoc] at hruns ⊢
    rcases exists_of_operand hnext with
      ⟨o, ho, rfl⟩ | ⟨segment, last, before, longer, heq, hlonger, ⟨hsegment, hadjacent⟩, rfl⟩
    · refine mk stages ?_ halone hruns
      rw [push, List.reverse_cons]
      exact operands.snoc (.token ho)
    · refine mk stages ?_ halone hruns
      rw [heq, List.reverse_cons] at operands
      obtain ⟨earlier, own, rfl, hearlier, hown⟩ := operands.exists_of_snoc
      rw [List.reverse_cons, List.append_assoc]
      exact hearlier.snoc (.longer hown hsegment hadjacent hlonger)

theorem pipe (h : level.Spelled tokens) (hnext : level.endStage offset = .ok next)
    (ht : t.kind = .pipe) : next.Spelled (tokens ++ [t]) := by
  cases h with
  | @mk front command _ stages operands alone runs =>
    have hruns := runs.pipe hnext ht
    obtain ⟨stage, hstage, -, rfl⟩ := exists_of_endStage hnext
    have hpiped : Piped (command ++ [t]) stage :=
      .mk (alone.reads_command hstage) (covers_command hstage operands)
    have hstages := stages.snoc hpiped
    rw [← List.append_assoc] at hstages
    rw [← List.append_nil (front ++ command ++ [t])] at hruns ⊢
    refine mk ?_ .nil rfl hruns
    rwa [List.reverse_cons]

theorem paren {first last : Token} (h : level.Spelled tokens) (hown : Reads own e)
    (hfirst : first.kind = .leftParen) (hlast : last.kind = .rightParen) :
    (level.push (.paren ⟨first.span.start, last.span.stop⟩ e [])).Spelled
      (tokens ++ first :: (own ++ [last])) := by
  cases h with
  | @mk front command _ stages operands alone runs =>
    have halone := alone.paren hown hfirst hlast
    have hruns := runs.paren hown hfirst hlast
    rw [List.append_assoc] at hruns ⊢
    refine mk stages ?_ halone hruns
    rw [push, List.reverse_cons]
    exact operands.snoc (.paren hfirst hlast hown)

end Level.Spelled

namespace Reading.Spelled

variable {tokens more : List Token} {r next : Reading} {t : Token} {level level' : Level}
  {outer : List (Span × Level)}

theorem update (h : Spelled tokens ⟨level, outer⟩)
    (hlevel : ∀ own, level.Spelled own → level'.Spelled (own ++ more)) :
    Spelled (tokens ++ more) ⟨level', outer⟩ := by
  cases h with
  | outside spelled => exact outside (hlevel _ spelled)
  | inside before opens spelled =>
    rw [List.append_assoc, List.cons_append]
    exact inside before opens (hlevel _ spelled)

theorem step (h : r.Spelled tokens) (hnext : r.step t = .ok next) :
    next.Spelled (tokens ++ [t]) := by
  obtain ⟨level, outer⟩ := r
  unfold Reading.step at hnext
  split at hnext
  · next hkind =>
    cases hnext
    exact inside h hkind .empty
  · next hkind =>
    obtain ⟨level', hlevel, hnext⟩ := bind_eq_ok.1 hnext
    cases hnext
    exact h.update fun own hown => hown.pipe hlevel hkind
  · next hkind =>
    obtain ⟨inner, hinner, hnext⟩ := bind_eq_ok.1 hnext
    cases outer with
    | nil => cases hnext
    | cons =>
      cases hnext
      cases h with
      | inside before opens spelled =>
        rw [List.append_assoc, List.cons_append]
        have hreads := spelled.runs.reads hinner
        exact before.update fun own hown => hown.paren hreads opens hkind
  · obtain ⟨level', hlevel, hnext⟩ := bind_eq_ok.1 hnext
    cases hnext
    exact h.update fun own hown => hown.operand hlevel

theorem run {front : List Token} (h : r.Spelled front)
    (hrun : tokens.foldlM Reading.step r = .ok next) : next.Spelled (front ++ tokens) := by
  induction tokens generalizing r front with
  | nil =>
    cases hrun
    rwa [List.append_nil]
  | cons t tokens ih =>
    rw [List.foldlM_cons, bind_eq_ok] at hrun
    obtain ⟨mid, hstep, hrun⟩ := hrun
    have hmid := ih (h.step hstep) hrun
    rwa [List.append_assoc, List.singleton_append] at hmid

end Reading.Spelled

theorem Runs.spelled {tokens : List Token} {level : Level} (h : Runs tokens level) :
    level.Spelled tokens := by
  have hstart : Reading.Spelled [] {} := .outside .empty
  cases hstart.run h with
  | outside spelled => exact spelled

section

variable {tokens own front back : List Token} {e : Expr} {es es' : List Expr}

theorem Reads.covers (h : Reads tokens e) : e.span.Covers tokens := by
  obtain ⟨level, hruns, hfinish⟩ := h
  obtain ⟨stage, hstage, -, hcases⟩ := exists_of_finish (hfinish 0)
  cases hruns.spelled with
  | @mk front command _ stages operands alone runs =>
    have hcommand := covers_command hstage operands
    rcases hcases with ⟨hnil, rfl⟩ | ⟨hne, s, rfl⟩
    · rw [hnil] at stages
      cases stages
      exact hcommand
    · obtain ⟨first, rest, hstages⟩ := List.exists_cons_of_ne_nil (List.reverse_ne_nil_iff.2 hne)
      rw [Level.span_of_finish (hfinish 0) hstage hstages]
      rw [hstages] at stages
      cases stages with
      | @cons _ later _ _ hfirst _ =>
        cases hfirst with
        | @mk _ pipe _ _ covers => simpa using covers.append hcommand (pipe :: later)

namespace Holds

theorem append_left (h : Holds tokens es) (front : List Token) : Holds (front ++ tokens) es := by
  cases h with
  | nil => exact nil
  | cons first rest =>
    rw [← List.append_assoc]
    exact cons first rest

theorem append (h : Holds tokens es) (h' : Holds own es') : Holds (tokens ++ own) (es ++ es') := by
  induction h with
  | nil => exact h'.append_left _
  | cons first _ ih =>
    rw [List.append_assoc, List.append_assoc]
    exact cons first ih

theorem mono (h : Holds own es) (hown : own <:+: tokens) : Holds tokens es := by
  obtain ⟨front, back, rfl⟩ := hown
  have hback : Holds back [] := nil
  simpa using (h.append_left front).append hback

theorem singleton (h : Reads tokens e) : Holds tokens [e] := by
  have hcons : Holds ([] ++ (tokens ++ [])) [e] := cons h nil
  simpa using hcons

end Holds

theorem Row.holds_stages (h : Row Piped tokens es) : Holds tokens es := by
  induction h with
  | nil => exact .nil
  | cons hfirst _ ih =>
    cases hfirst with
    | @mk own pipe _ reads _ =>
      have hown := (Holds.singleton reads).mono (List.infix_append' [] own [pipe])
      exact hown.append ih

theorem Row.holds_operands {operands : List Operand} (h : Row Operand.Spelled tokens operands) :
    Holds tokens (operands.map Operand.expr) := by
  induction h with
  | nil => exact .nil
  | cons hfirst _ ih => exact (Holds.singleton hfirst.reads).append ih

end

section

variable {tokens : List Token} {e : Expr}

section

variable (hinner : ∀ {own : List Token} {inner : Expr}, own.length < tokens.length →
  Reads own inner → Holds own inner.children)
include hinner

theorem Operand.Spelled.holds_children {o : Operand} (h : o.Spelled tokens) :
    Holds tokens o.expr.children := by
  cases o with
  | path | function | literal => exact .nil
  | paren s inner segments =>
    obtain ⟨own, hown, hlength, hreads⟩ := h.exists_inner
    cases segments with
    | nil =>
      rw [expr, children_withSpan]
      exact (hinner hlength hreads).mono hown
    | cons => exact (Holds.singleton hreads).mono hown

theorem holds_children_of_command {level : Level} {offset : Nat}
    (h : level.command offset = .ok e)
    (hrow : Row Operand.Spelled tokens level.operands.reverse) : Holds tokens e.children := by
  unfold Level.command at h
  split at h
  · cases h
  · next first hoperands =>
    cases h
    rw [hoperands] at hrow
    cases hrow with
    | cons hfirst hrest =>
      cases hrest
      rw [List.append_nil] at hinner ⊢
      exact hfirst.holds_children hinner
  · next first second rest hoperands =>
    rw [hoperands] at hrow
    rw [(span_and_children_of_apply h).2]
    cases hrow with
    | cons _ hrest => exact hrest.holds_operands.append_left _

end

/-- The children of an expression are read from tokens of their own, which follow each other among
those of the expression. -/
theorem Reads.holds_children (h : Reads tokens e) : Holds tokens e.children := by
  -- Parentheses around a whole expression have the children of what they enclose, so the
  -- induction is on the number of tokens.
  induction hlength : tokens.length using Nat.strong_induction_on generalizing tokens e with
  | _ n ih =>
    obtain ⟨level, hruns, hfinish⟩ := h
    obtain ⟨stage, hstage, -, hcases⟩ := exists_of_finish (hfinish 0)
    cases hruns.spelled with
    | @mk front command _ stages operands alone runs =>
      rcases hcases with ⟨hnil, rfl⟩ | ⟨hne, s, rfl⟩
      · rw [hnil] at stages
        cases stages
        apply holds_children_of_command _ hstage operands
        intro own inner hfewer hinner
        exact ih own.length (hlength ▸ hfewer) hinner rfl
      · exact stages.holds_stages.append (.singleton (alone.reads_command hstage))

end

end TemplateLint.Expr
