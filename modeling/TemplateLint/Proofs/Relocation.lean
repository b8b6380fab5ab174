import TemplateLint.Proofs.Expressions
import TemplateLint.Proofs.Lexemes
import TemplateLint.Proofs.Staging

/-! Reading at another place. Tokens that stand further on in a text, after the start of a pipeline
and inside of open parentheses, are read as they are by themselves: what is around them is left
alone, and what is built of them stands further on. -/
namespace TemplateLint

namespace Expr

def shift (d : Nat) : Expr → Expr
  | path s p => path (s.shift d) p
  | literal s v => literal (s.shift d) v
  | call s f args => call (s.shift d) f (shiftAll args)
  | method s r m args => method (s.shift d) r m (shiftAll args)
  | chain s b segments => chain (s.shift d) (shift d b) segments
  | pipeline s stages => pipeline (s.shift d) (shiftAll stages)
where
  shiftAll : List Expr → List Expr
    | [] => []
    | e :: es => shift d e :: shiftAll es

def Operand.shift (d : Nat) : Operand → Operand
  | path s p => path (s.shift d) p
  | function s name => function (s.shift d) name
  | literal s v => literal (s.shift d) v
  | paren s inner segments => paren (s.shift d) (inner.shift d) segments

def Level.shift (d : Nat) (level : Level) : Level :=
  ⟨level.stages.map (Expr.shift d), level.operands.map (Operand.shift d)⟩

def Level.above (level base : Level) : Level :=
  ⟨level.stages ++ base.stages, level.operands ++ base.operands⟩

def relocate {α β : Type} (d : Nat) (g : α → β) : Except Malformed α → Except Malformed β
  | .ok a => .ok (g a)
  | .error e => .error ⟨e.cause, e.offset + d⟩

section

variable (d : Nat)

@[simp] theorem shiftAll_eq_map (es : List Expr) : shift.shiftAll d es = es.map (shift d) := by
  induction es with
  | nil => rfl
  | cons e es ih => rw [shift.shiftAll, ih, List.map_cons]

@[simp] theorem span_shift (e : Expr) : (e.shift d).span = e.span.shift d := by
  cases e <;> rfl

theorem withSpan_shift (e : Expr) (s : Span) :
    (e.shift d).withSpan (s.shift d) = (e.withSpan s).shift d := by
  cases e <;> rfl

theorem isExecutable_shift (e : Expr) : Level.isExecutable (e.shift d) = Level.isExecutable e := by
  cases e <;> rfl

theorem relocate_bind {α β γ δ : Type} {g : α → β} {h : γ → δ} {x : Except Malformed α}
    {f : α → Except Malformed γ} {f' : β → Except Malformed δ}
    (hf : ∀ a, x = .ok a → f' (g a) = relocate d h (f a)) :
    (relocate d g x >>= f') = relocate d h (x >>= f) := by
  cases x with
  | error e => rfl
  | ok a => exact hf a rfl

theorem relocate_eq_ok {α β : Type} {d : Nat} {g : α → β} {x : Except Malformed α} {b : β} :
    relocate d g x = .ok b ↔ ∃ a, x = .ok a ∧ g a = b := by
  cases x <;> simp [relocate]

namespace Operand

variable (o : Operand)

@[simp] theorem span_shift : (o.shift d).span = o.span.shift d := by
  cases o <;> rfl

theorem expr_shift : (o.shift d).expr = o.expr.shift d := by
  cases o with
  | paren s inner segments =>
    cases segments with
    | nil => exact withSpan_shift d inner s
    | cons => rfl
  | path | function | literal => rfl

theorem extend?_shift (segment : Segment) (stop : Nat) :
    (o.shift d).extend? segment (stop + d) =
      relocate d (Option.map (shift d)) (o.extend? segment stop) := by
  cases o <;> rfl

theorem ofToken_shift (t : Token) : ofToken (t.shift d) = relocate d (shift d) (ofToken t) := by
  obtain ⟨kind, span⟩ := t
  cases kind <;> rfl

end Operand

theorem apply_shift (first : Operand) (args : List Expr) (span : Span) :
    apply (first.shift d) (args.map (shift d)) (span.shift d) =
      relocate d (shift d) (apply first args span) := by
  have hpath (s : Span) (p : Path) :
      apply (.path (s.shift d) p) (args.map (shift d)) (span.shift d) =
        relocate d (shift d) (apply (.path s p) args span) := by
    simp only [apply, Operand.expr]
    cases p.segments.getLast? with
    | none => rfl
    | some segment => cases segment <;> simp [relocate, shift, Span.shift]
  cases first with
  | path s p => exact hpath s p
  | function s name => simp [apply, Operand.shift, relocate, shift]
  | literal s v => rfl
  | paren s inner segments =>
    cases segments with
    | nil =>
      cases inner with
      | path s' p => exact hpath s p
      | literal | call | method | chain | pipeline => rfl
    | cons => rfl

namespace Level

theorem command_shift (level : Level) (offset : Nat) :
    (level.shift d).command (offset + d) = relocate d (Expr.shift d) (level.command offset) := by
  unfold command shift
  dsimp only
  rw [← List.map_reverse]
  match level.operands.reverse with
  | [] => rfl
  | [first] => exact congrArg Except.ok (first.expr_shift d)
  | first :: second :: rest =>
    have hargs : ((second :: rest).map (Operand.shift d)).map Operand.expr =
        ((second :: rest).map Operand.expr).map (Expr.shift d) := by
      rw [List.map_map, List.map_map]
      exact List.map_congr_left fun o _ => o.expr_shift d
    have hlast : (((second :: rest).map (Operand.shift d)).getLast (by simp)).span =
        ((second :: rest).getLast (by simp)).span.shift d := by
      rw [List.getLast_map, Operand.span_shift]
    change apply (first.shift d) (((second :: rest).map (Operand.shift d)).map Operand.expr)
      ⟨(first.shift d).span.start,
        (((second :: rest).map (Operand.shift d)).getLast _).span.stop⟩ = _
    rw [hargs, hlast, Operand.span_shift]
    exact apply_shift d first _ ⟨first.span.start, ((second :: rest).getLast _).span.stop⟩

theorem endStage_shift (level : Level) (offset : Nat) :
    (level.shift d).endStage (offset + d) = relocate d (shift d) (level.endStage offset) := by
  unfold endStage
  rw [command_shift]
  apply relocate_bind
  intro stage _
  have hempty : (level.shift d).stages.isEmpty = level.stages.isEmpty := List.isEmpty_map
  rw [isExecutable_shift, hempty, span_shift]
  split <;> rfl

theorem finish_shift (level : Level) (offset : Nat) :
    (level.shift d).finish (offset + d) = relocate d (Expr.shift d) (level.finish offset) := by
  unfold finish
  rw [endStage_shift]
  apply relocate_bind
  intro last _
  have hstages : (last.shift d).stages.reverse = last.stages.reverse.map (Expr.shift d) :=
    List.map_reverse.symm
  rw [hstages]
  match last.stages.reverse with
  | [] => rfl
  | [stage] => rfl
  | first :: second :: rest =>
    have hlast : (((second :: rest).map (Expr.shift d)).getLast (by simp)).span =
        ((second :: rest).getLast (by simp)).span.shift d := by
      rw [List.getLast_map, span_shift]
    change Except.ok (pipeline ⟨(first.shift d).span.start,
      (((second :: rest).map (Expr.shift d)).getLast _).span.stop⟩
        ((first :: second :: rest).map (Expr.shift d))) = _
    rw [hlast, span_shift, ← shiftAll_eq_map]
    rfl

theorem above_empty (level : Level) : level.above {} = level := by
  simp [above]

theorem operand_eq_push {level : Level} {t : Token}
    (h : t.kind.segment? = none ∨ ∀ o ∈ level.operands.head?, o.span.stop ≠ t.span.start) :
    level.operand t = do return level.push (← Operand.ofToken t) := by
  have hgap {segment : Segment} (hsegment : t.kind.segment? = some segment) :
      ∀ o ∈ level.operands.head?, o.span.stop ≠ t.span.start := by
    rcases h with hnone | hgap
    · cases hnone.symm.trans hsegment
    · exact hgap
  obtain ⟨kind, span⟩ := t
  unfold operand
  cases kind with
  | field | index =>
    cases hoperands : level.operands with
    | nil => rfl
    | cons last before => exact if_neg (hgap rfl last (by simp [hoperands]))
  | _ => rfl

theorem operand_eq_extend {level : Level} {t : Token} {segment : Segment} {last : Operand}
    {before : List Operand} (hsegment : t.kind.segment? = some segment)
    (hoperands : level.operands = last :: before) (h : last.span.stop = t.span.start) :
    level.operand t = last.extend? segment t.span.stop >>= fun longer? => longer?.elim
      (do return level.push (← Operand.ofToken t))
      fun longer => return { level with operands := longer :: before } := by
  obtain ⟨kind, span⟩ := t
  unfold operand
  rw [hoperands]
  cases kind with
  | field | index =>
    cases hsegment
    refine (if_pos h).trans (bind_congr fun longer? => ?_)
    cases longer? <;> rfl
  | _ => cases hsegment

theorem operand_above (level base : Level) (t : Token)
    (hgap : level.operands = [] → ∀ o ∈ base.operands.head?, o.span.stop ≠ (t.shift d).span.start) :
    ((level.shift d).above base).operand (t.shift d) =
      relocate d (fun next => (next.shift d).above base) (level.operand t) := by
  have hpush : (do return ((level.shift d).above base).push (← Operand.ofToken (t.shift d))) =
      relocate d (fun next => (next.shift d).above base)
        (do return level.push (← Operand.ofToken t)) := by
    rw [Operand.ofToken_shift]
    exact relocate_bind d fun o _ => rfl
  cases hsegment : t.kind.segment? with
  | none =>
    have hsegment' : (t.shift d).kind.segment? = none := hsegment
    rw [operand_eq_push (.inl hsegment'), operand_eq_push (.inl hsegment), hpush]
  | some segment =>
    have hsegment' : (t.shift d).kind.segment? = some segment := hsegment
    cases hoperands : level.operands with
    | nil =>
      rw [operand_eq_push (.inr ?_), operand_eq_push (.inr (by simp [hoperands])), hpush]
      intro o ho
      exact hgap hoperands o (by simpa [above, shift, hoperands] using ho)
    | cons last before =>
      have habove : ((level.shift d).above base).operands =
          last.shift d :: (before.map (Operand.shift d) ++ base.operands) := by
        simp [above, shift, hoperands]
      by_cases hadjacent : last.span.stop = t.span.start
      · have hadjacent' : (last.shift d).span.stop = (t.shift d).span.start := by
          rw [Operand.span_shift]
          exact congrArg (· + d) hadjacent
        rw [operand_eq_extend hsegment' habove hadjacent',
          operand_eq_extend hsegment hoperands hadjacent]
        change ((last.shift d).extend? segment (t.span.stop + d) >>= _) = _
        rw [Operand.extend?_shift]
        apply relocate_bind
        intro longer _
        cases longer with
        | none => exact hpush
        | some longer => rfl
      · rw [operand_eq_push (.inr ?_), operand_eq_push (.inr (by simp [hoperands, hadjacent])),
          hpush]
        rw [habove]
        simp [Token.shift, Span.shift, hadjacent]

end Level

end

/-- A place in a longer text: its offset, the start of the pipeline that goes on here, and the
pipelines around the parentheses that are open. -/
structure Place where
  offset : Nat
  base : Level := {}
  around : List (Span × Level) := []

def Place.put (p : Place) : Level → List (Span × Level) → Reading
  | level, [] => ⟨(level.shift p.offset).above p.base, p.around⟩
  | level, (s, next) :: outer =>
    ⟨level.shift p.offset, (s.shift p.offset, (p.put next outer).level) :: (p.put next outer).outer⟩

def Place.Clear (p : Place) (r : Reading) (t : Token) : Prop :=
  r.outer = [] → r.level.operands = [] →
    ∀ o ∈ p.base.operands.head?, o.span.stop ≠ (t.shift p.offset).span.start

/-- The token, inside of `depth` parentheses, closes nothing that is outside of them, and pipes
nothing there unless that is allowed. -/
def Keeps (pipes : Prop) (depth : Nat) (t : Token) : Prop :=
  match t.kind with
  | .rightParen => 0 < depth
  | .pipe => pipes ∨ 0 < depth
  | _ => True

def depthAfter (depth : Nat) (t : Token) : Nat :=
  match t.kind with
  | .leftParen => depth + 1
  | .rightParen => depth - 1
  | _ => depth

def KeepsAll (pipes : Prop) : Nat → List Token → Prop
  | _, [] => True
  | depth, t :: tokens => Keeps pipes depth t ∧ KeepsAll pipes (depthAfter depth t) tokens

namespace Reading

def placed (p : Place) (r : Reading) : Reading := p.put r.level r.outer

variable (p : Place) (r : Reading)

theorem placed_push (level : Level) (outer : List (Span × Level)) (o : Operand) :
    placed p ⟨level.push o, outer⟩ =
      ⟨(placed p ⟨level, outer⟩).level.push (o.shift p.offset),
        (placed p ⟨level, outer⟩).outer⟩ := by
  cases outer <;> rfl

theorem step_placed {t : Token} (hkeeps : Keeps (p.base = {}) r.outer.length t)
    (hclear : p.Clear r t) :
    (r.placed p).step (t.shift p.offset) = relocate p.offset (placed p) (r.step t) := by
  have hoperand : (do return { r.placed p with
      level := ← (r.placed p).level.operand (t.shift p.offset) }) =
      relocate p.offset (placed p) (do return { r with level := ← r.level.operand t }) := by
    obtain ⟨level, outer⟩ := r
    cases outer with
    | nil =>
      change (((level.shift p.offset).above p.base).operand _ >>= _) = _
      rw [Level.operand_above _ _ _ _ (hclear rfl)]
      exact relocate_bind _ fun next _ => rfl
    | cons around outer =>
      change ((level.shift p.offset).operand _ >>= _) = _
      rw [← Level.above_empty (level.shift p.offset), Level.operand_above _ _ _ _ (by simp)]
      apply relocate_bind
      intro next _
      rw [Level.above_empty]
      rfl
  obtain ⟨level, outer⟩ := r
  obtain ⟨kind, span⟩ := t
  cases kind with
  | leftParen => rfl
  | rightParen =>
    cases outer with
    | nil => exact absurd hkeeps (Nat.lt_irrefl 0)
    | cons around outer =>
      obtain ⟨start, next⟩ := around
      change ((level.shift p.offset).finish (span.start + p.offset) >>= _) = _
      rw [Level.finish_shift]
      apply relocate_bind
      intro inner _
      have hpush := placed_push p next outer (.paren ⟨start.start, span.stop⟩ inner [])
      exact congrArg Except.ok hpush.symm
  | pipe =>
    cases outer with
    | nil =>
      have hbase : p.base = {} := hkeeps.resolve_right (Nat.lt_irrefl 0)
      change (((level.shift p.offset).above p.base).endStage (span.start + p.offset) >>= _) = _
      rw [hbase, Level.above_empty, Level.endStage_shift]
      apply relocate_bind
      intro next _
      change _ = Except.ok (⟨(next.shift p.offset).above p.base, p.around⟩ : Reading)
      rw [hbase, Level.above_empty]
      rfl
    | cons around outer =>
      change ((level.shift p.offset).endStage (span.start + p.offset) >>= _) = _
      rw [Level.endStage_shift]
      exact relocate_bind _ fun next _ => rfl
  | field | dot | «variable» | ident | literal | index => exact hoperand

def outermost : Level := (r.outer.getLast?.map Prod.snd).getD r.level

variable {p r} {next : Reading} {t : Token} {tokens : List Token} {pipes : Prop}

theorem length_outer_of_step (h : r.step t = .ok next) :
    next.outer.length = depthAfter r.outer.length t := by
  obtain ⟨level, outer⟩ := r
  obtain ⟨kind, span⟩ := t
  cases kind with
  | leftParen =>
    cases h
    rfl
  | rightParen =>
    obtain ⟨inner, -, h⟩ := bind_eq_ok.1 h
    cases outer with
    | nil => cases h
    | cons =>
      cases h
      rfl
  | pipe | field | dot | «variable» | ident | literal | index =>
    obtain ⟨level', -, h⟩ := bind_eq_ok.1 h
    cases h
    rfl

theorem clear_of_step (hkeeps : Keeps (p.base = {}) r.outer.length t) (h : r.step t = .ok next)
    (t' : Token) : p.Clear next t' := by
  intro houter hoperands o ho
  obtain ⟨level, outer⟩ := r
  obtain ⟨kind, span⟩ := t
  cases kind with
  | leftParen =>
    cases h
    cases houter
  | rightParen =>
    obtain ⟨inner, -, h⟩ := bind_eq_ok.1 h
    cases outer with
    | nil => cases h
    | cons =>
      cases h
      cases hoperands
  | pipe =>
    obtain ⟨level', -, h⟩ := bind_eq_ok.1 h
    cases h
    cases houter
    have hbase : p.base = {} := hkeeps.resolve_right (Nat.lt_irrefl 0)
    rw [hbase] at ho
    cases ho
  | field | dot | «variable» | ident | literal | index =>
    obtain ⟨level', hlevel, h⟩ := bind_eq_ok.1 h
    cases h
    rcases exists_of_operand hlevel with ⟨_, _, rfl⟩ | ⟨_, _, _, _, _, _, _, rfl⟩ <;> cases hoperands

theorem keeps_of_step (h : r.step t = .ok next) (hpipes : pipes ∨ next.outermost.stages = []) :
    Keeps pipes r.outer.length t ∧ (pipes ∨ r.outermost.stages = []) := by
  obtain ⟨level, outer⟩ := r
  obtain ⟨kind, span⟩ := t
  cases kind with
  | leftParen =>
    cases h
    cases outer <;> exact ⟨trivial, hpipes⟩
  | rightParen =>
    obtain ⟨inner, -, h⟩ := bind_eq_ok.1 h
    cases outer with
    | nil => cases h
    | cons around outer =>
      cases h
      cases outer <;> exact ⟨Nat.succ_pos _, hpipes⟩
  | pipe =>
    obtain ⟨level', hlevel, h⟩ := bind_eq_ok.1 h
    cases h
    cases outer with
    | nil =>
      obtain ⟨stage, -, -, rfl⟩ := exists_of_endStage hlevel
      have hallowed := hpipes.resolve_right (List.cons_ne_nil stage level.stages)
      exact ⟨.inl hallowed, .inl hallowed⟩
    | cons => exact ⟨.inr (Nat.succ_pos _), hpipes⟩
  | field | dot | «variable» | ident | literal | index =>
    obtain ⟨level', hlevel, h⟩ := bind_eq_ok.1 h
    cases h
    refine ⟨trivial, ?_⟩
    cases outer with
    | nil =>
      rcases exists_of_operand hlevel with ⟨_, _, rfl⟩ | ⟨_, _, _, _, _, _, _, rfl⟩ <;> exact hpipes
    | cons => exact hpipes

/-- Stages once finished stay, so that pipes are seen at the end. -/
theorem keepsAll_of_run (h : tokens.foldlM step r = .ok next)
    (hpipes : pipes ∨ next.outermost.stages = []) :
    KeepsAll pipes r.outer.length tokens ∧ (pipes ∨ r.outermost.stages = []) := by
  induction tokens generalizing r with
  | nil =>
    cases h
    exact ⟨trivial, hpipes⟩
  | cons t tokens ih =>
    rw [List.foldlM_cons, bind_eq_ok] at h
    obtain ⟨mid, hstep, h⟩ := h
    obtain ⟨hkeeps, hmid⟩ := ih h
    rw [length_outer_of_step hstep] at hkeeps
    obtain ⟨hkeep, hr⟩ := keeps_of_step hstep hmid
    exact ⟨⟨hkeep, hkeeps⟩, hr⟩

theorem run_placed (hkeeps : KeepsAll (p.base = {}) r.outer.length tokens)
    (hclear : ∀ t ∈ tokens.head?, p.Clear r t) :
    (tokens.map (Token.shift p.offset)).foldlM step (r.placed p) =
      relocate p.offset (placed p) (tokens.foldlM step r) := by
  induction tokens generalizing r with
  | nil => rfl
  | cons t tokens ih =>
    rw [List.map_cons, List.foldlM_cons, List.foldlM_cons,
      step_placed p r hkeeps.1 (hclear t rfl)]
    apply relocate_bind
    intro next hstep
    apply ih
    · rw [length_outer_of_step hstep]
      exact hkeeps.2
    · intro t' _
      exact clear_of_step hkeeps.1 hstep t'

end Reading

theorem step_ofToken {r : Reading} {t : Token} {o : Operand} (hkind : t.kind.segment? = none)
    (ho : Operand.ofToken t = .ok o) : r.step t = .ok { r with level := r.level.push o } := by
  have hoperand : r.level.operand t = .ok (r.level.push o) := by
    rw [Level.operand_eq_push (.inl hkind), ho]
    rfl
  obtain ⟨kind, span⟩ := t
  cases kind with
  | dot | «variable» | ident | literal => exact bind_eq_ok.2 ⟨_, hoperand, rfl⟩
  | field | index => cases hkind
  | leftParen | rightParen | pipe => cases ho

section

variable {r next : Reading} {t : Token} {front tokens : List Token}

theorem run_cons (h : r.step t = .ok next) :
    (t :: tokens).foldlM Reading.step r = tokens.foldlM Reading.step next := by
  rw [List.foldlM_cons, h]
  rfl

theorem run_append (h : front.foldlM Reading.step r = .ok next) :
    (front ++ tokens).foldlM Reading.step r = tokens.foldlM Reading.step next := by
  rw [List.foldlM_append, h]
  rfl

theorem run_parens {x : Expr} {stop : Nat} (hrun : tokens.foldlM Reading.step {} = .ok r)
    (houter : r.outer = []) (hfinish : r.level.finish stop = .ok x) (d : Nat) (level : Level)
    (outer : List (Span × Level)) (first last : Span) (hlast : last.start = stop + d) :
    (⟨.leftParen, first⟩ :: (tokens.map (Token.shift d) ++ [⟨.rightParen, last⟩])).foldlM
      Reading.step ⟨level, outer⟩ =
        .ok ⟨level.push (.paren ⟨first.start, last.stop⟩ (x.shift d) []), outer⟩ := by
  let p : Place := { offset := d, around := (first, level) :: outer }
  have hkeeps : KeepsAll (p.base = {}) 0 tokens := (Reading.keepsAll_of_run hrun (.inl rfl)).1
  have hclear : ∀ t ∈ tokens.head?, p.Clear {} t := by
    intro t _ _ _ o ho
    cases ho
  have hinner : (tokens.map (Token.shift d)).foldlM Reading.step ⟨{}, p.around⟩ =
      .ok ⟨r.level.shift d, p.around⟩ := by
    have hplaced := Reading.run_placed hkeeps hclear
    rw [hrun] at hplaced
    obtain ⟨level, outer⟩ := r
    cases houter
    rw [← Level.above_empty (level.shift d)]
    exact hplaced
  have hclose : Reading.step ⟨r.level.shift d, p.around⟩ ⟨.rightParen, last⟩ =
      .ok ⟨level.push (.paren ⟨first.start, last.stop⟩ (x.shift d) []), outer⟩ := by
    refine bind_eq_ok.2 ⟨x.shift d, ?_, rfl⟩
    rw [hlast, Level.finish_shift, hfinish]
    rfl
  change (tokens.map (Token.shift d) ++ _).foldlM Reading.step ⟨{}, p.around⟩ = _
  rw [run_append hinner, run_cons hclose]
  rfl

end

end Expr
end TemplateLint
