import TemplateLint.Proofs.Relocation

/-! Piping. A value that is piped into a call is its first argument: the pipeline and the call with
that value in parentheses have the same type, or fail for the same reason. -/
namespace TemplateLint
open Text

namespace Expr

section

variable (env : Env) (funcs : FuncTable)

theorem typeIn_withSpan (e : Expr) (s : Span) :
    (e.withSpan s).typeIn env funcs = e.typeIn env funcs := by
  cases e with
  | pipeline _ stages => cases stages <;> simp [withSpan, typeIn]
  | path | literal | call | method | chain => simp [withSpan, typeIn]

theorem stagesIn_append (input : TypeNode) (front back : List Expr) :
    stagesIn env funcs input (front ++ back) =
      (stagesIn env funcs input front >>= fun t => stagesIn env funcs t back) := by
  induction front generalizing input with
  | nil => simp [stagesIn, Bind.bind, Except.bind]
  | cons stage front ih =>
    rw [List.cons_append, stagesIn, stagesIn, bind_assoc]
    exact bind_congr fun next => ih next

theorem typeIn_pipeline_concat (s s' : Span) {stages : List Expr} (h : stages ≠ []) (stage : Expr) :
    (pipeline s (stages ++ [stage])).typeIn env funcs =
      ((pipeline s' stages).typeIn env funcs >>= fun t => stageIn env funcs t stage) := by
  cases stages with
  | nil => contradiction
  | cons first stages =>
    rw [List.cons_append, typeIn, typeIn, bind_assoc]
    refine bind_congr fun t => ?_
    rw [stagesIn_append]
    refine bind_congr fun t => ?_
    rw [stagesIn]
    exact bind_pure (stageIn env funcs t stage)

theorem typesIn_map_shift {d : Nat} {es : List Expr}
    (h : ∀ e ∈ es, (e.shift d).typeIn env funcs = e.typeIn env funcs) :
    typesIn env funcs (es.map (shift d)) = typesIn env funcs es := by
  induction es with
  | nil => rfl
  | cons e es ih =>
    rw [List.forall_mem_cons] at h
    rw [List.map_cons, typesIn, typesIn, h.1, ih h.2]

theorem stagesIn_map_shift {d : Nat} {es : List Expr}
    (h : ∀ e ∈ es, ∀ input, stageIn env funcs input (e.shift d) = stageIn env funcs input e)
    (input : TypeNode) :
    stagesIn env funcs input (es.map (shift d)) = stagesIn env funcs input es := by
  induction es generalizing input with
  | nil => rfl
  | cons e es ih =>
    rw [List.forall_mem_cons] at h
    rw [List.map_cons, stagesIn, stagesIn, h.1]
    exact bind_congr fun next => ih h.2 next

theorem Staged.typeIn_shift {e : Expr} (h : e.Staged) (d : Nat) :
    (e.shift d).typeIn env funcs = e.typeIn env funcs ∧
      (Level.isExecutable e = true → ∀ input,
        stageIn env funcs input (e.shift d) = stageIn env funcs input e) := by
  induction h with
  | path => exact ⟨by simp [shift, typeIn], fun _ input => by simp [shift, stageIn]⟩
  | literal => exact ⟨by simp [shift, typeIn], by intro h; cases h⟩
  | call _ ih =>
    have hargs := typesIn_map_shift env funcs fun e he => (ih e he).1
    constructor
    · rw [shift, shiftAll_eq_map, typeIn, typeIn, hargs]
    · intro _ input
      rw [shift, shiftAll_eq_map, stageIn, stageIn, hargs]
  | method _ ih =>
    have hargs := typesIn_map_shift env funcs fun e he => (ih e he).1
    constructor
    · rw [shift, shiftAll_eq_map, typeIn, typeIn, hargs]
    · intro _ input
      rw [shift, shiftAll_eq_map, stageIn, stageIn, hargs]
  | chain _ ih =>
    refine ⟨?_, by intro h; cases h⟩
    rw [shift, typeIn, typeIn, ih.1]
  | @pipeline s stages _ later ih =>
    refine ⟨?_, by intro h; cases h⟩
    rw [shift, shiftAll_eq_map]
    cases stages with
    | nil => simp [typeIn]
    | cons first stages =>
      rw [List.forall_mem_cons] at ih
      rw [List.map_cons, typeIn, typeIn, ih.1.1]
      refine bind_congr fun t => stagesIn_map_shift env funcs ?_ t
      intro e he
      exact (ih.2 e he).2 (later e he)

end

theorem ofChars_eq_ok {cs : List Char} {e : Expr} :
    ofChars cs = .ok e ↔ ∃ tokens r, tokenize 0 cs = .ok tokens ∧ tokens ≠ [] ∧
      tokens.foldlM Reading.step {} = .ok r ∧ r.outer = [] ∧
        r.level.finish (byteLength cs) = .ok e := by
  constructor
  · intro h
    obtain ⟨tokens, htokens, h⟩ := bind_eq_ok.1 h
    unfold ofTokens at h
    split at h
    · cases h
    · next hne =>
      obtain ⟨r, hr, h⟩ := bind_eq_ok.1 h
      obtain ⟨e', he', h⟩ := bind_eq_ok.1 h
      refine ⟨tokens, r, htokens, by simpa using hne, hr, ?_⟩
      split at h
      · next houter =>
        cases h
        exact ⟨houter, he'⟩
      · cases h
  · rintro ⟨tokens, r, htokens, hne, hr, houter, he⟩
    refine bind_eq_ok.2 ⟨tokens, htokens, ?_⟩
    unfold ofTokens
    rw [if_neg (by simpa using hne)]
    refine bind_eq_ok.2 ⟨r, hr, bind_eq_ok.2 ⟨e, he, ?_⟩⟩
    rw [houter]
    rfl

namespace Level

variable {level next : Level} {offset : Nat} {e : Expr}

theorem endStage_of_endStage (h : level.endStage offset = .ok next) (offset' : Nat) :
    level.endStage offset' = .ok next := by
  unfold endStage command at h ⊢
  cases hoperands : level.operands.reverse with
  | nil =>
    rw [hoperands] at h
    cases h
  | cons first rest =>
    rw [hoperands] at h
    cases rest <;> exact h

theorem endStage_function {before : List Operand} {s : Span} {f : String}
    (h : level.operands = before ++ [.function s f]) (offset : Nat) :
    ∃ s', level.endStage offset =
      .ok { stages := .call s' f (before.reverse.map Operand.expr) :: level.stages } := by
  obtain ⟨s', hcommand⟩ : ∃ s', level.command offset =
      .ok (.call s' f (before.reverse.map Operand.expr)) := by
    unfold command
    rw [h, List.reverse_append]
    cases before.reverse with
    | nil => exact ⟨s, rfl⟩
    | cons => exact ⟨_, rfl⟩
  refine ⟨s', bind_eq_ok.2 ⟨_, hcommand, ?_⟩⟩
  rw [if_neg (by simp [isExecutable])]
  rfl

theorem command_literal {before : List Operand} {s s' : Span} {v : Literal} {f : String}
    {args : List Expr} (h : level.operands = before ++ [.literal s v]) :
    level.command offset ≠ .ok (.call s' f args) := by
  unfold command
  rw [h, List.reverse_append]
  cases before.reverse <;> nofun

end Level

def ReadsAs (start : Nat) (tokens : List Token) (operands : List Operand) : Prop :=
  ∀ p : Place, (∀ o ∈ p.base.operands.head?, o.span.stop < start + p.offset) →
    (tokens.map (Token.shift p.offset)).foldlM Reading.step ⟨p.base, p.around⟩ =
      .ok ⟨⟨p.base.stages, operands.map (Operand.shift p.offset) ++ p.base.operands⟩, p.around⟩

theorem exists_readsAs {start : Nat} {tokens : List Token} {first : Operand} {r : Reading}
    (hstart : ∀ t ∈ tokens, start ≤ t.span.start) (hfirst : first.span.stop < start)
    (hrun : tokens.foldlM Reading.step ⟨⟨[], [first]⟩, []⟩ = .ok r) (houter : r.outer = [])
    (hstages : r.level.stages = []) :
    ∃ operands, ReadsAs start tokens operands ∧ ∃ before, r.level.operands = before ++ [first] := by
  have hkeeps (pipes : Prop) : KeepsAll pipes 0 tokens := by
    refine (Reading.keepsAll_of_run hrun (.inr ?_)).1
    unfold Reading.outermost
    rw [houter]
    exact hstages
  have hplaced (p : Place) (hp : ∀ o ∈ p.base.operands.head?, o.span.stop < start + p.offset) :
      (tokens.map (Token.shift p.offset)).foldlM Reading.step ⟨p.base, p.around⟩ =
        relocate p.offset (Reading.placed p) (tokens.foldlM Reading.step {}) := by
    have hclear : ∀ t ∈ tokens.head?, p.Clear {} t := by
      intro t ht _ _ o ho
      have hlow := hstart t (List.mem_of_mem_head? ht)
      have hhigh := hp o ho
      simp only [Token.shift, Span.shift]
      omega
    exact Reading.run_placed (hkeeps _) hclear
  let p : Place := { offset := 0, base := ⟨[], [first]⟩ }
  have hself := hplaced p (by simpa [p] using hfirst)
  rw [map_shift_zero, hrun] at hself
  obtain ⟨⟨level, outer⟩, hread, hr⟩ := relocate_eq_ok.1 hself.symm
  subst hr
  cases outer with
  | cons => cases houter
  | nil =>
    obtain ⟨stages, operands⟩ := level
    obtain ⟨hnil, -⟩ := List.append_eq_nil_iff.1 hstages
    obtain rfl := List.map_eq_nil_iff.1 hnil
    refine ⟨operands, ?_, _, rfl⟩
    intro p hp
    rw [hplaced p hp, hread]
    rfl

section

variable {name xs ys : List Char} {x : Expr} {s : Span} {args : List Expr}

theorem exists_arguments (hname : IsName name)
    (h : ofChars (name ++ ' ' :: ys) = .ok (.call s (String.ofList name) args)) :
    wordKind name = .ident (String.ofList name) ∧
      ∃ tokens operands, tokenize (byteLength name + 1) ys = .ok tokens ∧
        ReadsAs (byteLength name + 1) tokens operands := by
  obtain ⟨_, r, htokens, -, hrun, houter, hfinish⟩ := ofChars_eq_ok.1 h
  rw [tokenize_name hname, Nat.zero_add] at htokens
  obtain ⟨tokens, hys, rfl⟩ := map_eq_ok.1 htokens
  obtain ⟨stage, hcommand, -, ⟨hstages, rfl⟩ | ⟨-, _, hpipeline⟩⟩ := exists_of_finish hfinish
  · have hread {first : Operand} (hstop : first.span.stop = byteLength name)
        (hstep : Reading.step {} ⟨wordKind name, ⟨0, byteLength name⟩⟩ =
          .ok ⟨⟨[], [first]⟩, []⟩) :
        ∃ operands, ReadsAs (byteLength name + 1) tokens operands ∧
          ∃ before, r.level.operands = before ++ [first] := by
      rw [List.foldlM_cons, hstep] at hrun
      exact exists_readsAs (lexed_of_tokenize hys).le_start (by omega) hrun houter hstages
    rcases wordKind_cases name with hword | ⟨v, hword⟩
    · rw [hword] at hread
      obtain ⟨operands, hoperands, -⟩ := hread rfl (step_ofToken rfl rfl)
      exact ⟨hword, tokens, operands, hys, hoperands⟩
    · rw [hword] at hread
      obtain ⟨-, -, before, hbefore⟩ := hread rfl (step_ofToken rfl rfl)
      exact absurd hcommand (Level.command_literal hbefore)
  · cases hpipeline

end

def argumentsAt (d : Nat) (operands : List Operand) : List Expr :=
  (operands.map (Operand.shift d)).reverse.map Operand.expr

section

variable {name xs ys : List Char} {x : Expr} {f : String} {tokens : List Token}
  {operands : List Operand} (hx : ofChars xs = .ok x) (hname : IsName name)
  (hword : wordKind name = .ident f) (hys : tokenize (byteLength name + 1) ys = .ok tokens)
  (hreads : ReadsAs (byteLength name + 1) tokens operands)
include hx hname hword hys hreads

theorem ofChars_piped : ∃ stages s s', stages ≠ [] ∧
    (∀ env funcs s, (pipeline s stages).typeIn env funcs = x.typeIn env funcs) ∧
    ofChars (xs ++ ' ' :: '|' :: ' ' :: (name ++ ' ' :: ys)) =
      .ok (.pipeline s (stages ++ [.call s' f (argumentsAt (byteLength xs + 3) operands)])) := by
  obtain ⟨tokensX, r, hxs, hne, hrun, houter, hfinish⟩ := ofChars_eq_ok.1 hx
  obtain ⟨stage, -, hend, hcases⟩ := exists_of_finish hfinish
  have htype (env : Env) (funcs : FuncTable) (s : Span) :
      (pipeline s (stage :: r.level.stages).reverse).typeIn env funcs = x.typeIn env funcs := by
    rw [List.reverse_cons]
    rcases hcases with ⟨hnil, rfl⟩ | ⟨-, s', rfl⟩
    · rw [hnil]
      exact bind_pure (x.typeIn env funcs)
    · exact typeIn_withSpan env funcs (.pipeline s' _) s
  have htokens : tokenize 0 (xs ++ ' ' :: '|' :: ' ' :: (name ++ ' ' :: ys)) =
      .ok (tokensX ++ ⟨.pipe, ⟨byteLength xs + 1, byteLength xs + 2⟩⟩ ::
        ⟨.ident f, ⟨byteLength xs + 3, byteLength xs + 3 + byteLength name⟩⟩ ::
        tokens.map (Token.shift (byteLength xs + 3))) := by
    have hblank : Breaks (' ' :: '|' :: ' ' :: (name ++ ' ' :: ys)) := by simp [Breaks, IsBreak]
    have happend := tokenize_append hblank hxs 0
    have hoffset : byteLength xs + 1 + 1 + 1 + byteLength name + 1 =
        byteLength name + 1 + (byteLength xs + 3) := by omega
    rw [Nat.add_zero, Nat.zero_add, map_shift_zero, tokenize_blank, tokenize_mark .pipe (by simp),
      tokenize_blank, tokenize_name hname, hword, hoffset, tokenize_shift hys] at happend
    exact happend
  have hpipe : r.step ⟨.pipe, ⟨byteLength xs + 1, byteLength xs + 2⟩⟩ =
      .ok ⟨⟨stage :: r.level.stages, []⟩, []⟩ := by
    refine bind_eq_ok.2 ⟨_, Level.endStage_of_endStage hend _, ?_⟩
    rw [houter]
    rfl
  let function := Operand.function ⟨byteLength xs + 3, byteLength xs + 3 + byteLength name⟩ f
  let p : Place := { offset := byteLength xs + 3, base := ⟨stage :: r.level.stages, [function]⟩ }
  have hoperands := hreads p (by simp [p, function, Operand.span]; omega)
  let last : Level := ⟨stage :: r.level.stages, operands.map (Operand.shift p.offset) ++ [function]⟩
  let cs := xs ++ ' ' :: '|' :: ' ' :: (name ++ ' ' :: ys)
  obtain ⟨s', hcall⟩ := last.endStage_function rfl (byteLength cs)
  obtain ⟨e, he, ⟨hnil, -⟩ | ⟨-, s, rfl⟩⟩ := finish_of_endStage hcall
  · cases hnil
  · refine ⟨(stage :: r.level.stages).reverse, s, s', by simp, htype, ?_⟩
    refine ofChars_eq_ok.2 ⟨_, ⟨last, []⟩, htokens, by simp, ?_, rfl, he⟩
    rw [run_append hrun, run_cons hpipe, run_cons (step_ofToken rfl rfl)]
    exact hoperands

theorem ofChars_prepended : ∃ s s', ofChars (name ++ ' ' :: '(' :: (xs ++ ')' :: ' ' :: ys)) =
    .ok (.call s f ((x.shift (byteLength name + 2)).withSpan s' ::
      argumentsAt (byteLength xs + 3) operands)) := by
  obtain ⟨tokensX, r, hxs, hne, hrun, houter, hfinish⟩ := ofChars_eq_ok.1 hx
  have htokens : tokenize 0 (name ++ ' ' :: '(' :: (xs ++ ')' :: ' ' :: ys)) =
      .ok (⟨.ident f, ⟨0, byteLength name⟩⟩ ::
        (⟨.leftParen, ⟨byteLength name + 1, byteLength name + 2⟩⟩ ::
          (tokensX.map (Token.shift (byteLength name + 2)) ++ [⟨.rightParen,
            ⟨byteLength xs + (byteLength name + 2), byteLength xs + (byteLength name + 2) + 1⟩⟩]) ++
          tokens.map (Token.shift (byteLength xs + 3)))) := by
    have hclose : Breaks (')' :: ' ' :: ys) := by simp [Breaks, IsBreak]
    have happend := tokenize_append hclose hxs (byteLength name + 2)
    have hoffset : byteLength xs + (byteLength name + 2) + 1 + 1 =
        byteLength name + 1 + (byteLength xs + 3) := by omega
    rw [Nat.zero_add, Nat.add_comm _ (byteLength xs), tokenize_mark .rightParen (by simp),
      tokenize_blank, hoffset, tokenize_shift hys] at happend
    rw [tokenize_name hname, hword, tokenize_mark .leftParen (by simp), Nat.zero_add, happend]
    simp [Except.map]
  let function := Operand.function ⟨0, byteLength name⟩ f
  let value := Operand.paren ⟨byteLength name + 1, byteLength xs + (byteLength name + 2) + 1⟩
    (x.shift (byteLength name + 2)) []
  have hvalue := run_parens hrun houter hfinish (byteLength name + 2) ⟨[], [function]⟩ []
    ⟨byteLength name + 1, byteLength name + 2⟩
    ⟨byteLength xs + (byteLength name + 2), byteLength xs + (byteLength name + 2) + 1⟩ rfl
  let p : Place := { offset := byteLength xs + 3, base := ⟨[], [value, function]⟩ }
  have hoperands := hreads p (by simp [p, value, Operand.span]; omega)
  let before := operands.map (Operand.shift p.offset) ++ [value]
  let last : Level := ⟨[], before ++ [function]⟩
  let cs := name ++ ' ' :: '(' :: (xs ++ ')' :: ' ' :: ys)
  obtain ⟨s, hcall⟩ := last.endStage_function rfl (byteLength cs)
  obtain ⟨e, he, ⟨-, rfl⟩ | ⟨hne, -⟩⟩ := finish_of_endStage hcall
  · have hargs : before.reverse.map Operand.expr =
        (x.shift (byteLength name + 2)).withSpan value.span ::
          argumentsAt (byteLength xs + 3) operands := by
      simp [before, argumentsAt, value, Operand.expr, Operand.span, p]
    rw [hargs] at he
    refine ⟨s, value.span, ofChars_eq_ok.2 ⟨_, ⟨last, []⟩, htokens, by simp, ?_, rfl, he⟩⟩
    have hlast : before ++ [function] =
        operands.map (Operand.shift p.offset) ++ [value, function] := List.append_assoc ..
    rw [run_cons (step_ofToken rfl rfl)]
    refine (run_append hvalue).trans (hoperands.trans ?_)
    rw [← hlast]
  · exact absurd rfl hne

end

theorem typeIn_call_cons (env : Env) (funcs : FuncTable) (s s' : Span) (f : String) (e : Expr)
    (args : List Expr) :
    (call s f (e :: args)).typeIn env funcs =
      (e.typeIn env funcs >>= fun t => stageIn env funcs t (.call s' f args)) := by
  rw [typeIn, typesIn, bind_assoc]
  refine bind_congr fun t => ?_
  rw [stageIn, bind_assoc]
  rfl

/-- A value that is piped into a call is its first argument: whatever the text of the value is and
that of the other arguments, both ways to write the call have the same type, or the same error. -/
theorem piped_value_is_first_argument (env : Env) (funcs : FuncTable) {text func more : String}
    {value : Expr} {s : Span} {args : List Expr} (hvalue : parse text = .ok value)
    (hfunc : IsName func.toList) (hcall : parse (func ++ " " ++ more) = .ok (.call s func args)) :
    inferText env funcs (text ++ " | " ++ func ++ " " ++ more) =
      inferText env funcs (func ++ " (" ++ text ++ ") " ++ more) := by
  have hchars : (func ++ " " ++ more).toList = func.toList ++ ' ' :: more.toList := by simp
  rw [parse, hchars, ← String.ofList_toList (s := func), String.toList_ofList] at hcall
  obtain ⟨hword, tokens, operands, htokens, hreads⟩ := exists_arguments hfunc hcall
  obtain ⟨stages, s₁, s₂, hne, htype, hpiped⟩ := ofChars_piped hvalue hfunc hword htokens hreads
  obtain ⟨s₃, s₄, hprepended⟩ := ofChars_prepended hvalue hfunc hword htokens hreads
  have hleft : (text ++ " | " ++ func ++ " " ++ more).toList =
      text.toList ++ ' ' :: '|' :: ' ' :: (func.toList ++ ' ' :: more.toList) := by simp
  have hright : (func ++ " (" ++ text ++ ") " ++ more).toList =
      func.toList ++ ' ' :: '(' :: (text.toList ++ ')' :: ' ' :: more.toList) := by simp
  unfold inferText parse
  rw [hleft, hright, hpiped, hprepended]
  unfold infer
  dsimp only
  rw [typeIn_pipeline_concat env funcs s₁ s₁ hne, htype, typeIn_call_cons env funcs s₃ s₂,
    typeIn_withSpan, ((staged_of_parse hvalue).typeIn_shift env funcs _).1]

theorem piped_value_is_first_argument_of_index :
    let env := Env.ofType (.root [.slice "Table" (.slice "" (.scalar "" "string"))])
    let value := ".Table | index 0"
    let more := "1 (len \"a b\")"
    let piped := value ++ " | " ++ "index" ++ " " ++ more
    (inferText env .builtins piped).toOption.map InferredType.label = some "uint8" ∧
      inferText env .builtins piped =
        inferText env .builtins ("index" ++ " (" ++ value ++ ") " ++ more) := by
  intro env value more piped
  have hvalue : (parse value).toOption.map asPath? = some none := by decide +kernel
  have hcall : (parse ("index" ++ " " ++ more)).toOption.map ownCall? =
      some (some ("index", ⟨0, 19⟩)) := by
    decide +kernel
  obtain ⟨e, hparse, -⟩ := map_toOption_eq_some.1 hvalue
  obtain ⟨e', hparse', hown⟩ := map_toOption_eq_some.1 hcall
  refine ⟨by decide +kernel, ?_⟩
  cases e' with
  | call s f args =>
    cases hown
    exact piped_value_is_first_argument env .builtins hparse ⟨by decide, by decide +kernel⟩ hparse'
  | path | literal | method | chain | pipeline => cases hown

end Expr
end TemplateLint
