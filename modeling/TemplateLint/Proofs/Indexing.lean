import TemplateLint.Proofs.QuoteScans
import TemplateLint.Proofs.Relaxation
import TemplateLint.Proofs.Slices
import TemplateLint.Proofs.Spelling

/-! Indexing, in its two forms. A call of `index` and brackets behind a path look for an unknown
shape, for a string and for a container in different orders, and fail in different ways. They come
to the same type all the same, however many keys there are. -/
namespace TemplateLint
open Text

namespace TypeNode

/-- Types that are put together by the constructors. -/
inductive Built : TypeNode → Prop where
  | scalar (name label : String) : Built (.scalar name label)
  | structure_ (name label : String) {fields : List TypeNode} (built : ∀ f ∈ fields, Built f) :
      Built (.structure_ name label fields)
  | slice (name : String) {elem : TypeNode} (built : Built elem) : Built (.slice name elem)
  | map (name : String) {key value : TypeNode} (builtKey : Built key) (builtValue : Built value) :
      Built (.map name key value)
  | unknown : Built .unknown
  | root {vars : List TypeNode} (built : ∀ v ∈ vars, Built v) : Built (.root vars)

namespace Built

variable {t u : TypeNode}

theorem withName (h : t.Built) (name : String) : (t.withName name).Built := by
  cases h with
  | scalar _ label => exact .scalar name label
  | structure_ _ label built => exact .structure_ name label built
  | slice _ built => exact .slice name built
  | map _ builtKey builtValue => exact .map name builtKey builtValue
  | unknown => exact .scalar name unknownLabel
  | root built => exact .structure_ name rootLabel built

theorem elementOrUnknown (h : t.Built) : t.elementOrUnknown.Built := by
  cases h with
  | slice _ built => exact built.withName ""
  | map _ _ builtValue => exact builtValue.withName ""
  | scalar | structure_ | unknown | root => exact .unknown

theorem field? (h : t.Built) {name : String} (hu : t.field? name = some u) : u.Built := by
  have hmem : u ∈ t.fields := List.mem_of_find?_eq_some hu
  cases h with
  | structure_ _ _ built => exact built u hmem
  | root built => exact built u hmem
  | scalar | slice | map | unknown => cases hmem

theorem label_ne_stringLabel (h : t.Built) (ht : t.isIterable = true) : t.label ≠ stringLabel := by
  intro hlabel
  have hchars := congrArg String.toList hlabel
  cases h with
  | slice => simp [TypeNode.slice, stringLabel] at hchars
  | map => simp [TypeNode.map, stringLabel] at hchars
  | scalar | structure_ | unknown | root => cases ht

theorem step (h : t.Built) {segment : Segment} {depth : Nat}
    (hu : t.step segment depth = .ok u) : u.Built := by
  unfold TypeNode.step at hu
  split at hu
  · cases hu
    exact .unknown
  · split at hu
    · split at hu
      · next hfield =>
        cases hu
        exact h.field? hfield
      · split at hu
        · cases hu
          exact h.elementOrUnknown
        · cases hu
    · split at hu
      · cases hu
        exact h.elementOrUnknown
      · split at hu
        · cases hu
          exact .scalar "" byteLabel
        · cases hu

theorem descend (h : t.Built) {segments : List Segment} {depth : Nat}
    (hu : t.descend depth segments = .ok u) : u.Built := by
  induction segments generalizing t depth with
  | nil =>
    cases hu
    exact h
  | cons segment segments ih =>
    rw [TypeNode.descend] at hu
    split at hu
    · cases hu
    · next hstep => exact ih (h.step hstep) hu

end Built

end TypeNode

/-- Both fail, or both come to types, which are then equal or unknown. -/
inductive Agree {ε ε' α : Type} (isUnknown : α → Bool) : Except ε α → Except ε' α → Prop where
  | failed {e : ε} {e' : ε'} : Agree isUnknown (.error e) (.error e')
  | equal {t : α} : Agree isUnknown (.ok t) (.ok t)
  | unknown {t t' : α} (ht : isUnknown t = true) (ht' : isUnknown t' = true) :
      Agree isUnknown (.ok t) (.ok t')

namespace TypeNode

variable {t : TypeNode} {keys : List TypeNode}

theorem indexWithAll_of_isUnknown (h : t.isUnknown = true) (keys : List TypeNode) :
    t.indexWithAll keys = .ok t := by
  induction keys with
  | nil => rfl
  | cons key keys ih =>
    rw [indexWithAll, indexWith, if_pos h]
    exact ih

/-- One key more, on a shape that is known. Only a container could pass for a string, and none
does. -/
theorem Built.index_cases (h : t.Built) (ht : t.isUnknown = false) (key : TypeNode) (text : String)
    (depth : Nat) :
    (∃ e e', t.indexWith key = .error e ∧ t.step (.index text) depth = .error e') ∨
      ∃ u, u.Built ∧ t.indexWith key = .ok u ∧ t.step (.index text) depth = .ok u := by
  unfold indexWith TypeNode.step
  simp only [ht, Bool.false_eq_true, if_false]
  by_cases hiterable : t.isIterable = true
  · rw [if_neg (h.label_ne_stringLabel hiterable), if_pos hiterable, if_pos hiterable]
    exact .inr ⟨_, h.elementOrUnknown, rfl, rfl⟩
  · rw [if_neg hiterable, if_neg hiterable]
    split
    · exact .inr ⟨_, .scalar "" byteLabel, rfl, rfl⟩
    · exact .inl ⟨_, _, rfl, rfl⟩

theorem Built.indexWithAll_agree (h : t.Built) {texts : List String}
    (hlength : texts.length = keys.length) (depth : Nat) :
    Agree isUnknown (t.indexWithAll keys) (t.descend depth (texts.map .index)) := by
  induction keys generalizing t texts depth with
  | nil =>
    cases List.length_eq_zero_iff.1 hlength
    exact .equal
  | cons key keys ih =>
    cases texts with
    | nil => cases hlength
    | cons text texts =>
      cases ht : t.isUnknown with
      | true =>
        obtain ⟨u, hu, hunknown⟩ := exists_descend_of_isUnknown ht ((text :: texts).map .index)
        rw [indexWithAll_of_isUnknown ht, hu]
        exact .unknown ht hunknown
      | false =>
        rw [indexWithAll, List.map_cons, TypeNode.descend]
        rcases h.index_cases ht key text depth with ⟨e, e', hkey, hstep⟩ | ⟨u, hu, hkey, hstep⟩
        · rw [hkey, hstep]
          exact .failed
        · rw [hkey, hstep]
          exact ih hu (Nat.succ.inj hlength) (depth + 1)

end TypeNode

namespace Env

structure Built (env : Env) : Prop where
  root : env.root.Built
  dot : (env.dot.type env.root).Built
  vars : ∀ name ref, env.var? name = some ref → (ref.type env.root).Built

variable {env : Env} {p : Path}

theorem Built.base (h : env.Built) {start : PathRoot} {ref : TypeRef}
    (href : env.base start = .ok ref) : (ref.type env.root).Built := by
  cases start with
  | dot =>
    cases href
    exact h.dot
  | root =>
    cases href
    exact h.root
  | var name =>
    unfold Env.base at href
    dsimp only at href
    split at href
    · next hvar =>
      cases href
      exact h.vars name ref hvar
    · cases href

theorem operand_eq (env : Env) (p : Path) : env.operand p = (env.typeOf p).mapError .resolve := by
  unfold operand
  cases env.typeOf p <;> rfl

theorem Built.operand (h : env.Built) {t : TypeNode} (ht : env.operand p = .ok t) : t.Built := by
  rw [operand_eq_ok, typeOf_eq, bind_eq_ok] at ht
  obtain ⟨ref, href, ht⟩ := ht
  exact (h.base href).descend ht

theorem typeOf_append (env : Env) (p : Path) (segments : List Segment) :
    env.typeOf ⟨p.root, p.segments ++ segments⟩ =
      env.typeOf p >>= fun t => t.descend p.segments.length segments := by
  rw [typeOf_eq, typeOf_eq, bind_assoc]
  refine bind_congr fun ref => ?_
  rw [TypeNode.descend_append, Nat.zero_add]

theorem operand_append (env : Env) (p : Path) (segments : List Segment) :
    env.operand ⟨p.root, p.segments ++ segments⟩ =
      env.operand p >>= fun t => (t.descend p.segments.length segments).mapError .resolve := by
  rw [operand_eq, operand_eq, typeOf_append]
  cases env.typeOf p <;> rfl

end Env

def Path.indexed (p : Path) (keys : List String) : Path :=
  ⟨p.root, p.segments ++ keys.map .index⟩

namespace Expr

def isLiteral : Expr → Bool
  | literal .. => true
  | path .. | call .. | method .. | chain .. | pipeline .. => false

theorem exists_of_isLiteral {e : Expr} (h : e.isLiteral = true) : ∃ s v, e = literal s v := by
  cases e with
  | literal s v => exact ⟨s, v, rfl⟩
  | path | call | method | chain | pipeline => cases h

section

variable {env : Env} {funcs : FuncTable} {args : List Expr} {p : Path} {keys : List String}

theorem exists_typesIn_literals (h : ∀ e ∈ args, ∃ s v, e = literal s v) :
    ∃ types, typesIn env funcs args = .ok types ∧ types.length = args.length := by
  induction args with
  | nil => exact ⟨[], rfl, rfl⟩
  | cons e args ih =>
    rw [List.forall_mem_cons] at h
    obtain ⟨⟨s, v, rfl⟩, hargs⟩ := h
    obtain ⟨types, htypes, hlength⟩ := ih hargs
    refine ⟨v.type :: types, ?_, congrArg (· + 1) hlength⟩
    rw [typesIn, typeIn, htypes]
    rfl

theorem call_index (t : TypeNode) (types : List TypeNode) :
    FuncTable.builtins.call "index" (t :: types) = t.indexWithAll types := by
  have hindex : FuncTable.builtins.get? "index" = some ⟨.atLeast 1, .element⟩ := by
    decide +kernel
  unfold FuncTable.call
  rw [hindex]
  dsimp only
  rw [if_pos (by simp [Arity.accepts])]
  rfl

theorem infer_index_agree (henv : env.Built) (hargs : ∀ e ∈ args, ∃ s v, e = literal s v)
    (hlength : keys.length = args.length) (s s' : Span) (depth : Nat) :
    Agree InferredType.isUnknown ((call s "index" (path s' p :: args)).infer env .builtins)
      ((env.operand p >>= fun t =>
        (t.descend depth (keys.map .index)).mapError ExprError.resolve).map .ofNode) := by
  obtain ⟨types, htypes, htypesLength⟩ := exists_typesIn_literals hargs
  have hcall : (call s "index" (path s' p :: args)).typeIn env .builtins =
      env.operand p >>= fun t => t.indexWithAll types := by
    rw [typeIn, typesIn, typeIn, htypes, bind_assoc]
    refine bind_congr fun t => ?_
    exact call_index t types
  unfold infer
  rw [hcall]
  cases hp : env.operand p with
  | error e => exact .failed
  | ok t =>
    have hagree := (henv.operand hp).indexWithAll_agree (hlength.trans htypesLength.symm) depth
    change Agree _ ((t.indexWithAll types).map _) (((t.descend depth _).mapError _).map _)
    generalize t.indexWithAll types = x, t.descend depth (keys.map .index) = y at hagree ⊢
    cases hagree with
    | failed => exact .failed
    | equal => exact .equal
    | unknown ht ht' => exact .unknown ht ht'

theorem infer_path_indexed (env : Env) (funcs : FuncTable) (s : Span) (p : Path)
    (keys : List String) :
    (path s (p.indexed keys)).infer env funcs = (env.operand p >>= fun t =>
      (t.descend p.segments.length (keys.map .index)).mapError ExprError.resolve).map .ofNode := by
  unfold infer
  rw [typeIn]
  exact congrArg _ (env.operand_append p (keys.map .index))

end

def ReadsOperands (cs : List Char) (operands : List Operand) : Prop :=
  ∃ tokens, tokenize 0 cs = .ok tokens ∧ Runs tokens ⟨[], operands⟩

theorem apply_cases {first : Operand} {args : List Expr} {s : Span} {e : Expr}
    (h : apply first args s = .ok e) :
    (∃ f, e = .call s f args) ∨ ∃ r m, e = .method s r m args := by
  unfold apply at h
  split at h
  · cases h
    exact .inl ⟨_, rfl⟩
  · split at h
    · cases h
      exact .inr ⟨_, _, rfl⟩
    · cases h
    · cases h
  · cases h

def IsOperand (e : Expr) : Prop := (∃ s p, e = path s p) ∨ ∃ s v, e = literal s v

section

variable {cs ds : List Char} {tokens : List Token} {level : Level} {operands : List Operand}
  {o : Operand} {e : Expr} {offset : Nat}

theorem IsOperand.of_finish (he : e.IsOperand) (h : level.finish offset = .ok e) :
    ∃ o, level = ⟨[], [o]⟩ ∧ o.expr = e := by
  obtain ⟨stages, operands⟩ := level
  obtain ⟨stage, hstage, -, ⟨rfl, rfl⟩ | ⟨-, s, rfl⟩⟩ := exists_of_finish h
  · unfold Level.command at hstage
    split at hstage
    · cases hstage
    · next first hoperands =>
      cases hstage
      exact ⟨first, by rw [← List.reverse_reverse operands, hoperands]; rfl, rfl⟩
    · rcases apply_cases hstage with ⟨f, rfl⟩ | ⟨r, m, rfl⟩ <;>
        rcases he with ⟨_, _, he⟩ | ⟨_, _, he⟩ <;> cases he
  · rcases he with ⟨_, _, he⟩ | ⟨_, _, he⟩ <;> cases he

theorem IsOperand.exists_operand (he : e.IsOperand) (h : ofChars cs = .ok e) :
    ∃ o, ReadsOperands cs [o] ∧ o.expr = e := by
  obtain ⟨tokens, ⟨level, outer⟩, htokens, -, hrun, houter, hfinish⟩ := ofChars_eq_ok.1 h
  cases houter
  obtain ⟨o, rfl, ho⟩ := he.of_finish hfinish
  exact ⟨o, ⟨tokens, htokens, hrun⟩, ho⟩

theorem ReadsOperands.ofChars (h : ReadsOperands cs operands) (hne : operands ≠ [])
    (he : Level.finish ⟨[], operands⟩ (byteLength cs) = .ok e) : ofChars cs = .ok e := by
  obtain ⟨tokens, htokens, hrun⟩ := h
  refine ofChars_eq_ok.2 ⟨tokens, ⟨⟨[], operands⟩, []⟩, htokens, ?_, hrun, rfl, he⟩
  rintro rfl
  cases hrun
  exact hne rfl

theorem ReadsOperands.stop_le (h : ReadsOperands cs operands) :
    ∀ o ∈ operands.head?, o.span.stop ≤ byteLength cs := by
  intro o ho
  obtain ⟨tokens, htokens, hrun⟩ := h
  obtain ⟨before, rfl⟩ := List.head?_eq_some_iff.1 ho
  cases hrun.spelled with
  | @mk front command _ stages operands alone runs =>
    cases stages
    rw [List.reverse_cons] at operands
    obtain ⟨earlier, own, rfl, -, hown⟩ := operands.exists_of_snoc
    obtain ⟨-, last, hlast, hstop⟩ := hown.covers
    rw [← List.append_nil ([] ++ (earlier ++ own))] at htokens
    obtain ⟨text, rest, rfl, -, -, hend⟩ := (lexed_of_tokenize htokens).take
    have hstop' := hend last (by simp [List.getLast?_append, Option.mem_def.1 hlast])
    rw [byteLength_append]
    omega

theorem ReadsOperands.snoc (h : ReadsOperands cs operands) (ho : ReadsOperands ds [o]) :
    ReadsOperands (cs ++ ' ' :: ds) (o.shift (byteLength cs + 1) :: operands) := by
  have hstop := h.stop_le
  obtain ⟨tokens, htokens, hrun⟩ := h
  obtain ⟨own, hown, hrunOwn⟩ := ho
  let p : Place := { offset := byteLength cs + 1, base := ⟨[], operands⟩ }
  refine ⟨tokens ++ own.map (Token.shift p.offset), ?_, ?_⟩
  · have hbreaks : Breaks (' ' :: ds) := by simp [Breaks, IsBreak]
    have happend := tokenize_append hbreaks htokens 0
    rw [Nat.add_zero, Nat.zero_add, map_shift_zero, tokenize_blank,
      ← Nat.zero_add (byteLength cs + 1), tokenize_shift hown] at happend
    exact happend
  · have hkeeps : KeepsAll (p.base = {}) 0 own := (Reading.keepsAll_of_run hrunOwn (.inr rfl)).1
    have hclear : ∀ t ∈ own.head?, p.Clear {} t := by
      intro t _ _ _ o ho
      have hle := hstop o ho
      simp only [Token.shift, Span.shift, p]
      omega
    have hplaced := Reading.run_placed hkeeps hclear
    rw [hrunOwn] at hplaced
    rw [Runs, run_append hrun]
    exact hplaced

end

def indexCall (path : String) (keys : List String) : String :=
  keys.foldl (fun text key => text ++ " " ++ key) ("index " ++ path)

def bracketed (path : String) (keys : List String) : String :=
  keys.foldl (fun text key => text ++ "[" ++ key ++ "]") path

section

variable {cs : List Char} {operands : List Operand} {keys : List String} {s : Span} {p : Path}

theorem toList_indexCall (path : String) (keys : List String) :
    (indexCall path keys).toList =
      "index".toList ++ ' ' :: path.toList ++ keys.flatMap (' ' :: ·.toList) := by
  have hfold (text : String) :
      (keys.foldl (fun text key => text ++ " " ++ key) text).toList =
        text.toList ++ keys.flatMap (' ' :: ·.toList) := by
    induction keys generalizing text with
    | nil => simp
    | cons key keys ih => simp [ih]
  simp [indexCall, hfold]

theorem toList_bracketed (path : String) (keys : List String) :
    (bracketed path keys).toList =
      path.toList ++ keys.flatMap fun key => '[' :: (key.toList ++ [']']) := by
  unfold bracketed
  induction keys generalizing path with
  | nil => simp
  | cons key keys ih => simp [ih]

theorem ReadsOperands.append_keys (h : ReadsOperands cs operands)
    (hkeys : ∀ key ∈ keys, ∃ s v, parse key = .ok (.literal s v)) :
    ∃ more, ReadsOperands (cs ++ keys.flatMap (' ' :: ·.toList)) (more ++ operands) ∧
      more.length = keys.length ∧ ∀ o ∈ more, ∃ s v, o.expr = .literal s v := by
  induction keys generalizing cs operands with
  | nil => exact ⟨[], by simpa using h, rfl, by simp⟩
  | cons key keys ih =>
    rw [List.forall_mem_cons] at hkeys
    obtain ⟨⟨s, v, hkey⟩, hkeys⟩ := hkeys
    obtain ⟨o, ho, hexpr⟩ := IsOperand.exists_operand (.inr ⟨s, v, rfl⟩) hkey
    obtain ⟨more, hmore, hlength, hliterals⟩ := ih (h.snoc ho) hkeys
    refine ⟨more ++ [o.shift (byteLength cs + 1)], ?_, ?_, ?_⟩
    · simpa using hmore
    · simp [hlength]
    · intro o' ho'
      rcases List.mem_append.1 ho' with ho' | ho'
      · exact hliterals o' ho'
      · cases List.mem_singleton.1 ho'
        exact ⟨_, v, by rw [Operand.expr_shift, hexpr]; rfl⟩

theorem readsOperands_index : ReadsOperands "index".toList [.function ⟨0, 5⟩ "index"] := by
  have hread : readToken 0 'i' (['n', 'd', 'e', 'x'] ++ []) = .ok (.ident "index", []) :=
    (TokenRead.word (by decide) (by decide +kernel)).readToken_eq
  have htokens := tokenize_token (by decide +kernel) hread
  rw [tokenize] at htokens
  exact ⟨_, htokens, rfl⟩

theorem exists_indexCall {text : String} (hpath : parse text = .ok (.path s p))
    (hkeys : ∀ key ∈ keys, ∃ s v, parse key = .ok (.literal s v)) :
    ∃ s₁ s₂ args, parse (indexCall text keys) = .ok (.call s₁ "index" (.path s₂ p :: args)) ∧
      args.length = keys.length ∧ ∀ e ∈ args, ∃ s v, e = .literal s v := by
  obtain ⟨o, ho, hexpr⟩ := IsOperand.exists_operand (.inl ⟨s, p, rfl⟩) hpath
  obtain ⟨more, hmore, hlength, hliterals⟩ := (readsOperands_index.snoc ho).append_keys hkeys
  rw [← toList_indexCall] at hmore
  let value := o.shift (byteLength "index".toList + 1)
  have hvalue : value.expr = .path (s.shift (byteLength "index".toList + 1)) p := by
    rw [Operand.expr_shift, hexpr]
    rfl
  let last : Level := ⟨[], (more ++ [value]) ++ [.function ⟨0, 5⟩ "index"]⟩
  obtain ⟨s₁, hcall⟩ := last.endStage_function rfl (byteLength (indexCall text keys).toList)
  obtain ⟨e, he, ⟨-, rfl⟩ | ⟨hne, -⟩⟩ := finish_of_endStage hcall
  · rw [List.reverse_append, List.map_append, List.reverse_singleton, List.map_singleton, hvalue]
      at he
    refine ⟨s₁, _, more.reverse.map Operand.expr, ReadsOperands.ofChars ?_ (by simp) he, ?_, ?_⟩
    · rw [List.append_assoc]
      exact hmore
    · simpa using hlength
    · intro e he
      obtain ⟨o, ho, rfl⟩ := List.mem_map.1 he
      exact hliterals o (List.mem_reverse.1 ho)
  · exact absurd rfl hne

end

theorem quoteScan_indexRule :
    QuoteScan (fun _ => True) fun q cs q' => cs.foldlM indexRule.next? q = some q' where
  nil q := rfl
  append {q q' q'' cs ds} h h' := by
    rw [List.foldlM_append, h]
    exact h'
  plain {c} h := by
    obtain ⟨hquote, -, hbracket⟩ := h
    simp only [IsQuote, not_or] at hquote
    simp [BracketRule.next?, indexRule, hquote, hbracket]
  opens {c} h := by
    rcases h with rfl | rfl | rfl <;> rfl
  closes {c} h := by
    rcases h with rfl | rfl | rfl <;> rfl
  raw {c} h := by simp [BracketRule.next?, indexRule, h]
  backslash {quote} h := by
    rcases h with rfl | rfl <;> rfl
  escaped quote c := rfl
  inside {quote c} _ hc hslash _ := by simp [BracketRule.next?, hc, hslash]

def Operand.Takes (o : Operand) (p : Path) (segments : List Segment) : Prop :=
  (∃ s, o = .path s ⟨p.root, p.segments ++ segments⟩) ∨ ∃ s s', o = .paren s (.path s' p) segments

section

variable {cs : List Char} {tokens : List Token} {o : Operand} {e : Expr} {keys : List String}
  {s : Span} {v : Literal} {p : Path} {segments : List Segment}

theorem not_index_of_reads (h : Reads tokens (.literal s v)) :
    ∀ t ∈ tokens, ∀ key, t.kind ≠ .index key := by
  induction hlength : tokens.length using Nat.strong_induction_on generalizing tokens s with
  | _ n ih =>
    obtain ⟨level, hruns, hfinish⟩ := h
    obtain ⟨o, rfl, ho⟩ := IsOperand.of_finish (.inr ⟨s, v, rfl⟩) (hfinish 0)
    have hspelled : o.Spelled tokens := by
      cases hruns.spelled with
      | mk stages operands alone runs =>
        cases stages
        cases operands with
        | cons hfirst hrest =>
          cases hrest
          simpa using hfirst
    cases hspelled with
    | @token t _ taken =>
      obtain ⟨kind, span⟩ := t
      cases kind <;> cases taken <;> cases ho
      simp
    | @paren first last own inner opens closes reads =>
      have hinner : ∃ s', inner = .literal s' v := by
        cases inner <;> cases ho
        exact ⟨_, rfl⟩
      obtain ⟨s', rfl⟩ := hinner
      have hown := ih own.length (by simp at hlength; omega) reads rfl
      intro t ht key
      rcases List.mem_cons.1 ht with rfl | ht
      · simp [opens]
      · rcases List.mem_append.1 ht with ht | ht
        · exact hown t ht key
        · cases List.mem_singleton.1 ht
          simp [closes]
    | @longer _ t o' _ segment _ _ _ extended =>
      cases o' with
      | path | function | literal => cases extended <;> cases ho
      | paren s' inner own =>
        cases extended
        cases own <;> cases ho

theorem closes_of_literal (h : ofChars cs = .ok (.literal s v)) :
    indexRule.Closes cs ∧ trim cs ≠ [] := by
  obtain ⟨tokens, ⟨level, outer⟩, htokens, hne, hrun, houter, hfinish⟩ := ofChars_eq_ok.1 h
  cases houter
  have hruns : Runs tokens level := hrun
  have hindex := not_index_of_reads (hruns.reads hfinish)
  exact ⟨quoteScan_indexRule.of_lexed (lexed_of_tokenize htokens) (.inr hindex) (by simp),
    trim_ne_nil_of_tokenize htokens hne⟩

theorem Operand.takes_nil (h : o.expr = .path s p) : o.Takes p [] := by
  cases o with
  | path s' p' =>
    cases h
    exact .inl ⟨s, by simp⟩
  | function | literal => cases h
  | paren s' inner own =>
    cases own with
    | cons => cases h
    | nil =>
      cases inner <;> cases h
      exact .inr ⟨_, _, rfl⟩

theorem Operand.Takes.extend? (h : o.Takes p segments) (segment : Segment) (stop : Nat) :
    ∃ longer, o.extend? segment stop = .ok (some longer) ∧
      longer.Takes p (segments ++ [segment]) := by
  rcases h with ⟨s, rfl⟩ | ⟨s, s', rfl⟩
  · exact ⟨_, rfl, .inl ⟨_, by rw [List.append_assoc]⟩⟩
  · exact ⟨_, rfl, .inr ⟨_, _, rfl⟩⟩

theorem Operand.Takes.exists_typeIn (h : o.Takes p segments) (env : Env) (funcs : FuncTable) :
    ∃ depth, o.expr.typeIn env funcs = env.operand p >>= fun t =>
      (t.descend depth segments).mapError ExprError.resolve := by
  rcases h with ⟨s, rfl⟩ | ⟨s, s', rfl⟩
  · refine ⟨p.segments.length, ?_⟩
    rw [expr, typeIn]
    exact env.operand_append p segments
  · refine ⟨0, ?_⟩
    cases segments with
    | nil =>
      rw [expr, typeIn_withSpan, typeIn]
      exact (bind_pure (env.operand p)).symm
    | cons segment segments =>
      rw [expr, typeIn, typeIn]
      · refine bind_congr fun t => ?_
        cases t.descend 0 (segment :: segments) <;> rfl
      · exact List.cons_ne_nil segment segments

theorem ReadsOperands.append_brackets (h : ReadsOperands cs [o])
    (hstop : o.span.stop = byteLength cs) (ho : o.Takes p segments)
    (hkeys : ∀ key ∈ keys, ∃ s v, parse key = .ok (.literal s v)) :
    ∃ (o' : Operand) (texts : List String),
      ReadsOperands (cs ++ keys.flatMap fun key => '[' :: (key.toList ++ [']'])) [o'] ∧
      texts.length = keys.length ∧ o'.Takes p (segments ++ texts.map .index) := by
  induction keys generalizing cs o segments with
  | nil => exact ⟨o, [], by simpa using h, rfl, by simpa using ho⟩
  | cons key keys ih =>
    rw [List.forall_mem_cons] at hkeys
    obtain ⟨⟨s, v, hkey⟩, hkeys⟩ := hkeys
    obtain ⟨hcloses, htrim⟩ := closes_of_literal hkey
    obtain ⟨tokens, htokens, hrun⟩ := h
    let bracket := '[' :: (key.toList ++ [']'])
    let text := String.ofList (trim key.toList)
    let t : Token := ⟨.index text, ⟨byteLength cs, byteLength cs + byteLength bracket⟩⟩
    obtain ⟨longer, hlonger, htakes⟩ := ho.extend? (.index text) t.span.stop
    have hreads : ReadsOperands (cs ++ bracket) [longer] := by
      refine ⟨tokens ++ [t], ?_, hrun.operand ?_⟩
      · have hbreaks : Breaks bracket := by simp [bracket, Breaks, IsBreak]
        have happend := tokenize_append hbreaks htokens 0
        have hindex : tokenize (byteLength cs) ('[' :: (key.toList ++ ']' :: []) ++ []) = _ :=
          tokenize_index hcloses htrim
        rw [List.append_nil, List.append_nil, tokenize] at hindex
        rw [Nat.add_zero, Nat.zero_add, map_shift_zero, hindex] at happend
        exact happend
      · rw [Level.operand_eq_extend rfl rfl hstop, hlonger]
        rfl
    have hstop' : longer.span.stop = byteLength (cs ++ bracket) := by
      rw [Operand.span_extend? hlonger, byteLength_append]
    obtain ⟨o', texts, ho', hlength, htakes'⟩ := ih hreads hstop' htakes hkeys
    refine ⟨o', text :: texts, ?_, congrArg (· + 1) hlength, ?_⟩
    · simpa [bracket] using ho'
    · simpa using htakes'

theorem exists_bracketed {text : String} (hpath : parse text = .ok (.path s p))
    (hstop : s.stop = text.utf8ByteSize)
    (hkeys : ∀ key ∈ keys, ∃ s v, parse key = .ok (.literal s v)) :
    ∃ (e : Expr) (texts : List String), parse (bracketed text keys) = .ok e ∧
      texts.length = keys.length ∧ ∀ env funcs, ∃ depth, e.typeIn env funcs =
        env.operand p >>= fun t =>
          (t.descend depth (texts.map .index)).mapError ExprError.resolve := by
  obtain ⟨o, ho, hexpr⟩ := IsOperand.exists_operand (.inl ⟨s, p, rfl⟩) hpath
  have hspan : o.span.stop = byteLength text.toList := by
    rw [← o.span_expr, hexpr, ← utf8ByteSize_eq]
    exact hstop
  obtain ⟨o', texts, ho', hlength, htakes⟩ :=
    ho.append_brackets hspan (Operand.takes_nil hexpr) hkeys
  rw [← toList_bracketed] at ho'
  exact ⟨o'.expr, texts, ho'.ofChars (by simp) rfl, hlength, htakes.exists_typeIn⟩

end

/-- The two forms of indexing agree in every scope whose types are put together by the constructors:
for every path and as many keys as there are literals, and so for the texts of the two forms, which
are both read. -/
theorem index_call_agrees_with_brackets {env : Env} (henv : env.Built) :
    (∀ (p : Path) (args : List Expr) (keys : List String) (s s' s'' : Span),
      (∀ e ∈ args, e.isLiteral = true) → keys.length = args.length →
      Agree InferredType.isUnknown ((call s "index" (path s' p :: args)).infer env .builtins)
        ((path s'' (p.indexed keys)).infer env .builtins)) ∧
    ∀ (text : String) (s : Span) (p : Path) (keys : List String),
      parse text = .ok (.path s p) → s.stop = text.utf8ByteSize →
      (∀ key ∈ keys, ∃ e, parse key = .ok e ∧ e.isLiteral = true) →
      (∃ e, parse (indexCall text keys) = .ok e) ∧ (∃ e, parse (bracketed text keys) = .ok e) ∧
        Agree InferredType.isUnknown (inferText env .builtins (indexCall text keys))
          (inferText env .builtins (bracketed text keys)) := by
  constructor
  · intro p args keys s s' s'' hargs hlength
    rw [infer_path_indexed]
    exact infer_index_agree henv (fun e he => exists_of_isLiteral (hargs e he)) hlength s s'
      p.segments.length
  · intro text s p keys hpath hstop hkeys
    replace hkeys : ∀ key ∈ keys, ∃ s v, parse key = .ok (.literal s v) := by
      intro key hkey
      obtain ⟨e, hparse, he⟩ := hkeys key hkey
      obtain ⟨s, v, rfl⟩ := exists_of_isLiteral he
      exact ⟨s, v, hparse⟩
    obtain ⟨s₁, s₂, args, hcall, hargs, hliterals⟩ := exists_indexCall hpath hkeys
    obtain ⟨e, texts, hbrackets, htexts, htype⟩ := exists_bracketed hpath hstop hkeys
    obtain ⟨depth, htype⟩ := htype env .builtins
    refine ⟨⟨_, hcall⟩, ⟨e, hbrackets⟩, ?_⟩
    have hinfer : inferText env .builtins (bracketed text keys) = (env.operand p >>= fun t =>
        (t.descend depth (texts.map .index)).mapError ExprError.resolve).map .ofNode := by
      rw [inferText_of_parse hbrackets, infer, htype]
    rw [hinfer, inferText_of_parse hcall]
    exact infer_index_agree henv hliterals (htexts.trans hargs.symm) s₁ s₂ depth

theorem index_call_agrees_with_brackets_of_quoted_bracket :
    let env := Env.ofType
      (.root [.slice "Rows" (.map "" (.scalar "" "string") (.scalar "" "string"))])
    let keys := ["1", "`a]b`", "']'"]
    indexCall ".Rows" keys = "index .Rows 1 `a]b` ']'" ∧
      bracketed ".Rows" keys = ".Rows[1][`a]b`][']']" ∧
      (inferText env .builtins (bracketed ".Rows" keys)).toOption.map InferredType.label =
        some "uint8" ∧
      Agree InferredType.isUnknown (inferText env .builtins (indexCall ".Rows" keys))
        (inferText env .builtins (bracketed ".Rows" keys)) := by
  intro env keys
  have henv : env.Built := by
    have hroot : env.root.Built := by
      refine .root ?_
      intro v hv
      cases List.mem_singleton.1 hv
      exact .slice "Rows" (.map "" (.scalar "" "string") (.scalar "" "string"))
    exact ⟨hroot, hroot, by rintro name ref ⟨⟩⟩
  have hpath : (parse ".Rows").toOption.map (fun e => (e.asPath?, e.span.stop)) =
      some (some ⟨.dot, [.field "Rows"]⟩, 5) := by
    decide +kernel
  have hkeys : ∀ key ∈ keys, (parse key).toOption.map isLiteral = some true := by decide +kernel
  obtain ⟨e, hparse, he⟩ := map_toOption_eq_some.1 hpath
  cases e with
  | path s p =>
    have hstop : s.stop = ".Rows".utf8ByteSize := congrArg Prod.snd he
    have hagree := (index_call_agrees_with_brackets henv).2 ".Rows" s p keys hparse hstop
      fun key hkey => map_toOption_eq_some.1 (hkeys key hkey)
    exact ⟨by decide +kernel, by decide +kernel, by decide +kernel, hagree.2.2⟩
  | literal | call | method | chain | pipeline => cases he

end Expr
end TemplateLint
