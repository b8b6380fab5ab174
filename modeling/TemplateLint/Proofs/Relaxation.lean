import Mathlib.Data.List.Forall2
import TemplateLint.Proofs.Reporting

/-! Types that say less: parts of a type give way to types that accept everything. Whatever resolves
or has a type keeps doing so, and what it comes to says no more than before. -/
namespace TemplateLint

namespace TypeNode

inductive Alike (R : TypeNode → TypeNode → Prop) : TypeNode → TypeNode → Prop where
  | mk {name name' label : String} {isSlice isMap : Bool} {elem elem' key : Option TypeNode}
      {fields fields' : List TypeNode} (elems : Option.Rel R elem elem')
      (each : List.Forall₂ R fields fields') :
      Alike R ⟨name, label, isSlice, isMap, elem, key, fields⟩
        ⟨name', label, isSlice, isMap, elem', key, fields'⟩

/-- The second type is the first one with any parts of it, fields and elements at any depth or the
type itself, replaced by scalars of the same name that accept everything. -/
inductive Relaxes : TypeNode → TypeNode → Prop where
  | replaced (t : TypeNode) {label : String} (permissive : label ∈ permissiveLabels) :
      Relaxes t (scalar t.name label)
  | kept {t t' : TypeNode} (named : t.name = t'.name) (alike : Alike Relaxes t t') : Relaxes t t'

def Looser (t t' : TypeNode) : Prop := t'.isUnknown = true ∨ Alike Relaxes t t'

variable {t t' : TypeNode}

theorem isUnknown_scalar {name label : String} (h : label ∈ permissiveLabels) :
    (scalar name label).isUnknown = true := by
  have hall : ∀ label ∈ permissiveLabels, (scalar "" label).isUnknown = true := by decide +kernel
  exact hall label h

theorem Relaxes.name_eq (h : t.Relaxes t') : t.name = t'.name := by
  cases h with
  | replaced => rfl
  | kept named => exact named

theorem Relaxes.looser (h : t.Relaxes t') : t.Looser t' := by
  cases h with
  | replaced _ permissive => exact .inl (isUnknown_scalar permissive)
  | kept _ alike => exact .inr alike

theorem looser_unknown : t.Looser unknown := .inl (isUnknown_scalar List.mem_cons_self)

theorem looser_scalar (name label : String) : (scalar name label).Looser (scalar name label) :=
  .inr (.mk .none .nil)

theorem Looser.withName (h : t.Looser t') (name : String) :
    (t.withName name).Looser (t'.withName name) := by
  refine h.imp id ?_
  rintro ⟨elems, each⟩
  exact .mk elems each

namespace Alike

variable (h : Alike Relaxes t t')
include h

theorem label_eq : t.label = t'.label := by
  cases h
  rfl

theorem isMap_eq : t.isMap = t'.isMap := by
  cases h
  rfl

theorem isIterable_eq : t.isIterable = t'.isIterable := by
  cases h
  rfl

theorem isUnknown_eq : t.isUnknown = t'.isUnknown := by
  cases h with
  | mk _ each => cases each <;> rfl

theorem elementOrUnknown : t.elementOrUnknown.Looser t'.elementOrUnknown := by
  cases h with
  | mk elems each =>
    unfold TypeNode.elementOrUnknown element? isIterable
    dsimp only
    split
    · cases elems with
      | some relaxes => exact relaxes.looser
      | none => exact looser_unknown
    · exact looser_unknown

theorem field? (name : String) : Option.Rel Relaxes (t.field? name) (t'.field? name) := by
  cases h with
  | mk _ each =>
    unfold TypeNode.field?
    dsimp only
    induction each with
    | nil => exact .none
    | @cons f f' _ _ relaxes _ ih =>
      rw [List.find?_cons, List.find?_cons, relaxes.name_eq]
      split
      · exact .some relaxes
      · exact ih

end Alike

/-- How a path fares with looser types. Where it failed, it fails for the same reason, or it comes
through a type that accepts everything and ends in one. -/
inductive Follows : Except ResolveError TypeNode → Except ResolveError TypeNode → Prop where
  | found {t t' : TypeNode} (looser : t.Looser t') : Follows (.ok t) (.ok t')
  | failed {e : ResolveError} : Follows (.error e) (.error e)
  | opened {e : ResolveError} {t' : TypeNode} (unknown : t'.isUnknown = true) :
      Follows (.error e) (.ok t')

theorem follows_of_isUnknown (x : Except ResolveError TypeNode) (h : t'.isUnknown = true) :
    Follows x (.ok t') := by
  cases x with
  | ok => exact .found (.inl h)
  | error => exact .opened h

section

variable {segment : Segment} {depth : Nat}

theorem step_of_isUnknown (h : t.isUnknown = true) : t.step segment depth = .ok unknown := by
  unfold step
  rw [if_pos h]

theorem exists_descend_of_isUnknown (h : t.isUnknown = true) (segments : List Segment) :
    ∃ u, t.descend depth segments = .ok u ∧ u.isUnknown = true := by
  induction segments generalizing t depth with
  | nil => exact ⟨t, rfl, h⟩
  | cons segment segments ih =>
    rw [descend, step_of_isUnknown h]
    exact ih (isUnknown_scalar List.mem_cons_self)

theorem Looser.step (h : t.Looser t') (segment : Segment) (depth : Nat) :
    Follows (t.step segment depth) (t'.step segment depth) := by
  rcases h with h | h
  · rw [step_of_isUnknown h]
    exact follows_of_isUnknown _ (isUnknown_scalar List.mem_cons_self)
  · unfold TypeNode.step
    rw [← h.isUnknown_eq, ← h.isMap_eq, ← h.isIterable_eq, ← h.label_eq]
    split
    · exact .found looser_unknown
    · cases segment with
      | field name =>
        dsimp only
        have hfield := h.field? name
        generalize t.field? name = field, t'.field? name = field' at hfield ⊢
        cases hfield with
        | some relaxes => exact .found relaxes.looser
        | none =>
          dsimp only
          split
          · exact .found h.elementOrUnknown
          · exact .failed
      | index key =>
        dsimp only
        split
        · exact .found h.elementOrUnknown
        · split
          · exact .found (looser_scalar _ _)
          · exact .failed

theorem Looser.descend (h : t.Looser t') (depth : Nat) (segments : List Segment) :
    Follows (t.descend depth segments) (t'.descend depth segments) := by
  induction segments generalizing t t' depth with
  | nil => exact .found h
  | cons segment segments ih =>
    rw [TypeNode.descend, TypeNode.descend]
    have hstep := h.step segment depth
    generalize t.step segment depth = next, t'.step segment depth = next' at hstep ⊢
    cases hstep with
    | found looser => exact ih looser (depth + 1)
    | failed => exact .failed
    | opened unknown =>
      obtain ⟨u, hu, hunknown⟩ := exists_descend_of_isUnknown unknown segments
      dsimp only
      rw [hu]
      exact .opened hunknown

end

end TypeNode

def ExprError.isArity : ExprError → Bool
  | .arity .. => true
  | .malformed _ | .resolve _ | .notIndexable .. => false

/-- How the inference of a type fares with looser types: it keeps succeeding, and a call with the
wrong number of arguments stays one. Of other failures nothing is said. -/
inductive Tracks {α : Type} (R : α → α → Prop) :
    Except ExprError α → Except ExprError α → Prop where
  | ok {a a' : α} (related : R a a') : Tracks R (.ok a) (.ok a')
  | arity {func : String} {expected : Arity} {found : Nat} :
      Tracks R (.error (.arity func expected found)) (.error (.arity func expected found))
  | other {e : ExprError} {x : Except ExprError α} (differs : e.isArity = false) :
      Tracks R (.error e) x

section

variable {α : Type} {R : α → α → Prop} {x : Except ExprError α}

theorem Tracks.exists_ok {a : α} (h : Tracks R (.ok a) x) : ∃ a', x = .ok a' ∧ R a a' := by
  cases h with
  | ok related => exact ⟨_, rfl, related⟩

theorem Tracks.eq_arity {func : String} {expected : Arity} {found : Nat}
    (h : Tracks R (.error (.arity func expected found)) x) :
    x = .error (.arity func expected found) := by
  cases h with
  | arity => rfl
  | other differs => cases differs

end

theorem Tracks.bind {α β : Type} {R : α → α → Prop} {S : β → β → Prop} {x x' : Except ExprError α}
    {f f' : α → Except ExprError β} (h : Tracks R x x')
    (hf : ∀ a a', R a a' → Tracks S (f a) (f' a')) : Tracks S (x >>= f) (x' >>= f') := by
  cases h with
  | ok related => exact hf _ _ related
  | arity => exact .arity
  | other differs => exact .other differs

namespace TypeNode

variable {t t' : TypeNode} {keys keys' : List TypeNode}

theorem Looser.indexWith (h : t.Looser t') (key key' : TypeNode) :
    Tracks Looser (t.indexWith key) (t'.indexWith key') := by
  unfold TypeNode.indexWith
  rcases h with h | h
  · rw [if_pos h]
    split
    · exact .ok (.inl h)
    · split
      · exact .ok (.inl h)
      · split
        · exact .ok (.inl h)
        · exact .other rfl
  · rw [← h.isUnknown_eq, ← h.label_eq, ← h.isIterable_eq]
    split
    · exact .ok (.inr h)
    · split
      · exact .ok (looser_scalar _ _)
      · split
        · exact .ok h.elementOrUnknown
        · exact .other rfl

theorem Looser.indexWithAll (h : t.Looser t') (hkeys : List.Forall₂ Looser keys keys') :
    Tracks Looser (t.indexWithAll keys) (t'.indexWithAll keys') := by
  induction hkeys generalizing t t' with
  | nil => exact .ok h
  | @cons key key' _ _ _ _ ih =>
    have hindex := h.indexWith key key'
    rw [TypeNode.indexWithAll, TypeNode.indexWithAll]
    generalize t.indexWith key = next, t'.indexWith key' = next' at hindex ⊢
    cases hindex with
    | ok looser => exact ih looser
    | arity => exact .arity
    | other differs => exact .other differs

end TypeNode

open TypeNode (Looser)

section

variable {ts ts' : List TypeNode}

theorem ReturnRule.tracks_result (rule : ReturnRule) (h : List.Forall₂ Looser ts ts') :
    Tracks Looser (rule.result ts) (rule.result ts') := by
  cases rule with
  | fixed label => exact .ok (TypeNode.looser_scalar _ _)
  | unknown => exact .ok TypeNode.looser_unknown
  | firstArg =>
    cases h with
    | nil => exact .ok TypeNode.looser_unknown
    | cons looser _ => exact .ok looser
  | element =>
    cases h with
    | nil => exact .ok TypeNode.looser_unknown
    | cons looser more => exact looser.indexWithAll more

theorem FuncTable.tracks_call (funcs : FuncTable) (func : String) (h : List.Forall₂ Looser ts ts') :
    Tracks Looser (funcs.call func ts) (funcs.call func ts') := by
  unfold call
  rw [h.length_eq]
  split
  · exact .ok TypeNode.looser_unknown
  · split
    · exact ReturnRule.tracks_result _ h
    · exact .arity

end

def TypeRef.Looser (root root' : TypeNode) (ref ref' : TypeRef) : Prop :=
  (ref.type root).Looser (ref'.type root')

structure Env.Looser (env env' : Env) : Prop where
  root : env.root.Looser env'.root
  dot : TypeRef.Looser env.root env'.root env.dot env'.dot
  var : ∀ name,
    Option.Rel (TypeRef.Looser env.root env'.root) (env.var? name) (env'.var? name)

namespace Env.Looser

variable {env env' : Env} (h : env.Looser env')
include h

theorem typeOf (p : Path) : TypeNode.Follows (env.typeOf p) (env'.typeOf p) := by
  rw [typeOf_eq, typeOf_eq]
  cases p.root with
  | dot => exact TypeNode.Looser.descend h.dot 0 p.segments
  | root => exact h.root.descend 0 p.segments
  | var name =>
    have hvar := h.var name
    unfold base
    dsimp only
    generalize env.var? name = ref, env'.var? name = ref' at hvar ⊢
    cases hvar with
    | some looser => exact TypeNode.Looser.descend looser 0 p.segments
    | none => exact .failed

theorem exists_resolve {p : Path} {ref : TypeRef} (hp : env.resolve p = .ok ref) :
    ∃ ref', env'.resolve p = .ok ref' ∧ TypeRef.Looser env.root env'.root ref ref' := by
  have htype := h.typeOf p
  unfold Env.typeOf at htype
  rw [hp] at htype
  cases hp' : env'.resolve p with
  | ok ref' =>
    rw [hp'] at htype
    cases htype with
    | found looser => exact ⟨ref', rfl, looser⟩
  | error e =>
    rw [hp'] at htype
    cases htype

theorem resolve_eq_error {p : Path} {e : ResolveError} (hp : env.resolve p = .error e) :
    env'.resolve p = .error e ∨
      ∃ ref', env'.resolve p = .ok ref' ∧ (ref'.type env'.root).isUnknown = true := by
  have htype := h.typeOf p
  unfold Env.typeOf at htype
  rw [hp] at htype
  cases hp' : env'.resolve p with
  | ok ref' =>
    rw [hp'] at htype
    cases htype with
    | opened unknown => exact .inr ⟨ref', rfl, unknown⟩
  | error e' =>
    rw [hp'] at htype
    cases htype
    exact .inl rfl

theorem operand (p : Path) :
    Tracks TypeNode.Looser (env.operand p) (env'.operand p) := by
  have htype := h.typeOf p
  unfold Env.operand
  generalize env.typeOf p = x, env'.typeOf p = x' at htype ⊢
  cases htype with
  | found looser => exact .ok looser
  | failed => exact .other rfl
  | opened => exact .other rfl

end Env.Looser

namespace Expr

variable {env env' : Env} {funcs : FuncTable}

theorem tracks_typesIn {es : List Expr}
    (h : ∀ e ∈ es, Tracks Looser (e.typeIn env funcs) (e.typeIn env' funcs)) :
    Tracks (List.Forall₂ Looser) (typesIn env funcs es) (typesIn env' funcs es) := by
  induction es with
  | nil => exact .ok .nil
  | cons e es ih =>
    rw [List.forall_mem_cons] at h
    rw [typesIn, typesIn]
    refine h.1.bind fun t t' ht => (ih h.2).bind fun ts ts' hts => ?_
    exact .ok (.cons ht hts)

theorem tracks_stagesIn {stages : List Expr} {input input' : TypeNode}
    (h : ∀ e ∈ stages, ∀ input input', input.Looser input' →
      Tracks Looser (stageIn env funcs input e) (stageIn env' funcs input' e))
    (hinput : input.Looser input') :
    Tracks Looser (stagesIn env funcs input stages) (stagesIn env' funcs input' stages) := by
  induction stages generalizing input input' with
  | nil => exact .ok hinput
  | cons stage stages ih =>
    rw [List.forall_mem_cons] at h
    rw [stagesIn, stagesIn]
    exact (h.1 _ _ hinput).bind fun next next' hnext => ih h.2 hnext

/-- Both as an expression and as a later stage of a pipeline. -/
theorem tracks_typeIn (funcs : FuncTable) (henv : env.Looser env') (e : Expr) :
    Tracks Looser (e.typeIn env funcs) (e.typeIn env' funcs) ∧
      ∀ input input', input.Looser input' →
        Tracks Looser (stageIn env funcs input e) (stageIn env' funcs input' e) := by
  induction e with
  | path s p =>
    refine ⟨henv.operand p, ?_⟩
    intro input input' _
    rw [stageIn, stageIn]
    exact (henv.operand _).bind fun _ _ _ => .ok TypeNode.looser_unknown
  | literal s v =>
    refine ⟨.ok (TypeNode.looser_scalar _ _), ?_⟩
    intro input input' _
    exact .other rfl
  | call s f args ih =>
    have hargs := tracks_typesIn fun e he => (ih e he).1
    constructor
    · rw [typeIn, typeIn]
      exact hargs.bind fun ts ts' hts => funcs.tracks_call f hts
    · intro input input' hinput
      rw [stageIn, stageIn]
      exact hargs.bind fun ts ts' hts => funcs.tracks_call f (.cons hinput hts)
  | method s r m args ih =>
    have hargs := tracks_typesIn fun e he => (ih e he).1
    have htype : Tracks Looser (typeIn env funcs (.method s r m args))
        (typeIn env' funcs (.method s r m args)) := by
      rw [typeIn, typeIn]
      refine (henv.operand r).bind fun _ _ _ => hargs.bind fun _ _ _ => ?_
      exact .ok TypeNode.looser_unknown
    refine ⟨htype, ?_⟩
    intro input input' _
    rw [stageIn_method, stageIn_method]
    exact htype
  | chain s base segments ih =>
    constructor
    · rw [typeIn, typeIn]
      refine ih.1.bind fun t t' ht => ?_
      have hdescend := ht.descend 0 segments
      generalize t.descend 0 segments = x, t'.descend 0 segments = x' at hdescend ⊢
      cases hdescend with
      | found looser => exact .ok looser
      | failed => exact .other rfl
      | opened => exact .other rfl
    · intro input input' _
      exact .other rfl
  | pipeline s stages ih =>
    constructor
    · cases stages with
      | nil => exact .ok TypeNode.looser_unknown
      | cons first stages =>
        rw [List.forall_mem_cons] at ih
        rw [typeIn, typeIn]
        exact ih.1.1.bind fun t t' ht => tracks_stagesIn (fun e he => (ih.2 e he).2) ht
    · intro input input' _
      exact .other rfl

theorem exists_infer_of_looser (henv : env.Looser env') {e : Expr} {t : InferredType}
    (h : e.infer env funcs = .ok t) :
    ∃ t', e.infer env' funcs = .ok t' ∧ t.toNode.Looser t'.toNode := by
  obtain ⟨u, hu, rfl⟩ := infer_eq_ok.1 h
  have htracks := (tracks_typeIn funcs henv e).1
  rw [hu] at htracks
  obtain ⟨u', hu', hlooser⟩ := htracks.exists_ok
  exact ⟨_, infer_eq_ok.2 ⟨u', hu', rfl⟩, hlooser.withName ""⟩

theorem infer_arity_of_looser (henv : env.Looser env') {e : Expr} {func : String} {expected : Arity}
    {found : Nat} (h : e.infer env funcs = .error (.arity func expected found)) :
    e.infer env' funcs = .error (.arity func expected found) := by
  rw [infer_eq_error] at h ⊢
  have htracks := (tracks_typeIn funcs henv e).1
  rw [h] at htracks
  exact htracks.eq_arity

theorem exists_inferText_of_looser (henv : env.Looser env') {text : String} {t : InferredType}
    (h : inferText env funcs text = .ok t) :
    ∃ t', inferText env' funcs text = .ok t' ∧ t.toNode.Looser t'.toNode := by
  unfold inferText at h ⊢
  split at h
  · cases h
  · exact exists_infer_of_looser henv h

end Expr
end TemplateLint
