import TemplateLint.Resolve

/-! How paths resolve: one segment after the other, so that a path fails where its first bad segment
stands and everything before that segment resolves. -/
namespace TemplateLint

section

variable {ε α β : Type} {x : Except ε α} {f : α → Except ε β}

theorem bind_eq_ok {b : β} : x >>= f = .ok b ↔ ∃ a, x = .ok a ∧ f a = .ok b := by
  cases x <;> simp [Bind.bind, Except.bind]

theorem bind_eq_error {e : ε} :
    x >>= f = .error e ↔ x = .error e ∨ ∃ a, x = .ok a ∧ f a = .error e := by
  cases x <;> simp [Bind.bind, Except.bind]

theorem map_eq_ok {g : α → β} {b : β} : x.map g = .ok b ↔ ∃ a, x = .ok a ∧ g a = b := by
  cases x <;> simp [Except.map]

theorem map_eq_error {g : α → β} {e : ε} : x.map g = .error e ↔ x = .error e := by
  cases x <;> simp [Except.map]

theorem toOption_eq_some {a : α} : x.toOption = some a ↔ x = .ok a := by
  cases x <;> simp [Except.toOption]

theorem map_toOption_eq_some {g : α → β} {b : β} :
    x.toOption.map g = some b ↔ ∃ a, x = .ok a ∧ g a = b := by
  cases x <;> simp [Except.toOption]

end

namespace TypeNode

variable {t u : TypeNode} {segment : Segment} {segments : List Segment} {depth : Nat}
  {e : ResolveError}

theorem depth?_of_step (h : t.step segment depth = .error e) : e.depth? = some depth := by
  unfold step at h
  repeat' split at h
  all_goals cases h
  all_goals rfl

theorem descend_append (t : TypeNode) (depth : Nat) (front back : List Segment) :
    t.descend depth (front ++ back) =
      t.descend depth front >>= fun u => u.descend (depth + front.length) back := by
  induction front generalizing t depth with
  | nil => rfl
  | cons segment front ih =>
    simp only [List.cons_append, descend, List.length_cons]
    cases t.step segment depth with
    | error e => rfl
    | ok next =>
      dsimp only
      rw [ih, Nat.add_right_comm, Nat.add_assoc]

theorem exists_of_descend_eq_error (h : t.descend depth segments = .error e) :
    ∃ front segment back u, segments = front ++ segment :: back ∧ t.descend depth front = .ok u ∧
      u.step segment (depth + front.length) = .error e := by
  induction segments generalizing t depth with
  | nil => cases h
  | cons segment segments ih =>
    rw [descend] at h
    split at h
    · next err hstep =>
      cases h
      exact ⟨[], segment, segments, t, rfl, rfl, hstep⟩
    · next next hstep =>
      obtain ⟨front, bad, back, u, rfl, hfront, hbad⟩ := ih h
      refine ⟨segment :: front, bad, back, u, rfl, ?_, ?_⟩
      · rw [descend, hstep]
        exact hfront
      · rwa [List.length_cons, Nat.add_comm front.length, ← Nat.add_assoc]

theorem descend_append_of_step_eq_error {front back : List Segment}
    (hfront : t.descend depth front = .ok u)
    (hstep : u.step segment (depth + front.length) = .error e) :
    t.descend depth (front ++ segment :: back) = .error e := by
  rw [descend_append, hfront]
  change u.descend (depth + front.length) (segment :: back) = .error e
  rw [descend, hstep]

end TypeNode

namespace Env

variable {env : Env} {p : Path} {e : ResolveError}

def Resolves (env : Env) (p : Path) : Prop := ∃ ref, env.resolve p = .ok ref

theorem typeOf_eq (env : Env) (p : Path) :
    env.typeOf p =
      env.base p.root >>= fun ref => (ref.type env.root).descend 0 p.segments := by
  unfold typeOf resolve
  cases env.base p.root with
  | error e => rfl
  | ok ref =>
    cases p.segments with
    | nil => rfl
    | cons segment segments =>
      dsimp only
      change _ = (ref.type env.root).descend 0 (segment :: segments)
      cases (ref.type env.root).descend 0 (segment :: segments) <;> rfl

theorem resolve_eq_error : env.resolve p = .error e ↔ env.typeOf p = .error e :=
  map_eq_error.symm

theorem resolves_iff : env.Resolves p ↔ ∃ t, env.typeOf p = .ok t := by
  unfold Resolves typeOf
  simp only [map_eq_ok, exists_comm, exists_and_left, exists_eq', and_true]

theorem resolves_dot (env : Env) : env.Resolves .dot := ⟨env.dot, rfl⟩

theorem Resolves.take (h : env.Resolves p) (n : Nat) : env.Resolves (p.take n) := by
  rw [resolves_iff] at h ⊢
  obtain ⟨t, ht⟩ := h
  rw [typeOf_eq, bind_eq_ok] at ht
  obtain ⟨ref, hbase, hdescend⟩ := ht
  rw [← List.take_append_drop n p.segments, TypeNode.descend_append, bind_eq_ok] at hdescend
  obtain ⟨u, hu, -⟩ := hdescend
  refine ⟨u, ?_⟩
  rw [typeOf_eq]
  exact bind_eq_ok.2 ⟨ref, hbase, hu⟩

theorem depth?_of_resolves_take (hreceiver : env.Resolves (p.take (p.segments.length - 1)))
    (h : env.resolve p = .error e) : e.depth? = some (p.segments.length - 1) := by
  rw [resolves_iff] at hreceiver
  obtain ⟨t, ht⟩ := hreceiver
  rw [typeOf_eq, bind_eq_ok] at ht
  obtain ⟨ref, hbase, hreceiver⟩ := ht
  change env.base p.root = .ok ref at hbase
  change (ref.type env.root).descend 0 (p.segments.take _) = .ok t at hreceiver
  rw [resolve_eq_error, typeOf_eq, hbase] at h
  obtain ⟨front, bad, back, u, hsegments, hfront, hbad⟩ := TypeNode.exists_of_descend_eq_error h
  rw [hsegments] at hreceiver ⊢
  by_cases hback : back = []
  · subst hback
    rw [TypeNode.depth?_of_step hbad]
    simp
  · rw [← List.dropLast_eq_take, List.dropLast_append_of_ne_nil (List.cons_ne_nil _ _),
      List.dropLast_cons_of_ne_nil hback,
      TypeNode.descend_append_of_step_eq_error hfront hbad] at hreceiver
    cases hreceiver

end Env
end TemplateLint
