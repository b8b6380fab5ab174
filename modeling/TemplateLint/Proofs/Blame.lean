import TemplateLint.Proofs.Resolution

/-! Which segment a path that does not resolve is blamed on. The segments before it resolve, it is
not there on the type they lead to, and what comes after it does not matter. -/
namespace TemplateLint

def ResolveError.shift (n : Nat) : ResolveError → ResolveError
  | undefinedVariable name => undefinedVariable name
  | undefinedField field on depth => undefinedField field on (depth + n)
  | notIndexable key on depth => notIndexable key on (depth + n)

namespace TypeNode

variable {t u : TypeNode} {segment : Segment} {depth d : Nat} {e : ResolveError}
  {front back : List Segment}

theorem step_shift (t : TypeNode) (segment : Segment) (depth n : Nat) :
    t.step segment (depth + n) = (t.step segment depth).mapError (ResolveError.shift n) := by
  unfold step
  split
  · rfl
  · cases segment with
    | field name =>
      dsimp only
      cases t.field? name with
      | some field => rfl
      | none =>
        dsimp only
        split <;> rfl
    | index key =>
      dsimp only
      split
      · rfl
      · split <;> rfl

theorem descend_shift (t : TypeNode) (depth n : Nat) (segments : List Segment) :
    t.descend (depth + n) segments =
      (t.descend depth segments).mapError (ResolveError.shift n) := by
  induction segments generalizing t depth with
  | nil => rfl
  | cons segment segments ih =>
    rw [descend, descend, step_shift]
    cases t.step segment depth with
    | error e => rfl
    | ok next =>
      have hmore := ih next (depth + 1)
      rwa [Nat.add_right_comm] at hmore

theorem descend_append_shift (t : TypeNode) (front back : List Segment) :
    t.descend 0 (front ++ back) =
      t.descend 0 front >>= fun u =>
        (u.descend 0 back).mapError (ResolveError.shift front.length) := by
  rw [descend_append]
  exact bind_congr fun u => descend_shift u 0 front.length back

theorem descend_take_of_step_eq_error {n : Nat} (hfront : t.descend depth front = .ok u)
    (hstep : u.step segment (depth + front.length) = .error e) (hn : front.length < n) :
    t.descend depth ((front ++ segment :: back).take n) = .error e := by
  obtain ⟨m, rfl⟩ : ∃ m, n = front.length + (m + 1) := ⟨n - front.length - 1, by omega⟩
  rw [List.take_length_add_append, List.take_succ_cons]
  exact descend_append_of_step_eq_error hfront hstep

end TypeNode

namespace Env

variable {env : Env} {p : Path} {e : ResolveError}

theorem typeOf_take_eq {ref : TypeRef} (hbase : env.base p.root = .ok ref) (n : Nat) :
    env.typeOf (p.take n) = (ref.type env.root).descend 0 (p.segments.take n) := by
  have hbase' : env.base (p.take n).root = .ok ref := hbase
  rw [typeOf_eq, hbase']
  rfl

theorem base_eq_error {start : PathRoot} :
    env.base start = .error e ↔
      ∃ name, start = .var name ∧ env.var? name = none ∧ e = .undefinedVariable name := by
  cases start with
  | dot | root => simp [base]
  | var name =>
    cases hvar : env.var? name <;> simp [base, hvar, eq_comm]

theorem resolve_eq_error_cases (h : env.resolve p = .error e) :
    env.base p.root = .error e ∨
      ∃ ref front segment back u, env.base p.root = .ok ref ∧
        p.segments = front ++ segment :: back ∧
        (ref.type env.root).descend 0 front = .ok u ∧ u.step segment front.length = .error e := by
  rw [resolve_eq_error, typeOf_eq, bind_eq_error] at h
  refine h.imp id ?_
  rintro ⟨ref, hbase, hdescend⟩
  obtain ⟨front, segment, back, u, hsegments, hfront, hstep⟩ :=
    TypeNode.exists_of_descend_eq_error hdescend
  rw [Nat.zero_add] at hstep
  exact ⟨ref, front, segment, back, u, hbase, hsegments, hfront, hstep⟩

/-- The segment at the depth of an error is not there on the type that the segments before it lead
to, and the error does not depend on the segments after it. -/
theorem exists_of_depth?_eq_some {d : Nat} (h : env.resolve p = .error e)
    (hd : e.depth? = some d) :
    (∃ t segment, env.typeOf (p.take d) = .ok t ∧ p.segments[d]? = some segment ∧
      t.step segment d = .error e) ∧
    ∀ n, d < n → env.resolve (p.take n) = .error e := by
  rcases resolve_eq_error_cases h with
    hbase | ⟨ref, front, segment, back, u, hbase, hsegments, hfront, hstep⟩
  · obtain ⟨name, -, -, rfl⟩ := base_eq_error.1 hbase
    cases hd
  · cases (TypeNode.depth?_of_step hstep).symm.trans hd
    refine ⟨⟨u, segment, ?_, ?_, hstep⟩, ?_⟩
    · rw [typeOf_take_eq hbase, hsegments, List.take_left]
      exact hfront
    · rw [hsegments, List.getElem?_append_right (Nat.le_refl _), Nat.sub_self]
      rfl
    · intro n hn
      rw [resolve_eq_error, typeOf_take_eq hbase, hsegments]
      exact TypeNode.descend_take_of_step_eq_error hfront (by rwa [Nat.zero_add]) hn

theorem exists_var_of_depth?_eq_none (h : env.resolve p = .error e) (hd : e.depth? = none) :
    ∃ name, p.root = .var name ∧ env.var? name = none := by
  rcases resolve_eq_error_cases h with hbase | ⟨_, _, _, _, _, -, -, -, hstep⟩
  · obtain ⟨name, hroot, hvar, -⟩ := base_eq_error.1 hbase
    exact ⟨name, hroot, hvar⟩
  · cases (TypeNode.depth?_of_step hstep).symm.trans hd

/-- A path that fails at some depth resolves if it is cut there or before, and fails in the same way
if it is cut later: the segment at that depth is not there on what comes before it. A path that
fails at no depth starts with a variable that is not there. Segments are taken one after the other,
also if they come in two parts. -/
theorem failed_path_blames_first_bad_segment (env : Env) (p : Path) :
    (∀ e d, env.resolve p = .error e → e.depth? = some d →
      (∃ t segment, env.typeOf (p.take d) = .ok t ∧ p.segments[d]? = some segment ∧
        t.step segment d = .error e) ∧
      (∀ n ≤ d, ∃ ref, env.resolve (p.take n) = .ok ref) ∧
      ∀ n, d < n → env.resolve (p.take n) = .error e) ∧
    (∀ e, env.resolve p = .error e → e.depth? = none →
      ∃ name, p.root = .var name ∧ env.var? name = none) ∧
    ∀ (base : TypeNode) (front back : List Segment),
      base.descend 0 (front ++ back) =
        base.descend 0 front >>= fun t =>
          (t.descend 0 back).mapError (ResolveError.shift front.length) := by
  refine ⟨?_, fun e => exists_var_of_depth?_eq_none, TypeNode.descend_append_shift⟩
  intro e d h hd
  obtain ⟨hblamed, hlonger⟩ := exists_of_depth?_eq_some h hd
  refine ⟨hblamed, ?_, hlonger⟩
  intro n hn
  obtain ⟨t, -, ht, -⟩ := hblamed
  have hcut := (resolves_iff.2 ⟨t, ht⟩).take n
  rwa [Path.take, Path.take, List.take_take, Nat.min_eq_left hn] at hcut

theorem failed_path_blames_first_bad_segment_of_scalar :
    let env := Env.ofType (.root [.slice "Rows" (.structure_ "" "Row" [.scalar "Qty" "int"])])
    let p : Path := ⟨.dot, [.field "Rows", .index "0", .field "Qty", .field "Unit", .index "k"]⟩
    let q : Path := ⟨.var "x", [.field "Rows"]⟩
    let e := ResolveError.undefinedField "Unit" "int" 3
    env.resolve p = .error e ∧ (∃ ref, env.resolve (p.take 3) = .ok ref) ∧
      env.resolve (p.take 4) = .error e ∧
      env.resolve q = .error (.undefinedVariable "x") ∧
      ∃ name, q.root = .var name ∧ env.var? name = none := by
  intro env p q e
  have hp : env.resolve p = .error e := by rfl
  have hq : env.resolve q = .error (.undefinedVariable "x") := by rfl
  obtain ⟨hfails, -⟩ := failed_path_blames_first_bad_segment env p
  obtain ⟨-, hshorter, hlonger⟩ := hfails e 3 hp rfl
  obtain ⟨-, hunbound, -⟩ := failed_path_blames_first_bad_segment env q
  exact ⟨hp, hshorter 3 (Nat.le_refl 3), hlonger 4 (by decide), hq,
    hunbound _ hq rfl⟩

end Env
end TemplateLint
