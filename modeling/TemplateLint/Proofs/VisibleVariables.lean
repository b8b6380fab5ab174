import TemplateLint.Proofs.Restoration

/-! Variables that can be seen. A search goes through the frames from the inside and stops at the
first one that has the name; the listing starts from the outside and lets inner frames overwrite.
After any operations on a stack the two agree, and they agree with nested scopes each of which has a
copy of all that can be seen in it. -/
namespace TemplateLint

namespace NameMap

variable {α : Type}

theorem get?_eq_some_iff {m : NameMap α} {name : String} {value : α} :
    m.get? name = some value ↔ (name, value) ∈ m.entries := by
  unfold get?
  rw [List.lookup_eq_some_iff]
  constructor
  · rintro ⟨before, after, hentries, -⟩
    rw [hentries]
    exact List.mem_append_right _ List.mem_cons_self
  · intro h
    obtain ⟨before, after, hentries⟩ := List.append_of_mem h
    have hsorted := m.sorted
    rw [hentries, List.pairwise_append] at hsorted
    refine ⟨before, after, hentries, fun e he => ?_⟩
    have hlt : e.1 < name := hsorted.2.2 e he _ List.mem_cons_self
    exact bne_iff_ne.2 (Std.ne_of_lt hlt).symm

theorem get?_insertAll (m later : NameMap α) (name : String) :
    (m.insertAll later.entries).get? name = (later.get? name).or (m.get? name) := by
  obtain ⟨es, hsorted⟩ := later
  change (m.insertAll es).get? name = (es.lookup name).or (m.get? name)
  induction es generalizing m with
  | nil => rfl
  | cons e es ih =>
    obtain ⟨hlater, hsorted⟩ := List.pairwise_cons.1 hsorted
    change ((m.insert e.1 e.2).insertAll es).get? name = _
    rw [ih _ hsorted, get?_insert, lookup_cons_eq]
    split
    · next hname =>
      have hnone : es.lookup name = none := by
        rw [List.lookup_eq_none_iff]
        intro x hx
        exact bne_iff_ne.2 (hname ▸ Std.ne_of_lt (hlater x hx))
      rw [hnone]
      rfl
    · rfl

theorem names_sorted (m : NameMap α) : m.names.Pairwise (· < ·) :=
  List.pairwise_map.2 m.sorted

theorem names_nodup (m : NameMap α) : m.names.Nodup :=
  m.names_sorted.imp Std.ne_of_lt

end NameMap

inductive ScopeOp where
  | push (kind : FrameKind) (dot : TypeRef)
  | pushDetached (kind : FrameKind) (dot : TypeRef)
  | pop
  | bind (name : String) (ref : TypeRef)
  | enterElse

/-! ### Nested scopes -/

structure Scopes where
  here : String → Option TypeRef
  around : List (String → Option TypeRef)

namespace Scopes

/-- A scope begins with all that can be seen around it, a detached one with nothing. A declaration
is made in the innermost scope only, and the outermost scope is never left. -/
def apply (scopes : Scopes) : ScopeOp → Scopes
  | .push _ _ => ⟨scopes.here, scopes.here :: scopes.around⟩
  | .pushDetached _ _ => ⟨fun _ => none, scopes.here :: scopes.around⟩
  | .pop =>
    match scopes.around with
    | [] => scopes
    | next :: rest => ⟨next, rest⟩
  | .bind name ref =>
    { scopes with here := fun other => if other = name then some ref else scopes.here other }
  | .enterElse => scopes

def applyAll (scopes : Scopes) (ops : List ScopeOp) : Scopes := ops.foldl apply scopes

end Scopes

namespace ScopeStack

variable {s : ScopeStack} {fs : List Frame} {name : String} {ref : TypeRef}

def apply (s : ScopeStack) : ScopeOp → ScopeStack
  | .push kind dot => s.push kind dot
  | .pushDetached kind dot => s.pushDetached kind dot
  | .pop => s.pop
  | .bind name ref => s.bind name ref
  | .enterElse => s.enterElse

def applyAll (s : ScopeStack) (ops : List ScopeOp) : ScopeStack := ops.foldl apply s

def lookupIn? (fs : List Frame) (name : String) : Option TypeRef :=
  (visibleOf fs).findSome? (·.locals.get? name)

theorem lookup?_eq (s : ScopeStack) : s.lookup? = lookupIn? s.frames := rfl

theorem lookupIn?_cons (f : Frame) (fs : List Frame) (name : String) :
    lookupIn? (f :: fs) name =
      (f.locals.get? name).or (if f.detached then none else lookupIn? fs name) := by
  unfold lookupIn?
  rw [visibleOf]
  cases f.detached <;> cases h : f.locals.get? name <;> simp [h]

/-! ### The innermost declaration -/

/-- Among the frames from the innermost detached one on inwards, the innermost one that declares the
name gives it this meaning: a frame is beyond the reach of those inside it once one of them is
detached. -/
def Declares (frames : List Frame) (name : String) (ref : TypeRef) : Prop :=
  ∃ inner f outer, frames = inner ++ f :: outer ∧ f.locals.get? name = some ref ∧
    ∀ g ∈ inner, g.detached = false ∧ g.locals.get? name = none

theorem lookupIn?_append {inner : List Frame}
    (h : ∀ g ∈ inner, g.detached = false ∧ g.locals.get? name = none) (fs : List Frame) :
    lookupIn? (inner ++ fs) name = lookupIn? fs name := by
  induction inner with
  | nil => rfl
  | cons g inner ih =>
    obtain ⟨⟨hattached, hnone⟩, h⟩ := List.forall_mem_cons.1 h
    rw [List.cons_append, lookupIn?_cons, hnone, hattached, ih h]
    rfl

theorem declares_of_lookupIn? (h : lookupIn? fs name = some ref) : Declares fs name ref := by
  induction fs with
  | nil => cases h
  | cons f fs ih =>
    rw [lookupIn?_cons] at h
    cases hget : f.locals.get? name with
    | some found =>
      rw [hget] at h
      cases h
      exact ⟨[], f, fs, rfl, hget, List.forall_mem_nil _⟩
    | none =>
      rw [hget, Option.none_or] at h
      split at h
      · cases h
      · next hattached =>
        obtain ⟨inner, g, outer, rfl, hg, hinner⟩ := ih h
        refine ⟨f :: inner, g, outer, rfl, hg, List.forall_mem_cons.2 ⟨⟨?_, hget⟩, hinner⟩⟩
        exact Bool.eq_false_iff.2 hattached

theorem lookupIn?_eq_some_iff : lookupIn? fs name = some ref ↔ Declares fs name ref := by
  constructor
  · exact declares_of_lookupIn?
  · rintro ⟨inner, f, outer, rfl, hf, hinner⟩
    rw [lookupIn?_append hinner, lookupIn?_cons, hf]
    rfl

/-! ### The listing -/

theorem get?_visibleLocals (s : ScopeStack) (name : String) :
    s.visibleLocals.get? name = s.lookup? name := by
  unfold visibleLocals lookup?
  induction s.visible with
  | nil => rfl
  | cons f fs ih =>
    rw [List.foldr_cons, NameMap.get?_insertAll, ih, List.findSome?_cons]
    cases f.locals.get? name <;> rfl

theorem mem_visibleLocals_iff :
    (name, ref) ∈ s.visibleLocals.entries ↔ s.lookup? name = some ref := by
  rw [← NameMap.get?_eq_some_iff, get?_visibleLocals]

/-! ### Frames as scopes -/

def scopesOf : List Frame → List (String → Option TypeRef)
  | [] => []
  | f :: fs => lookupIn? (f :: fs) :: scopesOf fs

def scopes (s : ScopeStack) : Scopes := ⟨s.lookup?, scopesOf s.below⟩

theorem lookup?_push (s : ScopeStack) (kind : FrameKind) (dot : TypeRef) :
    (s.push kind dot).lookup? = s.lookup? := by
  funext name
  exact lookupIn?_cons _ s.frames name

theorem lookup?_pushDetached (s : ScopeStack) (kind : FrameKind) (dot : TypeRef) :
    (s.pushDetached kind dot).lookup? = fun _ => none := by
  funext name
  exact lookupIn?_cons _ s.frames name

theorem lookup?_bind (s : ScopeStack) (name : String) (ref : TypeRef) :
    (s.bind name ref).lookup? =
      fun other => if other = name then some ref else s.lookup? other := by
  funext other
  have hframes : (s.bind name ref).frames = (s.bind name ref).top :: s.below := rfl
  rw [lookup?_eq, lookup?_eq, hframes, frames, lookupIn?_cons, lookupIn?_cons]
  dsimp only [bind]
  rw [NameMap.get?_insert]
  split <;> rfl

theorem lookup?_enterElse (s : ScopeStack) : s.enterElse.lookup? = s.lookup? := by
  obtain ⟨dot, hdot⟩ := s.exists_enterElse
  funext name
  rw [hdot]
  exact (lookupIn?_cons _ s.below name).trans (lookupIn?_cons s.top s.below name).symm

/-- Each operation does to the frames what it does to nested scopes. -/
theorem scopes_apply (s : ScopeStack) (op : ScopeOp) : (s.apply op).scopes = s.scopes.apply op := by
  cases op with
  | push kind dot => exact congrArg (Scopes.mk · _) (s.lookup?_push kind dot)
  | pushDetached kind dot => exact congrArg (Scopes.mk · _) (s.lookup?_pushDetached kind dot)
  | pop =>
    obtain ⟨root, top, below⟩ := s
    cases below with
    | nil => rfl
    | cons f fs => rfl
  | bind name ref => exact congrArg (Scopes.mk · _) (s.lookup?_bind name ref)
  | enterElse =>
    have hbelow : s.enterElse.below = s.below := by
      obtain ⟨dot, hdot⟩ := s.exists_enterElse
      rw [hdot]
    change Scopes.mk s.enterElse.lookup? (scopesOf s.enterElse.below) = s.scopes
    rw [lookup?_enterElse, hbelow]
    rfl

theorem scopes_applyAll (s : ScopeStack) (ops : List ScopeOp) :
    (s.applyAll ops).scopes = s.scopes.applyAll ops := by
  induction ops generalizing s with
  | nil => rfl
  | cons op ops ih =>
    change ((s.apply op).applyAll ops).scopes = (s.scopes.apply op).applyAll ops
    rw [ih, scopes_apply]

/-- After any operations on any stack, the variables are listed in strict order of their names, each
once. A variable is listed with a meaning exactly if it is found with it, and that is exactly if the
innermost frame in reach that declares the variable gives it this meaning. What is found is also
what nested scopes hold after the same operations. -/
theorem listing_agrees_with_lookup (s : ScopeStack) (ops : List ScopeOp) :
    let t := s.applyAll ops
    t.visibleLocals.names.Pairwise (· < ·) ∧ t.visibleLocals.names.Nodup ∧
      (∀ name ref, (name, ref) ∈ t.visibleLocals.entries ↔ t.lookup? name = some ref) ∧
      (∀ name ref, t.lookup? name = some ref ↔ Declares t.frames name ref) ∧
      t.lookup? = (s.scopes.applyAll ops).here := by
  intro t
  refine ⟨t.visibleLocals.names_sorted, t.visibleLocals.names_nodup, ?_, ?_, ?_⟩
  · exact fun _ _ => mem_visibleLocals_iff
  · exact fun _ _ => lookupIn?_eq_some_iff
  · exact congrArg Scopes.here (s.scopes_applyAll ops)

example :
    let s := (start .unknown).applyAll [.bind "y" .root, .bind "x" .root, .push .with_ .root,
      .bind "y" (.own .unknown), .pushDetached .block .root, .bind "z" .root]
    s.visibleLocals.names = ["z"] ∧
      s.pop.visibleLocals.entries = [("x", .root), ("y", .own .unknown)] ∧
      s.pop.pop.visibleLocals.entries = [("x", .root), ("y", .root)] :=
  ⟨rfl, rfl, rfl⟩

end ScopeStack
end TemplateLint
