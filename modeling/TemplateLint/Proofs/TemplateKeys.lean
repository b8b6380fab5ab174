import TemplateLint.Manifest
import TemplateLint.Proofs.Slices

/-! Which entry of a manifest a template takes its variables from. Of the keys that apply to a path
the one that is written longest is chosen, and what is written counts the `./` in front of it. -/
namespace TemplateLint
open Text

namespace Manifest

def heres : List Char → Nat
  | '.' :: '/' :: cs => heres cs + 1
  | _ => 0

theorem replicate_heres_append (cs : List Char) :
    (List.replicate (heres cs) ['.', '/']).flatten ++ dropHere cs = cs ∧
      ¬['.', '/'] <+: dropHere cs := by
  fun_induction dropHere cs with
  | case1 cs ih => exact ⟨by simp [heres, List.replicate_succ, ih.1], ih.2⟩
  | case2 cs h =>
    constructor
    · unfold heres
      split
      · exact absurd rfl (h _)
      · rfl
    · rintro ⟨rest, rfl⟩
      exact h rest rfl

theorem utf8ByteSize_key (key : String) :
    key.utf8ByteSize = 2 * heres key.toList + byteLength (dropHere key.toList) := by
  have hheres (n : Nat) : byteLength (List.replicate n ['.', '/']).flatten = 2 * n := by
    induction n with
    | zero => rfl
    | succ n ih =>
      rw [List.replicate_succ, List.flatten_cons, byteLength_append, ih, Nat.mul_succ, Nat.add_comm]
      rfl
  rw [utf8ByteSize_eq, ← hheres, ← byteLength_append, (replicate_heres_append _).1]

def Applies (path key : String) : Prop :=
  slashed path.toList = dropHere key.toList ∨
    ('/' :: dropHere key.toList) <:+ slashed path.toList

theorem keyApplies_iff {path key : String} : keyApplies path key = true ↔ Applies path key := by
  rw [keyApplies, Bool.or_eq_true, beq_iff_eq, List.isSuffixOf_iff_suffix]
  rfl

/-- The longer key comes first, and of keys of one length the one that is last by name. -/
def Outranks (key other : String) : Prop :=
  other.utf8ByteSize < key.utf8ByteSize ∨ other.utf8ByteSize = key.utf8ByteSize ∧ other < key

theorem Outranks.trans {a b c : String} (h : Outranks a b) (h' : Outranks b c) : Outranks a c := by
  unfold Outranks at *
  rcases h with h | ⟨h, hlt⟩
  · left
    omega
  · rcases h' with h' | ⟨h', hlt'⟩
    · left
      omega
    · exact .inr ⟨h'.trans h, String.lt_trans hlt' hlt⟩

theorem Outranks.asymm {a b : String} (h : Outranks a b) : ¬Outranks b a := by
  intro h'
  rcases h.trans h' with h | ⟨-, h⟩
  · exact Nat.lt_irrefl _ h
  · exact String.lt_irrefl _ h

section

variable {keep : Option (String × List TypeNode) → String × List TypeNode →
  Option (String × List TypeNode)} {b : String × List TypeNode} {es : List (String × List TypeNode)}

def Keeps (keep : Option (String × List TypeNode) → String × List TypeNode →
    Option (String × List TypeNode)) : Prop :=
  (∀ e, keep none e = some e) ∧
    ∀ b e, keep (some b) e = if b.1.utf8ByteSize ≤ e.1.utf8ByteSize then some e else some b

theorem exists_templateVars?_eq (m : Manifest) (path : String) :
    ∃ keep, Keeps keep ∧ m.templateVars? path =
      ((m.templates.entries.filter fun e => keyApplies path e.1).foldl keep none).map Prod.snd := by
  refine ⟨_, ⟨?_, ?_⟩, rfl⟩
  · intro e
    rfl
  · intro b e
    rfl

theorem Keeps.exists_foldl (h : Keeps keep) (hsorted : (b :: es).Pairwise fun a b => a.1 < b.1) :
    ∃ w ∈ b :: es, es.foldl keep (some b) = some w ∧ ∀ e ∈ b :: es, e = w ∨ Outranks w.1 e.1 := by
  induction es generalizing b with
  | nil => exact ⟨b, List.mem_cons_self, rfl, fun e he => .inl (List.mem_singleton.1 he)⟩
  | cons e es ih =>
    obtain ⟨hb, hes⟩ := List.pairwise_cons.1 hsorted
    rw [List.forall_mem_cons] at hb
    rw [List.foldl_cons, h.2]
    split
    · next hle =>
      obtain ⟨w, hw, hfold, hbest⟩ := ih hes
      have hlast : Outranks e.1 b.1 := by
        rcases Nat.lt_or_eq_of_le hle with hlt | heq
        · exact .inl hlt
        · exact .inr ⟨heq, hb.1⟩
      refine ⟨w, List.mem_cons_of_mem _ hw, hfold, List.forall_mem_cons.2 ⟨.inr ?_, hbest⟩⟩
      rcases hbest e List.mem_cons_self with rfl | hrank
      · exact hlast
      · exact hrank.trans hlast
    · next hlt =>
      have hskip : (b :: es).Pairwise fun a b => a.1 < b.1 :=
        List.pairwise_cons.2 ⟨hb.2, (List.pairwise_cons.1 hes).2⟩
      obtain ⟨w, hw, hfold, hbest⟩ := ih hskip
      have hlonger : Outranks b.1 e.1 := .inl (Nat.lt_of_not_le hlt)
      rw [List.forall_mem_cons] at hbest
      have he : e = w ∨ Outranks w.1 e.1 := by
        rcases hbest.1 with rfl | hrank
        · exact .inr hlonger
        · exact .inr (hrank.trans hlonger)
      refine ⟨w, ?_, hfold, List.forall_mem_cons.2 ⟨hbest.1, List.forall_mem_cons.2 ⟨he, hbest.2⟩⟩⟩
      rcases List.mem_cons.1 hw with rfl | hw
      · exact List.mem_cons_self
      · exact List.mem_cons_of_mem _ (List.mem_cons_of_mem _ hw)

end

structure Chosen (m : Manifest) (path key : String) (vars : List TypeNode) : Prop where
  entry : (key, vars) ∈ m.templates.entries
  applies : Applies path key
  outranks : ∀ e ∈ m.templates.entries, Applies path e.1 → e = (key, vars) ∨ Outranks key e.1

variable {m : Manifest} {path key : String} {vars : List TypeNode}

theorem templateVars?_cases (m : Manifest) (path : String) :
    m.templateVars? path = none ∧ (∀ e ∈ m.templates.entries, ¬Applies path e.1) ∨
      ∃ key vars, m.templateVars? path = some vars ∧ m.Chosen path key vars := by
  obtain ⟨keep, hkeep, hvars⟩ := exists_templateVars?_eq m path
  have hsorted := m.templates.sorted.filter fun e => keyApplies path e.1
  have hmem (e : String × List TypeNode) :
      e ∈ m.templates.entries.filter (fun e => keyApplies path e.1) ↔
        e ∈ m.templates.entries ∧ Applies path e.1 := by
    rw [List.mem_filter, keyApplies_iff]
  rw [hvars]
  cases hentries : m.templates.entries.filter fun e => keyApplies path e.1 with
  | nil =>
    left
    refine ⟨rfl, fun e he happlies => ?_⟩
    have hnil := (hmem e).2 ⟨he, happlies⟩
    rw [hentries] at hnil
    cases hnil
  | cons b es =>
    right
    rw [hentries] at hsorted hmem
    obtain ⟨⟨key, vars⟩, hw, hfold, hbest⟩ := hkeep.exists_foldl hsorted
    refine ⟨key, vars, ?_, ((hmem _).1 hw).1, ((hmem _).1 hw).2, fun e he happlies => ?_⟩
    · rw [List.foldl_cons, hkeep.1, hfold]
      rfl
    · exact hbest e ((hmem e).2 ⟨he, happlies⟩)

theorem Chosen.unique {key' : String} {vars' : List TypeNode} (h : m.Chosen path key vars)
    (h' : m.Chosen path key' vars') : vars = vars' := by
  rcases h.outranks _ h'.entry h'.applies with heq | hrank
  · exact (Prod.mk.inj heq).2.symm
  · rcases h'.outranks _ h.entry h.applies with heq | hrank'
    · exact (Prod.mk.inj heq).2
    · exact absurd hrank' hrank.asymm

theorem templateVars?_eq_none_iff :
    m.templateVars? path = none ↔ ∀ e ∈ m.templates.entries, ¬Applies path e.1 := by
  rcases templateVars?_cases m path with ⟨hnone, hall⟩ | ⟨key, vars, hsome, hchosen⟩
  · exact ⟨fun _ => hall, fun _ => hnone⟩
  · rw [hsome]
    constructor
    · intro h
      cases h
    · intro hall
      exact absurd hchosen.applies (hall _ hchosen.entry)

theorem templateVars?_eq_some_iff :
    m.templateVars? path = some vars ↔ ∃ key, m.Chosen path key vars := by
  rcases templateVars?_cases m path with ⟨hnone, hall⟩ | ⟨key, vars', hsome, hchosen⟩
  · rw [hnone]
    constructor
    · intro h
      cases h
    · rintro ⟨key, hchosen⟩
      exact absurd hchosen.applies (hall _ hchosen.entry)
  · rw [hsome]
    constructor
    · intro h
      cases h
      exact ⟨key, hchosen⟩
    · rintro ⟨key', hchosen'⟩
      rw [hchosen.unique hchosen']

/-- No key that applies has more to it than this one, the `./` in front of either left out. -/
def MostSpecific (m : Manifest) (path key : String) : Prop :=
  ∀ e ∈ m.templates.entries, Applies path e.1 →
    byteLength (dropHere e.1.toList) ≤ byteLength (dropHere key.toList)

theorem mostSpecific_iff :
    m.MostSpecific path key ↔ ∀ e ∈ m.templates.entries, Applies path e.1 →
      e.1.utf8ByteSize + 2 * heres key.toList ≤ key.utf8ByteSize + 2 * heres e.1.toList := by
  have hsize (other : String) :
      byteLength (dropHere other.toList) ≤ byteLength (dropHere key.toList) ↔
        other.utf8ByteSize + 2 * heres key.toList ≤ key.utf8ByteSize + 2 * heres other.toList := by
    rw [utf8ByteSize_key other, utf8ByteSize_key key]
    omega
  simp only [MostSpecific, hsize]

theorem Chosen.utf8ByteSize_le (h : m.Chosen path key vars) {e : String × List TypeNode}
    (he : e ∈ m.templates.entries) (happlies : Applies path e.1) :
    e.1.utf8ByteSize ≤ key.utf8ByteSize := by
  rcases h.outranks e he happlies with rfl | hlt | ⟨heq, -⟩
  · exact Nat.le_refl _
  · exact Nat.le_of_lt hlt
  · exact Nat.le_of_eq heq

/-- Only a key with fewer `./` in front can be more specific than the one that is written longest. -/
theorem Chosen.mostSpecific_iff (h : m.Chosen path key vars) :
    m.MostSpecific path key ↔ ∀ e ∈ m.templates.entries, Applies path e.1 →
      heres e.1.toList < heres key.toList →
        e.1.utf8ByteSize + 2 * heres key.toList ≤ key.utf8ByteSize + 2 * heres e.1.toList := by
  rw [Manifest.mostSpecific_iff]
  constructor
  · intro hall e he happlies _
    exact hall e he happlies
  · intro hfewer e he happlies
    have hlonger := h.utf8ByteSize_le he happlies
    by_cases hheres : heres e.1.toList < heres key.toList
    · exact hfewer e he happlies hheres
    · omega

/-- There are variables for a path if and only if some key applies to it, and then they are those of
the key that is written longest. That key is a most specific one if and only if what it is longer by
than each key with fewer `./` makes up for those that it has more, as when no key has fewer. -/
theorem longest_spelling_is_chosen (m : Manifest) (path : String) :
    (m.templateVars? path = none ↔ ∀ e ∈ m.templates.entries, ¬Applies path e.1) ∧
    (∀ vars, m.templateVars? path = some vars ↔ ∃ key, m.Chosen path key vars) ∧
    ∀ key vars, m.Chosen path key vars →
      (m.MostSpecific path key ↔ ∀ e ∈ m.templates.entries, Applies path e.1 →
        heres e.1.toList < heres key.toList →
          e.1.utf8ByteSize + 2 * heres key.toList ≤ key.utf8ByteSize + 2 * heres e.1.toList) ∧
      ((∀ e ∈ m.templates.entries, Applies path e.1 → heres key.toList ≤ heres e.1.toList) →
        m.MostSpecific path key) := by
  refine ⟨templateVars?_eq_none_iff, fun vars => templateVars?_eq_some_iff, ?_⟩
  intro key vars hchosen
  refine ⟨hchosen.mostSpecific_iff, fun hfewest => hchosen.mostSpecific_iff.2 ?_⟩
  intro e he happlies hfewer
  exact absurd (hfewest e he happlies) (Nat.not_le_of_lt hfewer)

theorem longest_spelling_is_chosen_of_equal_length :
    let m : Manifest := ⟨[], ⟨[("./a.html", [.scalar "A" "int"]),
      ("v/a.html", [.scalar "B" "int"])], List.pairwise_pair.2 (by decide)⟩⟩
    let path := "\\srv\\v\\a.html"
    ∃ vars, m.Chosen path "v/a.html" vars ∧ vars.map TypeNode.name = ["B"] ∧
      m.MostSpecific path "v/a.html" := by
  intro m path
  have hnames : (m.templateVars? path).map (·.map TypeNode.name) = some ["B"] := by decide +kernel
  obtain ⟨vars, hvars, hname⟩ := Option.map_eq_some_iff.1 hnames
  obtain ⟨-, hsome, hspecific⟩ := longest_spelling_is_chosen m path
  obtain ⟨key, hchosen⟩ := (hsome vars).1 hvars
  rcases List.mem_cons.1 hchosen.entry with h | h
  · cases h
    exact absurd hname (by decide)
  · cases List.mem_singleton.1 h
    refine ⟨_, hchosen, hname, (hspecific _ _ hchosen).2 ?_⟩
    intro e he happlies
    exact Nat.zero_le _

/-- Two `./` outweigh the directory that another key names. -/
theorem leading_dots_outweigh_directory :
    let m : Manifest := ⟨[], ⟨[("././a.html", [.scalar "A" "int"]),
      ("v/a.html", [.scalar "B" "int"])], List.pairwise_pair.2 (by decide)⟩⟩
    let path := "v/a.html"
    (m.templateVars? path).map (·.map TypeNode.name) = some ["A"] ∧
      ¬∃ key vars, (key, vars) ∈ m.templates.entries ∧ Applies path key ∧
        m.MostSpecific path key ∧ m.templateVars? path = some vars := by
  intro m path
  have hnames : (m.templateVars? path).map (·.map TypeNode.name) = some ["A"] := by decide +kernel
  refine ⟨hnames, ?_⟩
  rintro ⟨key, vars, hentry, -, hspecific, hvars⟩
  rw [hvars] at hnames
  rcases List.mem_cons.1 hentry with h | h
  · cases h
    have hle := hspecific _ (List.mem_cons_of_mem _ List.mem_cons_self) (.inl (by decide))
    exact absurd hle (by decide +kernel)
  · cases List.mem_singleton.1 h
    exact absurd hnames (by decide)

end Manifest
end TemplateLint
