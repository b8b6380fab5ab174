import TemplateLint.Proofs.Lockstep

/-! Dot is lexical: which dot a pipeline is checked with follows from where the constructs around it
and their branches stand. -/
namespace TemplateLint

theorem BlockKind.detaches_iff {kind : BlockKind} :
    kind.detaches = true ↔ kind = .define ∨ kind = .block := by
  cases kind <;> simp [detaches]

theorem BlockKind.returnsDot_iff {kind : BlockKind} :
    kind.returnsDot = true ↔ kind = .range ∨ kind = .with_ := by
  cases kind <;> simp [returnsDot]

def NodeBody.checked? : NodeBody → Option (String × Option Path)
  | action a => some (a.expr, a.path)
  | blockOpen b =>
    match b.kind with
    | .define | .else_ => none
    | .elseIf => if b.group.isSome then some (b.expr, b.path) else none
    | .range | .with_ | .if_ | .block | .template => some (b.expr, b.path)
  | text | comment _ | blockClose _ | loopControl _ | malformed _ => none

def Effect.Reports (e : Effect) (c : Checked) : Prop :=
  e.checked = c.count ∧ ∃ more, e.problems = c.problems ++ more

namespace Walk

variable (o : Options) (file : String) (pos : Position) (w : Walk) {b : BlockOpen}

theorem reports_openRange : (w.openRange o b).Reports (w.stack.check o b.expr b.path) := by
  unfold openRange
  dsimp only
  generalize w.stack.check o b.expr b.path = header
  generalize w.stack.elementOf b.expr header.type? = found
  exact ⟨rfl, _, List.append_assoc ..⟩

theorem reports_openWith : (w.openWith o b).Reports (w.stack.check o b.expr b.path) := by
  unfold openWith
  dsimp only
  generalize w.stack.check o b.expr b.path = header
  exact ⟨rfl, _, rfl⟩

theorem reports_openIf : (w.openIf o b).Reports (w.stack.check o b.expr b.path) := by
  unfold openIf
  dsimp only
  generalize w.stack.check o b.expr b.path = header
  exact ⟨rfl, _, rfl⟩

theorem reports_openBlock :
    (w.openBlock o file pos b).Reports (w.stack.check o b.expr b.path) := by
  unfold openBlock
  dsimp only
  generalize w.stack.check o b.expr b.path = header
  exact ⟨rfl, [], (List.append_nil _).symm⟩

theorem reports_callTemplate :
    (w.callTemplate o file pos b).Reports (w.stack.check o b.expr b.path) := by
  unfold callTemplate
  dsimp only
  generalize w.stack.check o b.expr b.path = header
  exact ⟨rfl, [], (List.append_nil _).symm⟩

theorem reports_openBranch (hkind : b.kind = .elseIf) (hgroup : b.group.isSome = true) :
    (w.openBranch o b).Reports (w.enterBranch.stack.check o b.expr b.path) := by
  have hsome : ¬b.group.isNone = true := by
    rw [Option.isNone_iff_eq_none]
    exact Option.isSome_iff_ne_none.1 hgroup
  unfold openBranch
  rw [if_neg hsome, if_pos hkind]
  dsimp only
  generalize w.enterBranch.stack.check o b.expr b.path = header
  exact ⟨rfl, _, rfl⟩

theorem reports_action (a : Action) :
    (w.action o a).Reports (w.stack.check o a.expr a.path) := by
  unfold action
  split
  · next hblank =>
    unfold ScopeStack.check
    rw [if_pos hblank]
    exact ⟨rfl, [], rfl⟩
  · dsimp only
    generalize w.stack.check o a.expr a.path = checked
    exact ⟨rfl, _, rfl⟩

theorem reports_openConstruct {expr : String} {path : Option Path}
    (h : (NodeBody.blockOpen b).checked? = some (expr, path)) :
    (w.openConstruct o file pos b).Reports
      ((w.facing (.blockOpen b)).stack.check o expr path) := by
  unfold NodeBody.checked? at h
  unfold openConstruct
  cases hkind : b.kind with
  | range =>
    rw [w.facing_of_isBranch_eq_false (by rw [hkind]; rfl)]
    simp only [hkind] at h
    cases h
    exact w.reports_openRange o
  | with_ =>
    rw [w.facing_of_isBranch_eq_false (by rw [hkind]; rfl)]
    simp only [hkind] at h
    cases h
    exact w.reports_openWith o
  | if_ =>
    rw [w.facing_of_isBranch_eq_false (by rw [hkind]; rfl)]
    simp only [hkind] at h
    cases h
    exact w.reports_openIf o
  | block =>
    rw [w.facing_of_isBranch_eq_false (by rw [hkind]; rfl)]
    simp only [hkind] at h
    cases h
    exact w.reports_openBlock o file pos
  | template =>
    rw [w.facing_of_isBranch_eq_false (by rw [hkind]; rfl)]
    simp only [hkind] at h
    cases h
    exact w.reports_callTemplate o file pos
  | elseIf =>
    simp only [hkind] at h
    split at h
    · next hgroup =>
      cases h
      obtain ⟨c, hc⟩ := Option.isSome_iff_exists.1 hgroup
      rw [w.facing_of_branch (by rw [hkind]; rfl) hc]
      exact w.reports_openBranch o hkind hgroup
    · cases h
  | define | else_ =>
    simp only [hkind] at h
    cases h

theorem reports_effect {n : Node} {expr : String} {path : Option Path}
    (h : n.body.checked? = some (expr, path)) :
    (w.effect o file n).Reports ((w.facing n.body).stack.check o expr path) := by
  unfold effect
  cases hbody : n.body with
  | action a =>
    rw [hbody] at h
    cases h
    exact w.reports_action o a
  | blockOpen b =>
    rw [hbody] at h
    exact w.reports_openConstruct o file n.pos h
  | text | comment _ | blockClose _ | loopControl _ | malformed _ =>
    rw [hbody] at h
    cases h

end Walk

namespace DotRule

def SetsAt (r : DotRule) (t : Template) (c : Nat) : Prop :=
  ∃ b, t.block? c = some b ∧ r.Sets c b.kind

def Decides (r : DotRule) (t : Template) (opened : List Nat) (dot : TypeRef) : Prop :=
  ((∀ c ∈ opened, ¬r.SetsAt t c) ∧ dot = r.first) ∨
    ∃ c ∈ opened, r.SetsAt t c ∧ (∀ c' ∈ opened, r.SetsAt t c' → c' ≤ c) ∧ dot = r.opened c

variable {r : DotRule} {t : Template} {opened : List Nat} {c : Nat} {dot : TypeRef}

theorem decides_of_setsAt (h : r.SetsAt t c) (hlt : ∀ c' ∈ opened, c' < c) :
    r.Decides t (c :: opened) (r.opened c) := by
  refine .inr ⟨c, List.mem_cons_self, h, ?_, rfl⟩
  intro c' hc' _
  rcases List.mem_cons.1 hc' with rfl | hc'
  · exact Nat.le_refl c'
  · exact Nat.le_of_lt (hlt c' hc')

theorem Decides.skip (hc : ¬r.SetsAt t c) (h : r.Decides t opened dot) :
    r.Decides t (c :: opened) dot := by
  rcases h with ⟨hnone, rfl⟩ | ⟨c', hmem, hsets, hinner, rfl⟩
  · exact .inl ⟨List.forall_mem_cons.2 ⟨hc, hnone⟩, rfl⟩
  · refine .inr ⟨c', List.mem_cons_of_mem c hmem, hsets, ?_, rfl⟩
    exact List.forall_mem_cons.2 ⟨fun h => absurd h hc, hinner⟩

end DotRule

theorem Levels.decides {t : Template} {r : DotRule} {opened : List Nat} {groups : List Group}
    {f : Frame} {frames : List Frame} (h : Levels t r opened groups (f :: frames))
    (hsorted : opened.Pairwise (· > ·)) : r.Decides t opened f.dot := by
  generalize hframes : f :: frames = all at h
  induction h generalizing f frames with
  | bottom _ dot =>
    cases hframes
    exact .inl ⟨List.forall_mem_nil _, dot⟩
  | @bare c b _ _ _ opener kind _ ih =>
    have hskip : ¬r.SetsAt t c := by
      rintro ⟨b', hb', hsets⟩
      cases opener.symm.trans hb'
      simp [DotRule.Sets, kind, BlockKind.detaches, BlockKind.returnsDot] at hsets
    exact (ih (List.pairwise_cons.1 hsorted).2 hframes).skip hskip
  | @framed c b _ _ _ g _ opener _ sets keeps _ _ ih =>
    cases hframes
    obtain ⟨hlt, hsorted⟩ := List.pairwise_cons.1 hsorted
    by_cases hsets : r.Sets c b.kind
    · rw [sets hsets]
      exact DotRule.decides_of_setsAt ⟨b, opener, hsets⟩ hlt
    · rw [keeps hsets]
      refine (ih hsorted rfl).skip ?_
      rintro ⟨b', hb', hsets'⟩
      cases opener.symm.trans hb'
      exact hsets hsets'

namespace Template

/-- The construct at `c` is a `define` or a `block`, or a `range` or a `with` that has not come to a
branch, and the node at `index` stands in it. -/
def GivesDot (t : Template) (index c : Nat) : Prop :=
  c < index ∧ ∃ b, t.block? c = some b ∧ (∀ j, b.close = some j → index ≤ j) ∧
    (b.kind = .define ∨ b.kind = .block ∨
      ((b.kind = .range ∨ b.kind = .with_) ∧ ¬t.Branched (index + 1) c))

/-- The dot at a node by where the node stands. -/
inductive LexicalDot (t : Template) (o : Options) (ctx : Context) : Nat → TypeRef → Prop where
  | first {index : Nat} (bare : ∀ c, ¬t.GivesDot index c) : LexicalDot t o ctx index ctx.firstDot
  | given {index c : Nat} {b : BlockOpen} {around : TypeRef} (gives : t.GivesDot index c)
      (innermost : ∀ c', t.GivesDot index c' → c' ≤ c) (opener : t.block? c = some b)
      (outside : LexicalDot t o ctx c around) :
      LexicalDot t o ctx index ((t.walkBefore o ctx c).stack.bodyDot o around b)

variable {t : Template} {o : Options} {ctx : Context} {index : Nat}

theorem LexicalDot.unique {x y : TypeRef} (hx : t.LexicalDot o ctx index x)
    (hy : t.LexicalDot o ctx index y) : x = y := by
  induction hx generalizing y with
  | first bare =>
    cases hy with
    | first _ => rfl
    | given gives _ _ _ => exact absurd gives (bare _)
  | given gives innermost opener outside ih =>
    cases hy with
    | first bare => exact absurd gives (bare _)
    | given gives' innermost' opener' outside' =>
      cases Nat.le_antisymm (innermost' _ gives) (innermost _ gives')
      cases opener.symm.trans opener'
      rw [ih outside']

theorem sets_dotRule_iff {c : Nat} {kind : BlockKind} :
    (t.dotRule o ctx index).Sets c kind ↔ kind = .define ∨ kind = .block ∨
      ((kind = .range ∨ kind = .with_) ∧ ¬t.Branched index c) := by
  unfold DotRule.Sets
  rw [BlockKind.detaches_iff, BlockKind.returnsDot_iff, or_assoc]
  rfl

theorem givesDot_iff {c : Nat} :
    t.GivesDot index c ↔ c ∈ t.openBefore index ∧ (t.dotRule o ctx (index + 1)).SetsAt t c := by
  constructor
  · rintro ⟨hlt, b, hb, hclose, hkind⟩
    have hbody : b.kind.hasBody = true := by
      rcases hkind with h | h | ⟨h | h, -⟩ <;> rw [h] <;> rfl
    exact ⟨mem_openBefore.2 ⟨hlt, b, hb, hbody, hclose⟩, b, hb, sets_dotRule_iff.2 hkind⟩
  · rintro ⟨hopen, b, hb, hsets⟩
    obtain ⟨hlt, b', hb', -, hclose⟩ := mem_openBefore.1 hopen
    cases hb.symm.trans hb'
    exact ⟨hlt, b, hb, hclose, sets_dotRule_iff.1 hsets⟩

def scopeFacing (t : Template) (o : Options) (ctx : Context) (index : Nat) : ScopeStack :=
  let w := t.walkBefore o ctx index
  ((t.body? index).elim w w.facing).stack

theorem scopeFacing_of_body? (o : Options) (ctx : Context) {body : NodeBody}
    (h : t.body? index = some body) :
    t.scopeFacing o ctx index = ((t.walkBefore o ctx index).facing body).stack := by
  unfold scopeFacing
  rw [h]
  rfl

theorem scopeFacing_of_hasBody (o : Options) (ctx : Context) {b : BlockOpen}
    (hb : t.block? index = some b) (hbody : b.kind.hasBody = true) :
    t.scopeFacing o ctx index = (t.walkBefore o ctx index).stack := by
  rw [scopeFacing_of_body? o ctx (block?_eq_some_iff.1 hb)]
  exact congrArg Walk.stack (Walk.facing_of_isBranch_eq_false _
    (BlockKind.isBranch_eq_false_of_hasBody hbody))

theorem WellPaired.exists_levels_scopeFacing (ht : t.WellPaired) (o : Options) (ctx : Context)
    (index : Nat) :
    ∃ groups, Levels t (t.dotRule o ctx (index + 1)) (t.openBefore index) groups
      (t.scopeFacing o ctx index).frames := by
  unfold scopeFacing
  cases hbody : t.body? index with
  | none =>
    have hlevels := ht.levels o ctx (index + 1)
    rw [ht.past hbody, walkBefore_succ_of_body?_eq_none o ctx hbody] at hlevels
    exact ⟨_, hlevels⟩
  | some body => exact ⟨_, ht.levels_facing hbody (ht.levels o ctx index)⟩

theorem WellPaired.lexicalDot (ht : t.WellPaired) (o : Options) (ctx : Context) (index : Nat) :
    t.LexicalDot o ctx index (t.scopeFacing o ctx index).top.dot := by
  induction index using Nat.strongRecOn with
  | ind index ih =>
    obtain ⟨groups, hlevels⟩ := ht.exists_levels_scopeFacing o ctx index
    rcases hlevels.decides (t.pairwise_openBefore index) with
      ⟨hnone, hdot⟩ | ⟨c, hmem, hsets, hinner, hdot⟩
    · rw [hdot]
      apply LexicalDot.first
      intro c hc
      obtain ⟨hopen, hsets⟩ := givesDot_iff.1 hc
      exact hnone c hopen hsets
    · obtain ⟨hlt, b, hb, hbody, -⟩ := mem_openBefore.1 hmem
      have houtside := ih c hlt
      have hopened : (t.dotRule o ctx (index + 1)).opened c =
          (t.walkBefore o ctx c).stack.bodyDot o (t.walkBefore o ctx c).stack.top.dot b :=
        openedDot_eq o ctx hb
      rw [scopeFacing_of_hasBody o ctx hb hbody] at houtside
      rw [hdot, hopened]
      refine .given (givesDot_iff.2 ⟨hmem, hsets⟩) ?_ hb houtside
      intro c' hc'
      obtain ⟨hopen, hsets'⟩ := givesDot_iff.1 hc'
      exact hinner c' hopen hsets'

/-- Every pipeline is checked with the dot of the place where it stands. -/
theorem dot_is_lexical (d : Delimiters) (o : Options) (ctx : Context) (source : String)
    (index : Nat) :
    let t := parse d source
    let scope := t.scopeFacing o ctx index
    (∀ dot, scope.top.dot = dot ↔ t.LexicalDot o ctx index dot) ∧
      ∀ n expr path, t.nodes[index]? = some n → n.body.checked? = some (expr, path) →
        ((t.walkBefore o ctx index).effect o ctx.file n).Reports (scope.check o expr path) := by
  intro t scope
  have hlexical := (wellPaired_parse d source).lexicalDot o ctx index
  refine ⟨?_, ?_⟩
  · intro dot
    constructor
    · rintro rfl
      exact hlexical
    · exact hlexical.unique
  · intro n expr path hn hchecked
    have hscope : scope = ((t.walkBefore o ctx index).facing n.body).stack := by
      have hbody : t.body? index = some n.body := congrArg (Option.map Node.body) hn
      change t.scopeFacing o ctx index = _
      unfold scopeFacing
      rw [hbody]
      rfl
    rw [hscope]
    exact (t.walkBefore o ctx index).reports_effect o ctx.file hchecked

end Template
end TemplateLint
