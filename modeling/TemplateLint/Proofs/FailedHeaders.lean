import TemplateLint.Proofs.Independence
import TemplateLint.Proofs.LexicalDot
import TemplateLint.Proofs.Relaxation

/-! Errors do not cascade. A header that comes to no type leaves an unknown dot to the body, every
path from an unknown dot leads to an unknown type, and so the header is all that is reported of a
construct whose body goes from dot. -/
namespace TemplateLint
open Text

namespace NodeBody

def PathFromText : NodeBody → Prop
  | action a => a.path = Path.ofString? a.expr
  | blockOpen b => b.path = Path.ofString? b.expr
  | _ => True

theorem ofString?_ofList (cs : List Char) :
    Path.ofString? (String.ofList cs) = Path.ofChars? cs := by
  rw [Path.ofString?, String.toList_ofList]

theorem pathFromText_readAction (parts : ActionText) (inner : List Char) :
    (readAction parts inner).1.PathFromText := by
  have hpipeline (block : BlockOpen) (cs : List Char) :
      (blockOpen (block.withPipeline cs).1).PathFromText := (ofString?_ofList _).symm
  have hnamed (kind : BlockKind) (rest : List Char) :
      (blockOpen (BlockOpen.readNamed kind rest).1).PathFromText := by
    unfold BlockOpen.readNamed
    split
    · rfl
    · dsimp only
      split
      · rfl
      · exact (ofString?_ofList _).symm
  have helse (rest : List Char) : (blockOpen (BlockOpen.readElse rest).1).PathFromText := by
    unfold BlockOpen.readElse
    dsimp only
    split
    · exact hpipeline _ _
    · rfl
  unfold readAction
  dsimp only
  split
  case h_1 | h_2 | h_3 => exact hpipeline _ _
  case h_4 | h_5 | h_6 => exact hnamed _ _
  case h_7 => exact helse _
  case h_8 | h_9 | h_10 => exact trivial
  case h_11 => exact (ofString?_ofList _).symm

theorem pathFromText_read (p : Piece) : (read p).1.PathFromText := by
  cases p with
  | text cs => exact trivial
  | malformed fault cs => exact trivial
  | action parts =>
    unfold read
    dsimp only
    split
    · exact trivial
    · split
      · exact trivial
      · exact pathFromText_readAction parts _

theorem PathFromText.step {body : NodeBody} (h : body.PathFromText) (index : Nat)
    (constructs : List OpenConstruct) :
    (OpenConstruct.step index body constructs).1.PathFromText := by
  unfold OpenConstruct.step
  split
  · split
    · exact h
    · split
      · split
        · split
          · exact h
          · exact h
        · exact h
      · exact h
  · split
    · exact trivial
    · exact trivial
  · exact h

theorem PathFromText.withClose {body : NodeBody} (h : body.PathFromText) (bodies : List NodeBody)
    (index : Nat) : (body.withClose bodies index).PathFromText := by
  cases body <;> exact h

theorem pathFromText_of_body? {d : Delimiters} {source : String} {index : Nat} {body : NodeBody}
    (h : (Template.parse d source).body? index = some body) : body.PathFromText := by
  obtain ⟨p, -, rfl⟩ := Template.exists_read_of_body? h
  exact ((pathFromText_read p).step index _).withClose _ index

end NodeBody

theorem trimmed_ne_empty_of_ofString? {text : String} {p : Path}
    (h : Path.ofString? text = some p) : trimmed text ≠ "" := by
  intro hblank
  have htrim : trim text.toList = [] := by
    have hlist := congrArg String.toList hblank
    rwa [trimmed, String.toList_ofList] at hlist
  unfold Path.ofString? Path.ofChars? at h
  rw [htrim] at h
  cases h

def TypeRef.IsUnknown : TypeRef → Prop
  | root => False
  | own t => t.isUnknown = true

theorem TypeRef.isUnknown_unknown : (own .unknown).IsUnknown :=
  TypeNode.isUnknown_scalar List.mem_cons_self

theorem TypeRef.IsUnknown.type {ref : TypeRef} (h : ref.IsUnknown) (root : TypeNode) :
    (ref.type root).isUnknown = true := by
  cases ref with
  | root => exact h.elim
  | own t => exact h

theorem isUnknown_rangeElement {type? : Option TypeNode}
    (h : ∀ t, type? = some t → t.isUnknown = false → t.isIterable = false) :
    (TypeRef.own (rangeElement type?)).IsUnknown := by
  cases type? with
  | none => exact TypeRef.isUnknown_unknown
  | some t =>
    have hother : (t.isIterable && !t.isUnknown) = false := by
      cases hu : t.isUnknown with
      | true => exact Bool.and_false _
      | false => rw [h t rfl hu, Bool.false_and]
    simp only [rangeElement, hother]
    exact TypeRef.isUnknown_unknown

namespace ScopeStack

variable {s : ScopeStack} {o : Options} {expr : String} {p : Path}

theorem check_path_cases (o : Options) (hexpr : trimmed expr ≠ "") :
    (∃ e, s.resolve p = .error e ∧
        s.check o expr (some p) = { problems := [s.pathProblem p e], count := 1 }) ∨
      ∃ ref, s.check o expr (some p) = { type? := some ref, count := 1 } := by
  unfold check checkPipeline
  rw [if_neg hexpr]
  dsimp only
  cases hresolve : s.resolve p with
  | ok ref =>
    rw [checkPath_of_resolve_eq_ok hresolve]
    exact .inr ⟨ref, rfl⟩
  | error e =>
    unfold checkPath
    rw [hresolve]
    dsimp only
    split
    · exact .inr ⟨_, rfl⟩
    · exact .inl ⟨e, rfl, rfl⟩

section

variable (hdot : s.top.dot.IsUnknown) (hp : p.root = .dot)
include hdot hp

theorem exists_resolve_of_isUnknown : ∃ ref, s.resolve p = .ok ref ∧ ref.IsUnknown := by
  have hbase : s.env.base p.root = .ok s.top.dot := by
    rw [hp]
    rfl
  unfold resolve Env.resolve
  rw [hbase]
  dsimp only
  split
  · exact ⟨_, rfl, hdot⟩
  · obtain ⟨u, hu, hunknown⟩ :
        ∃ u, (s.top.dot.type s.env.root).descend 0 p.segments = .ok u ∧ u.isUnknown = true :=
      TypeNode.exists_descend_of_isUnknown (hdot.type s.root) p.segments
    rw [hu]
    exact ⟨.own u, rfl, hunknown⟩

theorem check_of_isUnknown (o : Options) (expr : String) :
    (s.check o expr (some p)).problems = [] ∧
      ∀ ref, (s.check o expr (some p)).type? = some ref → ref.IsUnknown := by
  obtain ⟨ref, hresolve, hunknown⟩ := exists_resolve_of_isUnknown hdot hp
  unfold check checkPipeline
  split
  · exact ⟨rfl, fun _ h => by cases h⟩
  · dsimp only
    rw [checkPath_of_resolve_eq_ok hresolve]
    refine ⟨rfl, ?_⟩
    rintro ref' ⟨⟩
    exact hunknown

end

/-- A `range` whose header comes to nothing that it could go through, and a `with` whose header
comes to nothing, have an unknown dot in their bodies. -/
theorem isUnknown_bodyDot {b : BlockOpen} (around : TypeRef)
    (hrange : b.kind = .range → ∀ ref, (s.check o b.expr b.path).type? = some ref →
      (ref.type s.root).isUnknown = false → (ref.type s.root).isIterable = false)
    (hwith : b.kind = .with_ → ∀ ref, (s.check o b.expr b.path).type? = some ref → ref.IsUnknown)
    (hkind : b.kind = .range ∨ b.kind = .with_) : (s.bodyDot o around b).IsUnknown := by
  unfold bodyDot
  rcases hkind with hkind | hkind
  · rw [hkind]
    apply isUnknown_rangeElement
    intro t ht
    obtain ⟨ref, href, rfl⟩ := Option.map_eq_some_iff.1 ht
    exact hrange hkind ref href
  · rw [hkind]
    cases htype : (s.check o b.expr b.path).type? with
    | none => exact TypeRef.isUnknown_unknown
    | some ref => exact hwith hkind ref htype

theorem elementOf_snd_of_isUnknown {type? : Option TypeRef}
    (h : ∀ ref, type? = some ref → ref.IsUnknown) : (s.elementOf expr type?).2 = [] := by
  cases type? with
  | none => rfl
  | some ref =>
    unfold elementOf
    rw [Option.map_some]
    dsimp only
    rw [if_pos ((h ref rfl).type s.root)]

end ScopeStack

def isPathFromDot (decl : Option Declaration) (path : Option Path) : Bool :=
  decl.isNone && path.any fun p => p.root = .dot

theorem isPathFromDot_iff {decl : Option Declaration} {path : Option Path} :
    isPathFromDot decl path = true ↔ decl = none ∧ ∃ p, path = some p ∧ p.root = .dot := by
  simp [isPathFromDot, Option.any_eq_true]

/-- A construct or branch that names no template, and whose header is a path from dot if there is
one. -/
def BlockOpen.isDotted (b : BlockOpen) : Bool :=
  match b.kind with
  | .range | .with_ | .if_ | .elseIf => isPathFromDot b.decl b.path
  | .else_ => true
  | .define | .block | .template => false

def NodeBody.isDotted : NodeBody → Bool
  | text | comment _ | loopControl _ | blockClose _ => true
  | action a => isPathFromDot a.decl a.path
  | blockOpen b => b.isDotted
  | malformed _ => false

theorem ScopeStack.isUnknown_bodyDot_of_isDotted {s : ScopeStack} {o : Options} {around : TypeRef}
    {b : BlockOpen} (hb : b.isDotted = true) (hdot : s.top.dot.IsUnknown)
    (haround : around.IsUnknown) : (s.bodyDot o around b).IsUnknown := by
  have htype (hpath : isPathFromDot b.decl b.path = true) (ref : TypeRef)
      (href : (s.check o b.expr b.path).type? = some ref) : ref.IsUnknown := by
    obtain ⟨-, p, hp, hroot⟩ := isPathFromDot_iff.1 hpath
    rw [hp] at href
    exact (check_of_isUnknown hdot hroot o b.expr).2 ref href
  unfold BlockOpen.isDotted at hb
  cases hkind : b.kind with
  | range | with_ =>
    rw [hkind] at hb
    refine isUnknown_bodyDot around (fun _ ref href hknown => ?_) (fun _ => htype hb)
      (by simp [hkind])
    cases ((htype hb ref href).type _).symm.trans hknown
  | if_ | elseIf | else_ =>
    unfold bodyDot
    rw [hkind]
    exact haround
  | define | block | template =>
    rw [hkind] at hb
    cases hb

namespace Walk

variable {w : Walk} {b : BlockOpen} (o : Options)

theorem problems_openRange_of_undeclared (hdecl : b.decl = none) :
    (w.openRange o b).problems = (w.stack.check o b.expr b.path).problems ++
      (w.stack.elementOf b.expr (w.stack.check o b.expr b.path).type?).2 := by
  unfold openRange
  dsimp only
  rw [hdecl]
  exact List.append_nil _

theorem problems_openWith_of_undeclared (hdecl : b.decl = none) :
    (w.openWith o b).problems = (w.stack.check o b.expr b.path).problems := by
  unfold openWith
  dsimp only
  rw [hdecl]
  exact List.append_nil _

theorem problems_openConstruct_of_type?_eq_none (file : String) (pos : Position)
    (hkind : b.kind = .range ∨ b.kind = .with_) (hdecl : b.decl = none)
    (hnone : (w.stack.check o b.expr b.path).type? = none) :
    (w.openConstruct o file pos b).problems = (w.stack.check o b.expr b.path).problems := by
  unfold openConstruct
  rcases hkind with hkind | hkind
  · rw [hkind]
    dsimp only
    rw [problems_openRange_of_undeclared o hdecl, hnone]
    exact List.append_nil _
  · rw [hkind]
    exact problems_openWith_of_undeclared o hdecl

theorem problems_openConstruct_of_isIterable_eq_false (file : String) (pos : Position)
    {ref : TypeRef} (hkind : b.kind = .range) (hdecl : b.decl = none)
    (hquiet : (w.stack.check o b.expr b.path).problems = [])
    (href : (w.stack.check o b.expr b.path).type? = some ref)
    (hknown : (ref.type w.stack.root).isUnknown = false)
    (hiterable : (ref.type w.stack.root).isIterable = false) :
    (w.openConstruct o file pos b).problems =
      [.notIterable (trimmed b.expr) (ref.type w.stack.root).label] := by
  unfold openConstruct
  rw [hkind]
  dsimp only
  rw [problems_openRange_of_undeclared o hdecl, hquiet, href]
  simp [ScopeStack.elementOf, hknown, hiterable]

section

variable (hb : isPathFromDot b.decl b.path = true) (hdot : w.stack.top.dot.IsUnknown)
include hb hdot

theorem problems_openRange : (w.openRange o b).problems = [] := by
  obtain ⟨hdecl, p, hpath, hroot⟩ := isPathFromDot_iff.1 hb
  obtain ⟨hquiet, htype⟩ := ScopeStack.check_of_isUnknown hdot hroot o b.expr
  rw [problems_openRange_of_undeclared o hdecl, hpath, hquiet,
    ScopeStack.elementOf_snd_of_isUnknown htype]
  rfl

theorem problems_openWith : (w.openWith o b).problems = [] := by
  obtain ⟨hdecl, p, hpath, hroot⟩ := isPathFromDot_iff.1 hb
  rw [problems_openWith_of_undeclared o hdecl, hpath]
  exact (ScopeStack.check_of_isUnknown hdot hroot o b.expr).1

theorem problems_openIf : (w.openIf o b).problems = [] := by
  obtain ⟨hdecl, p, hpath, hroot⟩ := isPathFromDot_iff.1 hb
  unfold openIf
  dsimp only
  rw [hpath, hdecl, (ScopeStack.check_of_isUnknown hdot hroot o b.expr).1]
  rfl

end

theorem problems_openBranch (hb : b.kind = .elseIf → isPathFromDot b.decl b.path = true)
    (hdot : b.group.isSome = true → w.enterBranch.stack.top.dot.IsUnknown) :
    (w.openBranch o b).problems = [] := by
  unfold openBranch
  split
  · rfl
  · next hgroup =>
    dsimp only
    split
    · next hkind =>
      obtain ⟨hdecl, p, hpath, hroot⟩ := isPathFromDot_iff.1 (hb hkind)
      have hunknown := hdot (by simpa [Option.isSome_iff_ne_none] using hgroup)
      rw [hpath, hdecl, (ScopeStack.check_of_isUnknown hunknown hroot o b.expr).1]
      rfl
    · rfl

theorem problems_action {a : Action} (ha : isPathFromDot a.decl a.path = true)
    (hdot : w.stack.top.dot.IsUnknown) : (w.action o a).problems = [] := by
  obtain ⟨hdecl, p, hpath, hroot⟩ := isPathFromDot_iff.1 ha
  unfold action
  split
  · rfl
  · dsimp only
    rw [hpath, hdecl, (ScopeStack.check_of_isUnknown hdot hroot o a.expr).1]
    rfl

theorem problems_effect (file : String) {n : Node} (hbody : n.body.isDotted = true)
    (hdot : (w.facing n.body).stack.top.dot.IsUnknown) : (w.effect o file n).problems = [] := by
  unfold effect
  cases hn : n.body with
  | action a =>
    rw [hn] at hbody hdot
    exact problems_action o hbody hdot
  | blockOpen b =>
    rw [hn] at hbody hdot
    change b.isDotted = true at hbody
    change (w.openConstruct o file n.pos b).problems = []
    unfold BlockOpen.isDotted at hbody
    unfold openConstruct
    cases hkind : b.kind with
    | range =>
      rw [hkind] at hbody
      rw [w.facing_of_isBranch_eq_false (by rw [hkind]; rfl)] at hdot
      exact problems_openRange o hbody hdot
    | with_ =>
      rw [hkind] at hbody
      rw [w.facing_of_isBranch_eq_false (by rw [hkind]; rfl)] at hdot
      exact problems_openWith o hbody hdot
    | if_ =>
      rw [hkind] at hbody
      rw [w.facing_of_isBranch_eq_false (by rw [hkind]; rfl)] at hdot
      exact problems_openIf o hbody hdot
    | elseIf | else_ =>
      rw [hkind] at hbody
      refine problems_openBranch o (fun h => ?_) fun hgroup => ?_
      · cases hkind.symm.trans h <;> exact hbody
      · obtain ⟨c, hc⟩ := Option.isSome_iff_exists.1 hgroup
        rwa [w.facing_of_branch (by rw [hkind]; rfl) hc] at hdot
    | define | block | template =>
      rw [hkind] at hbody
      cases hbody
  | text | comment _ | blockClose _ | loopControl _ | malformed _ => rfl

end Walk

namespace Template

variable {t : Template} {o : Options} {ctx : Context} {i j : Nat} {b : BlockOpen} {p : Path}

/-- The node at `i` opens a `range` or a `with` over a path, without variables and without branches,
which ends at `j` and in whose body everything goes from dot. -/
structure DottedConstruct (t : Template) (i j : Nat) (b : BlockOpen) (p : Path) : Prop where
  opener : t.block? i = some b
  close : b.close = some j
  kind : b.kind = .range ∨ b.kind = .with_
  undeclared : b.decl = none
  path : b.path = some p
  unbranched : ∀ n ∈ t.nodes, n.body.group? ≠ some i
  body : ∀ k < j, i < k → ∀ n ∈ t.nodes[k]?, n.body.isDotted = true

namespace DottedConstruct

variable (h : t.DottedConstruct i j b p)
include h

theorem not_branched (index : Nat) : ¬t.Branched index i := by
  rintro ⟨m, -, -, b', hb', -, hgroup⟩
  obtain ⟨n, hn, hbody⟩ := Option.map_eq_some_iff.1 (block?_eq_some_iff.1 hb')
  apply h.unbranched n (List.mem_of_getElem? hn)
  rw [hbody]
  exact hgroup

theorem givesDot {k : Nat} (hik : i < k) (hkj : k ≤ j) : t.GivesDot k i := by
  refine ⟨hik, b, h.opener, fun j' hj' => ?_, .inr (.inr ⟨h.kind, h.not_branched _⟩)⟩
  cases h.close.symm.trans hj'
  exact hkj

theorem isDotted_of_block? {k : Nat} {b' : BlockOpen} (hik : i < k) (hkj : k < j)
    (hb' : t.block? k = some b') : b'.isDotted = true := by
  obtain ⟨n, hn, hbody⟩ := Option.map_eq_some_iff.1 (block?_eq_some_iff.1 hb')
  have hdotted := h.body k hkj hik n hn
  rwa [hbody] at hdotted

theorem isUnknown_dot (ht : t.WellPaired)
    (hopened : ∀ around, ((t.walkBefore o ctx i).stack.bodyDot o around b).IsUnknown)
    {k : Nat} (hik : i < k) (hkj : k ≤ j) : (t.scopeFacing o ctx k).top.dot.IsUnknown := by
  induction k using Nat.strongRecOn with
  | ind k ih =>
    have hgives := h.givesDot hik hkj
    have hlexical := ht.lexicalDot o ctx k
    generalize (t.scopeFacing o ctx k).top.dot = dot at hlexical ⊢
    cases hlexical with
    | first bare => exact absurd hgives (bare i)
    | @given _ c b' around gives innermost opener outside =>
      rcases Nat.eq_or_lt_of_le (innermost i hgives) with rfl | hic
      · cases h.opener.symm.trans opener
        exact hopened around
      · obtain ⟨hopen, -⟩ : c ∈ t.openBefore k ∧ (t.dotRule o ctx (k + 1)).SetsAt t c :=
          givesDot_iff.1 gives
        obtain ⟨hck, b'', hb'', hhasBody, -⟩ := mem_openBefore.1 hopen
        cases opener.symm.trans hb''
        have hdot := ih c hck hic (by omega)
        have haround : around.IsUnknown := (ht.lexicalDot o ctx c).unique outside ▸ hdot
        rw [scopeFacing_of_hasBody o ctx opener hhasBody] at hdot
        exact ScopeStack.isUnknown_bodyDot_of_isDotted
          (h.isDotted_of_block? hic (by omega) opener) hdot haround

end DottedConstruct

theorem diagnostics_run_eq_nil (o : Options) (ctx : Context) {i count : Nat}
    (h : ∀ k < i + count, i ≤ k → ∀ n ∈ t.nodes[k]?,
      ((t.walkBefore o ctx k).effect o ctx.file n).problems = []) :
    ((t.walkBefore o ctx i).run o ctx.file ((t.nodes.drop i).take count)).2.diagnostics = [] := by
  induction count generalizing i with
  | zero => rfl
  | succ count ih =>
    cases hn : t.nodes[i]? with
    | none =>
      rw [List.drop_eq_nil_of_le (List.getElem?_eq_none_iff.1 hn)]
      rfl
    | some n =>
      obtain ⟨hlt, hget⟩ := List.getElem?_eq_some_iff.1 hn
      have hrest := ih (i := i + 1) fun k hk hik => h k (by omega) (by omega)
      rw [walkBefore_succ o ctx hn] at hrest
      rw [List.drop_eq_getElem_cons hlt, hget, List.take_succ_cons, Walk.run_cons]
      change _ ++ _ = _
      rw [Walk.step, h i (by omega) (Nat.le_refl i) n hn]
      exact hrest

theorem DottedConstruct.diagnostics_segment (h : t.DottedConstruct i j b p) (ht : t.WellPaired)
    (hopened : ∀ around, ((t.walkBefore o ctx i).stack.bodyDot o around b).IsUnknown) {n : Node}
    (hn : t.nodes[i]? = some n) :
    ((t.walkBefore o ctx i).run o ctx.file (t.segment i j)).2.diagnostics =
      ((t.walkBefore o ctx i).openConstruct o ctx.file n.pos b).problems.map
        (.of ctx.file n.pos n.raw) := by
  have hpairs : t.Pairs i j := ⟨b, h.opener, h.close⟩
  have hij := ht.lt_of_pairs hpairs
  obtain ⟨hlt, hget⟩ := List.getElem?_eq_some_iff.1 hn
  have hbody : n.body = .blockOpen b := by
    have hopener := block?_eq_some_iff.1 h.opener
    rw [body?, hn] at hopener
    exact Option.some.inj hopener
  have hquiet : ∀ k < i + 1 + (j - i), i + 1 ≤ k → ∀ m ∈ t.nodes[k]?,
      ((t.walkBefore o ctx k).effect o ctx.file m).problems = [] := by
    intro k hkj hik m hm
    have hfaced : t.body? k = some m.body := congrArg (Option.map Node.body) hm
    have hdotted : m.body.isDotted = true := by
      rcases Nat.lt_or_eq_of_le (show k ≤ j by omega) with hkj | rfl
      · exact h.body k hkj hik m hm
      · rw [Option.some.inj (hfaced.symm.trans (ht.pairs_iff.1 hpairs))]
        rfl
    have hdot := h.isUnknown_dot ht hopened (k := k) (by omega) (by omega)
    rw [scopeFacing_of_body? o ctx hfaced] at hdot
    exact Walk.problems_effect o ctx.file hdotted hdot
  have hrest := diagnostics_run_eq_nil o ctx hquiet
  rw [walkBefore_succ o ctx hn] at hrest
  have hcount : j + 1 - i = j - i + 1 := by omega
  rw [segment, hcount, List.drop_eq_getElem_cons hlt, hget, List.take_succ_cons, Walk.run_cons]
  change _ ++ _ = _
  rw [Walk.step, hrest, List.append_nil, Walk.effect, hbody]

/-- Of a `range` or a `with` whose header fails, the walk that checks a template reports the header,
once, and nothing in the body: not if a path has no type, and not if a `range` goes through a type
without elements. -/
theorem failed_header_is_reported_alone (d : Delimiters) (o : Options) (ctx : Context)
    (source : String) {i j : Nat} {n : Node} {b : BlockOpen} {p : Path}
    (hn : (parse d source).nodes[i]? = some n) (h : (parse d source).DottedConstruct i j b p) :
    let t := parse d source
    let w := t.walkBefore o ctx i
    let header := (w.stack.check o b.expr b.path).type?
    let found := (w.run o ctx.file (t.segment i j)).2.diagnostics
    (header = none → ∃ e, w.stack.resolve p = .error e ∧
        found = [.of ctx.file n.pos n.raw (w.stack.pathProblem p e)]) ∧
      ∀ ref, b.kind = .range → header = some ref → (ref.type w.stack.root).isUnknown = false →
        (ref.type w.stack.root).isIterable = false →
        found = [.of ctx.file n.pos n.raw
          (.notIterable (trimmed b.expr) (ref.type w.stack.root).label)] := by
  intro t w header found
  have ht := wellPaired_parse d source
  have hpath : Path.ofString? b.expr = some p :=
    (NodeBody.pathFromText_of_body? (block?_eq_some_iff.1 h.opener)).symm.trans h.path
  have hcheck := ScopeStack.check_path_cases (s := w.stack) (p := p) o
    (trimmed_ne_empty_of_ofString? hpath)
  rw [← h.path] at hcheck
  constructor
  · intro hnone
    have hopened (around : TypeRef) : (w.stack.bodyDot o around b).IsUnknown :=
      ScopeStack.isUnknown_bodyDot around (fun _ _ href _ => by cases hnone.symm.trans href)
        (fun _ _ href => by cases hnone.symm.trans href) h.kind
    have hfound : found = _ := h.diagnostics_segment ht hopened hn
    rw [hfound, Walk.problems_openConstruct_of_type?_eq_none o _ _ h.kind h.undeclared hnone]
    rcases hcheck with ⟨e, hresolve, hheader⟩ | ⟨ref, hheader⟩
    · rw [hheader]
      exact ⟨e, hresolve, rfl⟩
    · cases hnone.symm.trans (congrArg Checked.type? hheader)
  · intro ref hkind href hknown hiterable
    have hopened (around : TypeRef) : (w.stack.bodyDot o around b).IsUnknown := by
      refine ScopeStack.isUnknown_bodyDot around (fun _ ref' href' _ => ?_) (fun hwith => ?_) h.kind
      · cases href.symm.trans href'
        exact hiterable
      · cases hkind.symm.trans hwith
    have hfound : found = _ := h.diagnostics_segment ht hopened hn
    have hproblems : (w.stack.check o b.expr b.path).problems = [] := by
      rcases hcheck with ⟨e, -, hheader⟩ | ⟨ref', hheader⟩
      · cases href.symm.trans (congrArg Checked.type? hheader)
      · rw [hheader]
    rw [hfound, Walk.problems_openConstruct_of_isIterable_eq_false o _ _ hkind h.undeclared
      hproblems href hknown hiterable]
    rfl

theorem failed_header_is_reported_alone_of_field_and_string :
    let t := parse {} (Delimiters.actions {} ["with .A", "range .B.C", ".D[0]", "else", ".E", "end",
      "end", "range .Title", ".F", "end"])
    let ctx : Context := { file := "page", root := .root [.scalar "Title" "string"] }
    let found i j := ((t.walkBefore {} ctx i).run {} "page" (t.segment i j)).2.diagnostics
    found 0 6 = [.of "page" ⟨1, 1⟩ (Delimiters.wrap {} "with .A")
        (.missing ⟨.dot, [.field "A"]⟩)] ∧
      found 7 9 = [.of "page" ⟨1, 63⟩ (Delimiters.wrap {} "range .Title")
        (.notIterable ".Title" "string")] := by
  intro t ctx found
  constructor
  · let b : BlockOpen :=
      { kind := .with_, args := ".A", expr := ".A", path := some ⟨.dot, [.field "A"]⟩
        close := some 6 }
    let n : Node := ⟨Delimiters.wrap {} "with .A", ⟨0, 11⟩, ⟨1, 1⟩, .blockOpen b⟩
    obtain ⟨hn, hunbranched, hbody, hheader⟩ : t.nodes[0]? = some n ∧
        (∀ m ∈ t.nodes, m.body.group? ≠ some 0) ∧
        (∀ k < 6, 0 < k → ∀ m ∈ t.nodes[k]?, m.body.isDotted = true) ∧
        ((t.walkBefore {} ctx 0).stack.check {} b.expr b.path).type?.isNone = true := by
      decide +kernel
    have hopener : t.block? 0 = some b :=
      block?_eq_some_iff.2 (congrArg (Option.map Node.body) hn)
    obtain ⟨e, he, hfound⟩ := (failed_header_is_reported_alone {} {} ctx _ hn
      ⟨hopener, rfl, .inr rfl, rfl, rfl, hunbranched, hbody⟩).1
        (Option.isNone_iff_eq_none.1 hheader)
    have hstart : t.walkBefore {} ctx 0 = ctx.walk := rfl
    rw [hstart] at he hfound
    cases he
    exact hfound
  · let b : BlockOpen :=
      { kind := .range, args := ".Title", expr := ".Title", path := some ⟨.dot, [.field "Title"]⟩
        close := some 9 }
    let n : Node :=
      ⟨Delimiters.wrap {} "range .Title", ⟨62, 78⟩, ⟨1, 63⟩, .blockOpen b⟩
    let s := (t.walkBefore {} ctx 7).stack
    obtain ⟨hn, hunbranched, hbody, hheader⟩ : t.nodes[7]? = some n ∧
        (∀ m ∈ t.nodes, m.body.group? ≠ some 7) ∧
        (∀ k < 9, 7 < k → ∀ m ∈ t.nodes[k]?, m.body.isDotted = true) ∧
        ((s.check {} b.expr b.path).type?.map (TypeRef.type s.root)).map
          (fun u => (u.isUnknown, u.isIterable, u.label)) = some (false, false, "string") := by
      decide +kernel
    obtain ⟨u, hu, hshape⟩ := Option.map_eq_some_iff.1 hheader
    obtain ⟨ref, href, rfl⟩ := Option.map_eq_some_iff.1 hu
    obtain ⟨hknown, hshape⟩ := Prod.mk.inj hshape
    obtain ⟨hiterable, hlabel⟩ := Prod.mk.inj hshape
    have hopener : t.block? 7 = some b :=
      block?_eq_some_iff.2 (congrArg (Option.map Node.body) hn)
    have hfound : found 7 9 = [.of "page" n.pos n.raw
        (.notIterable (trimmed b.expr) (ref.type s.root).label)] :=
      (failed_header_is_reported_alone {} {} ctx _ hn
        ⟨hopener, rfl, .inl rfl, rfl, rfl, hunbranched, hbody⟩).2 ref rfl href hknown hiterable
    have htrimmed : trimmed b.expr = ".Title" := by decide +kernel
    rw [htrimmed, hlabel] at hfound
    exact hfound

end Template
end TemplateLint
