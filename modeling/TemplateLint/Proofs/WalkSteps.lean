import TemplateLint.Analysis.Check
import TemplateLint.Proofs.Pairing

/-! What one node does to the walk. The checks of pipelines only decide types; the frames and the
open constructs change in the few ways that `Walk.Move` lists. -/
namespace TemplateLint

def BlockKind.frame? : BlockKind → Option FrameKind
  | range => some .range
  | with_ => some .with_
  | if_ => some .if_
  | define => some .define
  | block => some .block
  | elseIf | else_ | template => none

def BlockKind.returnsDot : BlockKind → Bool
  | range | with_ => true
  | _ => false

def BlockKind.detaches : BlockKind → Bool
  | define | block => true
  | _ => false

theorem BlockKind.hasBody_of_frame? {kind : BlockKind} {f : FrameKind}
    (h : kind.frame? = some f) : kind.hasBody = true := by
  cases kind <;> first | rfl | cases h

/-- What a `range` goes through: unknown for a header that did not resolve, is unknown itself, cannot
be gone through or does not say what its elements are. -/
def rangeElement : Option TypeNode → TypeNode
  | none => .unknown
  | some t => if t.isIterable && !t.isUnknown then t.element?.getD .unknown else .unknown

namespace ScopeStack

/-- Dot in the body of a construct whose header is checked on the scope `s`; `around` is the dot
around the construct. -/
def bodyDot (s : ScopeStack) (o : Options) (around : TypeRef) (b : BlockOpen) : TypeRef :=
  let header := (s.check o b.expr b.path).type?
  match b.kind with
  | .range => .own (rangeElement (header.map (TypeRef.type s.root)))
  | .with_ => header.getD (.own .unknown)
  | .define => .root
  | .block =>
    if trimmed b.expr = "" then
      match o.blockContext with
      | .root => .root
      | .inherit => around
    else header.getD (.own .unknown)
  | .if_ | .elseIf | .else_ | .template => around

def withLocals (s : ScopeStack) (locals : NameMap TypeRef) : ScopeStack :=
  { s with top := { s.top with locals } }

theorem withLocals_self (s : ScopeStack) : s.withLocals s.top.locals = s := rfl

theorem withLocals_push (s : ScopeStack) (kind : FrameKind) (dot : TypeRef)
    (locals : NameMap TypeRef) :
    (s.push kind dot).withLocals locals =
      s.pushFrame { kind, dot, locals,
                    outer := if kind = .range ∨ kind = .with_ then some s.top.dot else none } :=
  rfl

theorem exists_foldl_bind {α : Type} (s : ScopeStack) (xs : List α) (name : α → String)
    (ref : α → TypeRef) :
    ∃ locals, xs.foldl (fun s x => s.bind (name x) (ref x)) s = s.withLocals locals := by
  induction xs generalizing s with
  | nil => exact ⟨_, (withLocals_self s).symm⟩
  | cons x xs ih =>
    obtain ⟨locals, h⟩ := ih (s.bind (name x) (ref x))
    exact ⟨locals, h⟩

theorem exists_bindAll (s : ScopeStack) (names : List String) (ref : TypeRef) :
    ∃ locals, s.bindAll names ref = s.withLocals locals :=
  exists_foldl_bind s names id fun _ => ref

theorem exists_declare (s : ScopeStack) (decl : Option Declaration) (type? : Option TypeRef) :
    ∃ locals, (s.declare decl type?).1 = s.withLocals locals := by
  unfold declare
  split
  · exact ⟨_, (withLocals_self s).symm⟩
  · exact exists_bindAll s _ _
  · exact ⟨_, (withLocals_self s).symm⟩

theorem exists_declareRange (s : ScopeStack) (decl : Option Declaration) (elem : TypeRef) :
    ∃ locals, (s.declareRange decl elem).1 = s.withLocals locals := by
  unfold declareRange
  split
  · exact ⟨_, (withLocals_self s).symm⟩
  · exact ⟨_, (withLocals_self s).symm⟩
  · exact ⟨_, rfl⟩
  · exact ⟨_, rfl⟩
  · exact exists_bindAll s _ _

theorem elementOf_fst (s : ScopeStack) (expr : String) (type? : Option TypeRef) :
    (s.elementOf expr type?).1 = .own (rangeElement (type?.map (TypeRef.type s.root))) := by
  unfold elementOf
  cases type?.map (TypeRef.type s.root) with
  | none => rfl
  | some t =>
    unfold rangeElement TypeNode.elementOrUnknown
    by_cases hu : t.isUnknown
    · simp [hu]
    · by_cases hi : t.isIterable <;> simp [hu, hi]

end ScopeStack

def Context.firstDot (c : Context) : TypeRef := c.dot.elim .root .own

theorem Context.exists_stack (c : Context) :
    ∃ locals, c.stack = (ScopeStack.start c.root c.firstDot).withLocals locals :=
  ScopeStack.exists_foldl_bind _ c.locals Prod.fst fun x => .own x.2

namespace Walk

def withLocals (w : Walk) (locals : NameMap TypeRef) : Walk :=
  { w with stack := w.stack.withLocals locals }

/-- The walk on which the pipeline of a node is checked: a branch is entered before its header is
looked at. -/
def facing (w : Walk) : NodeBody → Walk
  | .blockOpen b => if b.kind.isBranch && b.group.isSome then w.enterBranch else w
  | _ => w

theorem enterBranch_of_returnsDot {kind : BlockKind} (h : kind.returnsDot = true)
    (s : ScopeStack) (groups : List Group) :
    enterBranch ⟨s, ⟨kind, true⟩ :: groups⟩ = ⟨s.enterElse, ⟨kind, true⟩ :: groups⟩ := by
  cases kind <;> first | rfl | cases h

theorem enterBranch_of_returnsDot_eq_false {kind : BlockKind} (h : kind.returnsDot = false)
    (s : ScopeStack) (pushed : Bool) (groups : List Group) :
    enterBranch ⟨s, ⟨kind, pushed⟩ :: groups⟩ = ⟨s, ⟨kind, pushed⟩ :: groups⟩ := by
  cases kind <;> first | rfl | cases h

theorem facing_of_ungrouped (w : Walk) {body : NodeBody} (h : body.group? = none) :
    w.facing body = w := by
  unfold facing
  split
  · next b =>
    change b.group = none at h
    simp [h]
  · rfl

theorem facing_of_branch (w : Walk) {b : BlockOpen} {c : Nat} (hbranch : b.kind.isBranch = true)
    (hgroup : b.group = some c) : w.facing (.blockOpen b) = w.enterBranch := by
  unfold facing
  simp [hbranch, hgroup]

theorem facing_of_isBranch_eq_false (w : Walk) {b : BlockOpen} (h : b.kind.isBranch = false) :
    w.facing (.blockOpen b) = w := by
  unfold facing
  simp [h]

structure Opened (o : Options) (w : Walk) (b : BlockOpen) (f : Frame) : Prop where
  kind : b.kind.frame? = some f.kind
  dot : f.dot = w.stack.bodyDot o w.stack.top.dot b
  outer : f.outer = if b.kind.returnsDot then some w.stack.top.dot else none
  detached : f.detached = b.kind.detaches

theorem Opened.isBranch_eq_false {o : Options} {w : Walk} {b : BlockOpen} {f : Frame}
    (h : Opened o w b f) : b.kind.isBranch = false :=
  BlockKind.isBranch_eq_false_of_hasBody (BlockKind.hasBody_of_frame? h.kind)

inductive Move (o : Options) (w : Walk) : NodeBody → Walk → Prop where
  | frame {b : BlockOpen} {f : Frame} (opened : Opened o w b f) :
      Move o w (.blockOpen b) ⟨w.stack.pushFrame f, ⟨b.kind, true⟩ :: w.groups⟩
  | bare {b : BlockOpen} (kind : b.kind = .if_) (decl : b.decl = none) :
      Move o w (.blockOpen b) { w with groups := ⟨.if_, false⟩ :: w.groups }
  | branch {b : BlockOpen} (isBranch : b.kind.isBranch = true) (group : b.group.isSome = true) :
      Move o w (.blockOpen b) w.enterBranch
  /-- An `else if` with variables, which may give its `if` a frame. -/
  | branchFrame {b : BlockOpen} (isBranch : b.kind.isBranch = true)
      (group : b.group.isSome = true) (locals : NameMap TypeRef) :
      Move o w (.blockOpen b) (w.enterBranch.ensureFrame.withLocals locals)
  | close {c : Nat} : Move o w (.blockClose (some c)) (w.close (some c))
  | strayEnd : Move o w (.blockClose none) w
  | strayBranch {b : BlockOpen} (isBranch : b.kind.isBranch = true) (group : b.group = none) :
      Move o w (.blockOpen b) w
  | call {b : BlockOpen} (kind : b.kind = .template) : Move o w (.blockOpen b) w
  | plain {body : NodeBody} (isPlain : body.isPlain = true) (locals : NameMap TypeRef) :
      Move o w body (w.withLocals locals)

section

variable (o : Options) (file : String) (pos : Position) (w : Walk) {b : BlockOpen}

theorem move_push {kind : FrameKind} {dot : TypeRef} (locals : NameMap TypeRef)
    (hframe : b.kind.frame? = some kind) (hattached : b.kind.detaches = false)
    (hdot : dot = w.stack.bodyDot o w.stack.top.dot b) :
    Move o w (.blockOpen b)
      ⟨(w.stack.push kind dot).withLocals locals, ⟨b.kind, true⟩ :: w.groups⟩ := by
  rw [ScopeStack.withLocals_push]
  apply Move.frame
  refine ⟨hframe, hdot, ?_, hattached.symm⟩
  cases hkind : b.kind with
  | range | with_ | if_ =>
    rw [hkind] at hframe
    cases hframe
    rfl
  | define | block =>
    rw [hkind] at hattached
    cases hattached
  | elseIf | else_ | template =>
    rw [hkind] at hframe
    cases hframe

theorem move_pushDetached {kind : FrameKind} {dot : TypeRef}
    (hframe : b.kind.frame? = some kind) (hdetached : b.kind.detaches = true)
    (hdot : dot = w.stack.bodyDot o w.stack.top.dot b) :
    Move o w (.blockOpen b) ⟨w.stack.pushDetached kind dot, ⟨b.kind, true⟩ :: w.groups⟩ := by
  have houter : b.kind.returnsDot = false := by
    cases hkind : b.kind with
    | define | block => rfl
    | range | with_ | if_ | elseIf | else_ | template =>
      rw [hkind] at hdetached
      cases hdetached
  apply Move.frame
  refine ⟨hframe, hdot, ?_, hdetached.symm⟩
  rw [houter]
  rfl

theorem move_openRange (hkind : b.kind = .range) :
    Move o w (.blockOpen b) (w.openRange o b).walk := by
  have helem := w.stack.elementOf_fst b.expr (w.stack.check o b.expr b.path).type?
  unfold openRange
  dsimp only
  generalize w.stack.elementOf b.expr (w.stack.check o b.expr b.path).type? = found at helem ⊢
  obtain ⟨elem, more⟩ := found
  obtain ⟨locals, hlocals⟩ := ScopeStack.exists_declareRange (w.stack.push .range elem) b.decl elem
  change Move o w _ (w.enter .range ((w.stack.push .range elem).declareRange b.decl elem).1)
  rw [enter, hlocals, ← hkind]
  apply move_push
  · rw [hkind]
    rfl
  · rw [hkind]
    rfl
  · simp only [ScopeStack.bodyDot, hkind]
    exact helem

theorem move_openWith (hkind : b.kind = .with_) :
    Move o w (.blockOpen b) (w.openWith o b).walk := by
  let dot := (w.stack.check o b.expr b.path).type?.getD (.own .unknown)
  have hwalk : (w.openWith o b).walk =
      w.enter .with_ ((w.stack.push .with_ dot).declare b.decl (some dot)).1 := rfl
  obtain ⟨locals, hlocals⟩ := ScopeStack.exists_declare (w.stack.push .with_ dot) b.decl (some dot)
  rw [hwalk, hlocals, enter, ← hkind]
  apply move_push
  · rw [hkind]
    rfl
  · rw [hkind]
    rfl
  · simp only [ScopeStack.bodyDot, hkind]
    rfl

theorem move_openIf (hkind : b.kind = .if_) : Move o w (.blockOpen b) (w.openIf o b).walk := by
  cases hdecl : b.decl with
  | none =>
    have hwalk : (w.openIf o b).walk = { w with groups := ⟨.if_, false⟩ :: w.groups } := by
      unfold openIf declareConditional
      simp [hdecl]
    rw [hwalk]
    exact .bare hkind hdecl
  | some decl =>
    let type? := (w.stack.check o b.expr b.path).type?
    have hwalk : (w.openIf o b).walk =
        w.enter .if_ ((w.stack.push .if_ w.stack.top.dot).declare (some decl) type?).1 := by
      unfold openIf declareConditional
      rw [hdecl]
      rfl
    obtain ⟨locals, hlocals⟩ :=
      ScopeStack.exists_declare (w.stack.push .if_ w.stack.top.dot) (some decl) type?
    rw [hwalk, hlocals, enter, ← hkind]
    apply move_push
    · rw [hkind]
      rfl
    · rw [hkind]
      rfl
    · simp only [ScopeStack.bodyDot, hkind]

theorem move_openBranch (hkind : b.kind.isBranch = true) :
    Move o w (.blockOpen b) (w.openBranch o b).walk := by
  unfold openBranch
  split
  · next hgroup =>
    exact .strayBranch hkind (Option.isNone_iff_eq_none.1 hgroup)
  · next hgroup =>
    have hsome : b.group.isSome = true := by
      rw [Bool.not_eq_true, Option.isNone_eq_false_iff] at hgroup
      exact hgroup
    dsimp only
    split
    · unfold declareConditional
      split
      · obtain ⟨locals, hlocals⟩ := ScopeStack.exists_declare w.enterBranch.ensureFrame.stack b.decl
          (w.enterBranch.stack.check o b.expr b.path).type?
        have hmove := Move.branchFrame (o := o) (w := w) hkind hsome locals
        unfold Walk.withLocals at hmove
        rwa [← hlocals] at hmove
      · exact .branch hkind hsome
    · exact .branch hkind hsome

theorem move_openConstruct : Move o w (.blockOpen b) (w.openConstruct o file pos b).walk := by
  unfold openConstruct
  split
  · next hkind => exact move_openRange o w hkind
  · next hkind => exact move_openWith o w hkind
  · next hkind => exact move_openIf o w hkind
  · next hkind => exact move_openBranch o w (by rw [hkind]; rfl)
  · next hkind => exact move_openBranch o w (by rw [hkind]; rfl)
  · next hkind =>
    rw [openDefine, enter, ← hkind]
    apply move_pushDetached
    · rw [hkind]
      rfl
    · rw [hkind]
      rfl
    · simp only [ScopeStack.bodyDot, hkind]
  · next hkind =>
    rw [openBlock, enter, ← hkind]
    apply move_pushDetached
    · rw [hkind]
      rfl
    · rw [hkind]
      rfl
    · by_cases hblank : trimmed b.expr = ""
      · cases hcontext : o.blockContext <;>
          simp [ScopeStack.bodyDot, hkind, hblank, hcontext]
      · simp [ScopeStack.bodyDot, hkind, hblank]
  · next hkind => exact .call hkind

theorem move_action (a : Action) : Move o w (.action a) (w.action o a).walk := by
  unfold action
  split
  · exact .plain rfl w.stack.top.locals
  · obtain ⟨locals, hlocals⟩ :=
      ScopeStack.exists_declare w.stack a.decl (w.stack.check o a.expr a.path).type?
    dsimp only
    rw [hlocals]
    exact .plain rfl locals

theorem move_effect (n : Node) : Move o w n.body (w.effect o file n).walk := by
  unfold effect
  cases n.body with
  | action a => exact move_action o w a
  | blockOpen b => exact move_openConstruct o file n.pos w
  | blockClose opener =>
    cases opener with
    | none => exact .strayEnd
    | some c => exact .close
  | text => exact .plain rfl w.stack.top.locals
  | comment _ => exact .plain rfl w.stack.top.locals
  | loopControl _ => exact .plain rfl w.stack.top.locals
  | malformed _ => exact .plain rfl w.stack.top.locals

end

theorem run_append (o : Options) (file : String) (w : Walk) (xs ys : List Node) :
    (w.run o file (xs ++ ys)).1 = ((w.run o file xs).1.run o file ys).1 := by
  induction xs generalizing w with
  | nil => rfl
  | cons x xs ih => exact ih (w.step o file x).1

end Walk

namespace Template

def walkBefore (t : Template) (o : Options) (c : Context) (index : Nat) : Walk :=
  (c.walk.run o c.file (t.nodes.take index)).1

variable {t : Template} (o : Options) (c : Context) {index : Nat}

theorem walkBefore_succ {n : Node} (h : t.nodes[index]? = some n) :
    t.walkBefore o c (index + 1) = ((t.walkBefore o c index).effect o c.file n).walk := by
  obtain ⟨hlt, hget⟩ := List.getElem?_eq_some_iff.1 h
  unfold walkBefore
  rw [List.take_succ_eq_append_getElem hlt, hget, Walk.run_append]
  rfl

theorem move_walkBefore {body : NodeBody} (h : t.body? index = some body) :
    Walk.Move o (t.walkBefore o c index) body (t.walkBefore o c (index + 1)) := by
  obtain ⟨n, hn, rfl⟩ := Option.map_eq_some_iff.1 h
  rw [walkBefore_succ o c hn]
  exact Walk.move_effect ..

theorem walkBefore_succ_of_body?_eq_none (h : t.body? index = none) :
    t.walkBefore o c (index + 1) = t.walkBefore o c index := by
  rw [body?, Option.map_eq_none_iff, List.getElem?_eq_none_iff] at h
  unfold walkBefore
  rw [List.take_of_length_le (Nat.le_succ_of_le h), List.take_of_length_le h]

inductive Stride (t : Template) (o : Options) (index : Nat) (w : Walk) :
    NodeBody → List Nat → List Nat → Walk → Prop where
  | framed {b : BlockOpen} {f : Frame} {opened : List Nat}
      (ungrouped : (NodeBody.blockOpen b).group? = none) (frame : w.Opened o b f) :
      Stride t o index w (.blockOpen b) opened (index :: opened)
        ⟨w.stack.pushFrame f, ⟨b.kind, true⟩ :: w.groups⟩
  | bare {b : BlockOpen} {opened : List Nat} (ungrouped : (NodeBody.blockOpen b).group? = none)
      (kind : b.kind = .if_) (decl : b.decl = none) :
      Stride t o index w (.blockOpen b) opened (index :: opened)
        { w with groups := ⟨.if_, false⟩ :: w.groups }
  | branch {b : BlockOpen} {c : Nat} {opened : List Nat} (isBranch : b.kind.isBranch = true)
      (group : b.group = some c) :
      Stride t o index w (.blockOpen b) (c :: opened) (c :: opened) w.enterBranch
  | branchFrame {b : BlockOpen} {c : Nat} {opened : List Nat} (isBranch : b.kind.isBranch = true)
      (group : b.group = some c) (locals : NameMap TypeRef) :
      Stride t o index w (.blockOpen b) (c :: opened) (c :: opened)
        (w.enterBranch.ensureFrame.withLocals locals)
  | closes {c : Nat} {opened : List Nat} :
      Stride t o index w (.blockClose (some c)) (c :: opened) opened (w.close (some c))
  | keeps {body : NodeBody} {opened : List Nat} (ungrouped : body.group? = none)
      (locals : NameMap TypeRef) : Stride t o index w body opened opened (w.withLocals locals)

theorem Turn.stride {w next : Walk} {body : NodeBody} {opened after : List Nat}
    (hturn : t.Turn index body opened after) (hmove : w.Move o body next) :
    t.Stride o index w body opened after next := by
  cases hturn with
  | opens hbody hgroup =>
    cases hmove with
    | frame opened => exact .framed hgroup opened
    | bare hkind hdecl => exact .bare hgroup hkind hdecl
    | branch hbranch _ | branchFrame hbranch _ _ | strayBranch hbranch _ =>
      cases (BlockKind.isBranch_eq_false_of_hasBody hbody).symm.trans hbranch
    | call hkind =>
      rw [hkind] at hbody
      cases hbody
    | plain isPlain => cases isPlain
  | branch hbranch hgroup _ _ =>
    cases hmove with
    | branch _ _ => exact .branch hbranch hgroup
    | branchFrame _ _ locals => exact .branchFrame hbranch hgroup locals
    | frame opened => cases opened.isBranch_eq_false.symm.trans hbranch
    | bare hkind _ | call hkind =>
      rw [hkind] at hbranch
      cases hbranch
    | strayBranch _ hnone => cases hgroup.symm.trans hnone
    | plain isPlain => cases isPlain
  | strayBranch hbranch hgroup _ =>
    cases hmove with
    | strayBranch _ _ =>
      refine .keeps ?_ w.stack.top.locals
      exact hgroup
    | frame opened => cases opened.isBranch_eq_false.symm.trans hbranch
    | bare hkind _ | call hkind =>
      rw [hkind] at hbranch
      cases hbranch
    | branch _ hsome | branchFrame _ hsome _ =>
      rw [hgroup] at hsome
      cases hsome
    | plain isPlain => cases isPlain
  | call hkind hgroup =>
    cases hmove with
    | call _ =>
      refine .keeps ?_ w.stack.top.locals
      exact hgroup
    | frame opened =>
      have hframe := opened.kind
      rw [hkind] at hframe
      cases hframe
    | bare hkind' _ => cases hkind.symm.trans hkind'
    | branch hbranch _ | branchFrame hbranch _ _ | strayBranch hbranch _ =>
      rw [hkind] at hbranch
      cases hbranch
    | plain isPlain => cases isPlain
  | closes =>
    cases hmove with
    | close => exact .closes
    | plain isPlain => cases isPlain
  | strayEnd =>
    cases hmove with
    | strayEnd => exact .keeps rfl w.stack.top.locals
    | plain isPlain => cases isPlain
  | plain hplain =>
    cases hmove with
    | plain isPlain locals =>
      refine .keeps ?_ locals
      cases body with
      | blockOpen _ => cases isPlain
      | text | comment _ | action _ | blockClose _ | loopControl _ | malformed _ => rfl
    | frame | bare | branch | branchFrame | close | strayEnd | strayBranch | call => cases hplain

theorem WellPaired.stride (ht : t.WellPaired) {body : NodeBody} (h : t.body? index = some body) :
    t.Stride o index (t.walkBefore o c index) body (t.openBefore index)
      (t.openBefore (index + 1)) (t.walkBefore o c (index + 1)) :=
  Turn.stride o (ht.turn h) (move_walkBefore o c h)

end Template
end TemplateLint
