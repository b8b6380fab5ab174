import TemplateLint.Proofs.ExprSpans
import TemplateLint.Proofs.FastPath

/-! How paths are written in expressions. The tokens of a path stand side by side, each with a text
of its own. A path prints as it is written, unless it is in parentheses, has blanks around a key or
has a point to spare before its first segment. -/
namespace TemplateLint
open Text

namespace Segment

def Written (w : List Char) : Segment → Prop
  | field name =>
    w = '.' :: name.toList ∧ name.toList ≠ [] ∧ ∀ c ∈ name.toList, isNameChar c = true
  | index key => key.toList ≠ [] ∧ ∃ raw, w = '[' :: (raw ++ [']']) ∧ trim raw = key.toList

end Segment

def TokenKind.Written (w : List Char) : TokenKind → Prop
  | .field name => (Segment.field name).Written w
  | .index key => (Segment.index key).Written w
  | .dot => w = ['.']
  | .variable name => w = '$' :: name.toList
  | .leftParen => w = ['(']
  | .ident _ | .literal _ | .rightParen | .pipe => True

namespace Expr

section

variable {offset : Nat} {c : Char} {cs lexeme tail : List Char} {kind : TokenKind}
  {tokens : List Token}

theorem eq_takeWhile {p : Char → Bool} (h : cs = lexeme ++ cs.dropWhile p) :
    lexeme = cs.takeWhile p := by
  have hsplit := List.takeWhile_append_dropWhile (p := p) (l := cs)
  exact List.append_cancel_right (h.symm.trans hsplit.symm)

theorem written_of_readIndex (hcs : cs = lexeme ++ tail)
    (h : readIndex offset cs = .ok (kind, tail)) : kind.Written ('[' :: lexeme) := by
  unfold readIndex at h
  split at h
  · cases h
  · next key rest hcut =>
    split at h
    · cases h
    · next hkey =>
      cases h
      have hsplit := eq_of_cutBracket? hcut
      rw [hcs, List.append_cons, List.append_left_inj] at hsplit
      exact ⟨by simpa using hkey, key, by rw [hsplit], by simp⟩

theorem written_of_readNumber (h : readNumber offset cs = .ok (kind, tail)) :
    kind.Written lexeme := by
  unfold readNumber at h
  split at h <;> cases h
  exact trivial

theorem written_wordKind (name : List Char) : (wordKind name).Written lexeme := by
  rcases wordKind_cases name with hword | ⟨v, hword⟩ <;> rw [hword] <;> exact trivial

theorem written_field (hcs : cs = lexeme ++ cs.dropWhile isNameChar)
    (hnamed : cs.takeWhile isNameChar ≠ []) :
    (TokenKind.field (String.ofList (cs.takeWhile isNameChar))).Written ('.' :: lexeme) := by
  have hname := eq_takeWhile hcs
  rw [← hname] at hnamed ⊢
  refine ⟨by simp, by simpa using hnamed, ?_⟩
  rw [String.toList_ofList, hname]
  intro d hd
  exact List.mem_takeWhile_imp hd

theorem written_of_readToken (hcs : cs = lexeme ++ tail)
    (h : readToken offset c cs = .ok (kind, tail)) : kind.Written (c :: lexeme) := by
  cases tokenRead_of_readToken h with
  | number _ hread => exact written_of_readNumber hread
  | word => exact written_wordKind _
  | leftParen | dot => simpa [TokenKind.Written] using hcs
  | index hread => exact written_of_readIndex hcs hread
  | field _ hnamed => exact written_field hcs hnamed
  | dollar => simp [TokenKind.Written, ← eq_takeWhile hcs]
  | rightParen | pipe | string | raw | char => exact trivial

theorem Lexed.exists_written (h : Lexed offset cs tokens) :
    ∀ t ∈ tokens, ∃ before w after, cs = before ++ w ++ after ∧ t.kind.Written w ∧
      t.span = ⟨offset + byteLength before, offset + byteLength before + byteLength w⟩ := by
  induction h with
  | nil => simp
  | @blank offset c _ _ _ _ ih =>
    intro t ht
    obtain ⟨before, w, after, rfl, hw, hspan⟩ := ih t ht
    exact ⟨c :: before, w, after, rfl, hw, by rw [hspan, byteLength_cons, Nat.add_assoc]⟩
  | @token offset c lexeme tail _ _ _ hread _ ih =>
    rw [List.forall_mem_cons]
    constructor
    · refine ⟨[], c :: lexeme, tail, by simp, ?_, rfl⟩
      exact written_of_readToken rfl (hread offset tail (follows_of_isPrefix List.prefix_rfl))
    · intro t ht
      obtain ⟨before, w, after, rfl, hw, hspan⟩ := ih t ht
      refine ⟨c :: lexeme ++ before, w, after, by simp, hw, ?_⟩
      rw [hspan, byteLength_append, Nat.add_assoc offset]

theorem exists_slice_of_mem {t : Token} (h : tokenize 0 cs = .ok tokens) (ht : t ∈ tokens) :
    ∃ w, slice? t.span cs = some w ∧ t.kind.Written w := by
  obtain ⟨before, w, after, hcs, hw, hspan⟩ := (lexed_of_tokenize h).exists_written t ht
  exact ⟨w, slice?_eq_some_iff.2 ⟨before, after, hcs, by simpa using hspan⟩, hw⟩

end

end Expr

inductive Segment.Traced : Nat → List Token → List Segment → List Char → Prop where
  | nil {start : Nat} : Traced start [] [] []
  | cons {start : Nat} {w text : List Char} {tokens : List Token} {segment : Segment}
      {segments : List Segment} (written : segment.Written w)
      (more : Traced (start + byteLength w) tokens segments text) :
      Traced start (⟨segment.tokenKind, ⟨start, start + byteLength w⟩⟩ :: tokens)
        (segment :: segments) (w ++ text)

inductive Path.Traced (start : Nat) : List Token → Path → List Char → Prop where
  | field {name : String} {tokens : List Token} {segments : List Segment} {text : List Char}
      (spelled : Segment.Traced start tokens (.field name :: segments) text) :
      Traced start tokens ⟨.dot, .field name :: segments⟩ text
  | point {tokens : List Token} {segments : List Segment} {text : List Char}
      (spelled : Segment.Traced (start + 1) tokens segments text) :
      Traced start (⟨.dot, ⟨start, start + 1⟩⟩ :: tokens) ⟨.dot, segments⟩ ('.' :: text)
  | dollar {name : String} {tokens : List Token} {segments : List Segment} {text : List Char}
      (spelled : Segment.Traced (start + byteLength ('$' :: name.toList)) tokens segments text) :
      Traced start
        (⟨.variable name, ⟨start, start + byteLength ('$' :: name.toList)⟩⟩ :: tokens)
        ⟨if name = "" then .root else .var name, segments⟩ ('$' :: name.toList ++ text)

section

variable {start stop : Nat} {w text cs : List Char} {tokens own : List Token} {t : Token}
  {segment : Segment} {segments : List Segment} {p : Path} {s : Span}

theorem TokenKind.eq_of_segment? {kind : TokenKind} (h : kind.segment? = some segment) :
    kind = segment.tokenKind := by
  cases kind <;> cases h <;> rfl

theorem Segment.written_of_tokenKind (h : segment.tokenKind.Written w) : segment.Written w := by
  cases segment <;> exact h

theorem Segment.Traced.snoc (h : Traced start tokens segments text)
    (hkind : t.kind = segment.tokenKind) (hw : segment.Written w)
    (hspan : t.span = ⟨start + byteLength text, start + byteLength text + byteLength w⟩) :
    Traced start (tokens ++ [t]) (segments ++ [segment]) (text ++ w) := by
  induction h with
  | nil =>
    obtain ⟨kind, span⟩ := t
    rw [show kind = segment.tokenKind from hkind, show span = _ from hspan]
    simpa using cons hw nil
  | cons written _ ih =>
    rw [List.append_assoc]
    refine cons written (ih ?_)
    rw [hspan, byteLength_append, ← Nat.add_assoc]

theorem Path.Traced.snoc (h : p.Traced start tokens text) (hkind : t.kind = segment.tokenKind)
    (hw : segment.Written w)
    (hspan : t.span = ⟨start + byteLength text, start + byteLength text + byteLength w⟩) :
    Path.Traced start (tokens ++ [t]) ⟨p.root, p.segments ++ [segment]⟩ (text ++ w) := by
  cases h with
  | field spelled => exact field (spelled.snoc hkind hw hspan)
  | point spelled =>
    refine point (spelled.snoc hkind hw ?_)
    rw [hspan, byteLength_cons, ← Nat.add_assoc]
    rfl
  | dollar spelled =>
    rw [List.append_assoc]
    refine dollar (spelled.snoc hkind hw ?_)
    rw [hspan, byteLength_append, ← Nat.add_assoc]

theorem Path.exists_traced {o : Expr.Operand} (h : o.Spelled own) (ho : o = .path s p)
    (htext : ∀ t ∈ own, ∃ w, slice? t.span cs = some w ∧ t.kind.Written w) :
    ∃ text, slice? s cs = some text ∧ p.Traced s.start own text := by
  induction h generalizing s p with
  | @token t o taken =>
    subst ho
    obtain ⟨w, hw, hwritten⟩ := htext t List.mem_cons_self
    obtain ⟨before, _, -, hspan⟩ := slice?_eq_some_iff.1 hw
    obtain ⟨kind, span⟩ := t
    cases hspan
    unfold Expr.Operand.ofToken at taken
    split at taken
    · next name hkind =>
      cases taken
      cases hkind
      have htraced : Path.Traced (byteLength before) _ ⟨.dot, [.field name]⟩ (w ++ []) :=
        .field (.cons hwritten .nil)
      rw [List.append_nil] at htraced
      exact ⟨w, hw, htraced⟩
    · next hkind =>
      cases taken
      cases hkind
      cases hwritten
      exact ⟨_, hw, .point .nil⟩
    · next name hkind =>
      cases taken
      cases hkind
      cases hwritten
      have htraced : Path.Traced (byteLength before) _ _ ('$' :: name.toList ++ []) := .dollar .nil
      rw [List.append_nil] at htraced
      exact ⟨_, hw, htraced⟩
    all_goals cases taken
  | paren => cases ho
  | @longer tokens t o longer segment _ isSegment adjacent extended ih =>
    cases o with
    | path s' p' =>
      cases extended
      cases ho
      obtain ⟨text, hslice, htraced⟩ := ih rfl fun u hu => htext u (List.mem_append_left _ hu)
      obtain ⟨w, hw, hwritten⟩ := htext t (by simp)
      obtain ⟨_, _, -, hspan⟩ := slice?_eq_some_iff.1 hslice
      obtain ⟨_, _, -, hspan'⟩ := slice?_eq_some_iff.1 hw
      have hkind := TokenKind.eq_of_segment? isSegment
      rw [hkind] at hwritten
      have hjoined : slice? ⟨s'.stop, t.span.stop⟩ cs = some w := by
        rw [show s'.stop = t.span.start from adjacent]
        exact hw
      refine ⟨text ++ w, slice?_append hslice hjoined, ?_⟩
      refine htraced.snoc hkind (Segment.written_of_tokenKind hwritten) ?_
      have hadjacent : s'.stop = t.span.start := adjacent
      rw [hspan] at hadjacent ⊢
      rw [hspan'] at hadjacent ⊢
      simp only [Span.mk.injEq] at hadjacent ⊢
      omega
    | paren => cases extended; cases ho
    | function | literal => cases extended

end

def Token.Tight (t : Token) : Prop :=
  ∀ key, t.kind = .index key → t.span.stop = t.span.start + (byteLength key.toList + 2)

/-- Tokens that spell a path as it prints, as far as they begin before `stop`. -/
structure Path.Verbatim (p : Path) (tokens : List Token) (stop : Nat) : Prop where
  opening : ∀ t ∈ tokens.head?, t.kind ≠ .leftParen ∧ (t.kind = .dot → p.segments = [])
  tight : ∀ t ∈ tokens, t.span.start < stop → t.Tight

namespace Segment

variable {start k : Nat} {w text rest xs ys raw : List Char} {tokens : List Token}
  {segment : Segment} {segments : List Segment}

theorem eq_trim_of_byteLength (h : byteLength raw = byteLength (trim raw)) : trim raw = raw := by
  obtain ⟨pre, post, -, -, hraw⟩ := exists_trim raw
  have hsize := congrArg byteLength hraw
  simp only [byteLength_append] at hsize
  have hpre : pre = [] := byteLength_eq_zero.1 (by omega)
  have hpost : post = [] := byteLength_eq_zero.1 (by omega)
  rw [hpre, hpost, List.append_nil, List.nil_append] at hraw
  exact hraw.symm

theorem Written.tight_iff (h : segment.Written w) :
    Token.Tight ⟨segment.tokenKind, ⟨start, start + byteLength w⟩⟩ ↔ w = segment.chars := by
  cases segment with
  | field name =>
    constructor
    · intro _
      exact h.1
    · rintro - key ⟨⟩
  | index key =>
    obtain ⟨-, raw, rfl, hraw⟩ := h
    have hbracket : '['.utf8Size = 1 ∧ ']'.utf8Size = 1 := by decide
    constructor
    · intro htight
      have hsize := htight key rfl
      simp only [byteLength_cons, byteLength_append, byteLength_nil, ← hraw] at hsize
      rw [chars, ← hraw, eq_trim_of_byteLength (by omega)]
      rfl
    · rintro heq _ ⟨⟩
      rw [heq, chars]
      simp only [byteLength_cons, byteLength_append, byteLength_nil]
      omega

theorem Written.eq_chars_of_isPrefix (h : segment.Written w)
    (hstarts : segment.chars ++ xs <+: w ++ ys) :
    w = segment.chars := by
  cases segment with
  | field name => exact h.1
  | index key =>
    obtain ⟨hkey, raw, rfl, hraw⟩ := h
    obtain ⟨pre, post, hpre, hpost, hsplit⟩ := exists_trim raw
    rw [hraw] at hsplit
    have hblank (c : Char) (hc : isBlank c = true) : c ≠ ']' := by
      rintro rfl
      exact absurd hc (by decide +kernel)
    have htext : key.toList ++ ']' :: xs <+: raw ++ ']' :: ys := by
      simpa [chars, List.cons_prefix_cons] using hstarts
    have hfirst := isBlank_head?_trim raw
    rw [hraw] at hfirst
    cases pre with
    | cons c pre =>
      cases hcs : key.toList with
      | nil => exact absurd hcs hkey
      | cons d ds =>
        rw [hcs] at hfirst
        rw [hsplit, hcs, List.cons_append, List.cons_append, List.cons_append,
          List.cons_prefix_cons] at htext
        have hnot := hfirst d rfl
        rw [htext.1, hpre c List.mem_cons_self] at hnot
        cases hnot
    | nil =>
      rw [hsplit, List.nil_append, List.append_assoc, List.prefix_append_right_inj] at htext
      cases post with
      | cons c post =>
        rw [List.cons_append, List.cons_prefix_cons] at htext
        exact absurd htext.1.symm (hblank c (hpost c List.mem_cons_self))
      | nil => simp [chars, hsplit]

theorem Traced.le_start (h : Traced start tokens segments text) :
    ∀ t ∈ tokens, start ≤ t.span.start := by
  induction h with
  | nil => simp
  | cons _ _ ih =>
    refine List.forall_mem_cons.2 ⟨le_rfl, ?_⟩
    intro t ht
    have hle := ih t ht
    omega

theorem Traced.tight_of_isPrefix (h : Traced start tokens segments text)
    (hstarts : (segments.take k).flatMap chars <+: text ++ rest) :
    ∀ t ∈ tokens,
      t.span.start < start + byteLength ((segments.take k).flatMap chars) → t.Tight := by
  induction h generalizing k with
  | nil => simp
  | @cons start w text tokens segment segments written more ih =>
    cases k with
    | zero =>
      intro t ht hlt
      have hle := (cons written more).le_start t ht
      rw [List.take_zero, List.flatMap_nil, byteLength_nil] at hlt
      omega
    | succ k =>
      rw [List.take_succ_cons, List.flatMap_cons] at hstarts ⊢
      rw [List.append_assoc] at hstarts
      have hw := written.eq_chars_of_isPrefix hstarts
      rw [hw, List.prefix_append_right_inj] at hstarts
      refine List.forall_mem_cons.2 ⟨fun _ => written.tight_iff.2 hw, ?_⟩
      rw [byteLength_append, ← Nat.add_assoc, ← hw]
      exact ih hstarts

theorem Traced.exists_of_tight (h : Traced start tokens segments text)
    (htight : ∀ t ∈ tokens, t.span.start < start + byteLength ((segments.take k).flatMap chars) →
      t.Tight) :
    ∃ more, text = (segments.take k).flatMap chars ++ more ∧ (segments.length ≤ k → more = []) := by
  induction h generalizing k with
  | nil => exact ⟨[], by simp, fun _ => rfl⟩
  | @cons start w text tokens segment segments written more ih =>
    cases k with
    | zero => exact ⟨w ++ text, by simp, by simp⟩
    | succ k =>
      rw [List.take_succ_cons, List.flatMap_cons] at htight ⊢
      rw [List.forall_mem_cons] at htight
      have hpos : 0 < byteLength segment.chars := by
        have hne : segment.chars ≠ [] := by cases segment <;> simp [chars]
        exact Nat.pos_of_ne_zero fun hzero => hne (byteLength_eq_zero.1 hzero)
      have hw : w = segment.chars := by
        apply written.tight_iff.1 (htight.1 ?_)
        rw [byteLength_append]
        dsimp only
        omega
      obtain ⟨after, rfl, hafter⟩ := ih (k := k) (by
        rw [byteLength_append, ← Nat.add_assoc, ← hw] at htight
        exact htight.2)
      refine ⟨after, by rw [hw, List.append_assoc], ?_⟩
      intro hlength
      exact hafter (by simpa using hlength)

end Segment

namespace Path

variable {start k : Nat} {text rest : List Char} {tokens : List Token} {segments : List Segment}
  {p : Path}

theorem chars_dot (h : segments ≠ []) :
    (⟨.dot, segments⟩ : Path).chars = segments.flatMap Segment.chars := by
  cases segments with
  | nil => contradiction
  | cons => rfl

theorem chars_dollar (name : String) (segments : List Segment) :
    (⟨if name = "" then .root else .var name, segments⟩ : Path).chars =
      '$' :: name.toList ++ segments.flatMap Segment.chars := by
  split
  · next h =>
    rw [h]
    rfl
  · rfl

theorem exists_chars_take (hk : p.root = .dot → p.segments ≠ [] → 0 < k) :
    ∃ c cs, (p.take k).chars = c :: cs ∧ c ≠ '(' := by
  obtain ⟨base, segments⟩ := p
  cases base with
  | dot =>
    cases segments with
    | nil => exact ⟨'.', [], by simp [take, chars], by decide⟩
    | cons segment segments =>
      obtain ⟨k, rfl⟩ := Nat.exists_eq_succ_of_ne_zero (hk rfl (by simp)).ne'
      rw [take, List.take_succ_cons, chars_dot (by simp), List.flatMap_cons]
      cases segment with
      | field name => exact ⟨'.', _, rfl, by decide⟩
      | index key => exact ⟨'[', _, rfl, by decide⟩
  | root => exact ⟨'$', _, rfl, by decide⟩
  | var name => exact ⟨'$', _, rfl, by decide⟩

theorem Traced.verbatim_of_isPrefix (h : p.Traced start tokens text)
    (hk : p.root = .dot → p.segments ≠ [] → 0 < k) (hstarts : (p.take k).chars <+: text ++ rest) :
    p.Verbatim tokens (start + byteLength (p.take k).chars) := by
  cases h with
  | @field name tokens segments text spelled =>
    have hne : (Segment.field name :: segments).take k ≠ [] := by
      simpa using (hk rfl (by simp)).ne'
    rw [take, chars_dot hne] at hstarts ⊢
    refine ⟨?_, spelled.tight_of_isPrefix hstarts⟩
    cases spelled with
    | cons =>
      rintro _ ⟨⟩
      exact ⟨nofun, nofun⟩
  | @point tokens segments text spelled =>
    cases spelled with
    | nil =>
      refine ⟨?_, ?_⟩
      · rintro _ ⟨⟩
        exact ⟨nofun, fun _ => rfl⟩
      · intro t ht _ key hkey
        rw [List.mem_singleton.1 ht] at hkey
        cases hkey
    | @cons _ _ _ _ segment segments written _ =>
      exfalso
      obtain ⟨k, rfl⟩ := Nat.exists_eq_succ_of_ne_zero (hk rfl (by simp)).ne'
      rw [take, List.take_succ_cons, chars_dot (by simp), List.flatMap_cons] at hstarts
      cases segment with
      | field name =>
        obtain ⟨rfl, hname, hchars⟩ := written
        obtain ⟨c, cs, hcs⟩ := List.exists_cons_of_ne_nil hname
        rw [Segment.chars, hcs] at hstarts
        have hpoint : c = '.' := (List.cons_prefix_cons.1 (List.cons_prefix_cons.1 hstarts).2).1
        have hc := hchars c (by simp [hcs])
        rw [hpoint] at hc
        exact absurd hc (by decide +kernel)
      | index key =>
        have hbracket := (List.cons_prefix_cons.1 hstarts).1
        exact absurd hbracket (by decide)
  | @dollar name tokens segments text spelled =>
    rw [take, chars_dollar, List.append_assoc, List.prefix_append_right_inj] at hstarts
    rw [take, chars_dollar, byteLength_append, ← Nat.add_assoc]
    refine ⟨?_, List.forall_mem_cons.2 ⟨?_, spelled.tight_of_isPrefix hstarts⟩⟩
    · rintro _ ⟨⟩
      exact ⟨nofun, nofun⟩
    · rintro - key ⟨⟩

theorem Traced.exists_of_verbatim (h : p.Traced start tokens text)
    (hk : p.root = .dot → p.segments ≠ [] → 0 < k)
    (hverbatim : p.Verbatim tokens (start + byteLength (p.take k).chars)) :
    ∃ more, text = (p.take k).chars ++ more ∧ (p.segments.length ≤ k → more = []) := by
  obtain ⟨hopening, htight⟩ := hverbatim
  cases h with
  | @field name tokens segments text spelled =>
    have hne : (Segment.field name :: segments).take k ≠ [] := by
      simpa using (hk rfl (by simp)).ne'
    rw [take, chars_dot hne] at htight ⊢
    exact spelled.exists_of_tight htight
  | @point tokens segments text spelled =>
    have hnil : segments = [] := (hopening _ rfl).2 rfl
    subst hnil
    cases spelled
    exact ⟨[], by simp [take, chars], fun _ => rfl⟩
  | @dollar name tokens segments text spelled =>
    rw [take, chars_dollar, byteLength_append, ← Nat.add_assoc] at htight
    obtain ⟨more, rfl, hmore⟩ := spelled.exists_of_tight (List.forall_mem_cons.1 htight).2
    exact ⟨more, by rw [take, chars_dollar, List.append_assoc], hmore⟩

end Path

namespace Expr

variable {s : Span} {p : Path} {own tokens : List Token}

theorem Operand.Spelled.exists_leftParen {o : Operand} {inner : Expr} {segments : List Segment}
    (h : o.Spelled tokens) (ho : o = .paren s inner segments) :
    ∃ t ∈ tokens.head?, t.kind = .leftParen := by
  induction h generalizing s segments with
  | @token t _ taken =>
    subst ho
    obtain ⟨kind, span⟩ := t
    cases kind <;> cases taken
  | paren opens => exact ⟨_, rfl, opens⟩
  | @longer tokens t o _ _ _ _ _ extended ih =>
    cases o with
    | paren s' inner' segments' =>
      cases extended
      cases ho
      obtain ⟨first, hfirst, hkind⟩ := ih rfl
      exact ⟨first, by simp [List.head?_append, Option.mem_def.1 hfirst], hkind⟩
    | path | function | literal => cases extended <;> cases ho

theorem Reads.path_cases (h : Reads own (.path s p)) :
    (∃ t ∈ own.head?, t.kind = .leftParen) ∨ (Operand.path s p).Spelled own := by
  obtain ⟨level, hruns, hfinish⟩ := h
  obtain ⟨hstages, hcommand⟩ := Level.command_of_finish (hfinish 0)
  cases hruns.spelled with
  | @mk front command _ stages operands _ _ =>
    rw [hstages] at stages
    cases stages
    rw [List.nil_append]
    unfold Level.command at hcommand
    split at hcommand
    · cases hcommand
    · next first hoperands =>
      rw [hoperands] at operands
      cases operands with
      | cons hfirst hrest =>
        cases hrest
        rw [List.append_nil]
        have hexpr := Except.ok.inj hcommand
        cases first with
        | path s' p' =>
          cases hexpr
          exact .inr hfirst
        | function | literal => cases hexpr
        | paren => exact .inl (hfirst.exists_leftParen rfl)
    · exact absurd hcommand Level.path_ne_of_apply

theorem Reads.exists_slice_of_leftParen {text : String} {e : Expr} {t : Token} (h : Reads own e)
    (htokens : tokenize 0 text.toList = .ok tokens) (hown : own <:+: tokens) (ht : t ∈ own.head?)
    (hkind : t.kind = .leftParen) : ∃ inner, slice? e.span text.toList = some ('(' :: inner) := by
  obtain ⟨written, -, hslice, -⟩ := h.exists_slice htokens hown
  obtain ⟨before, after, htext, hspan⟩ := slice?_eq_some_iff.1 hslice
  rw [List.append_assoc] at htext
  obtain ⟨w, hw, hwritten⟩ := exists_slice_of_mem htokens (hown.subset (List.mem_of_mem_head? ht))
  rw [hkind] at hwritten
  cases hwritten
  have hplace : t.span = ⟨byteLength before, byteLength before + byteLength ['(']⟩ := by
    obtain ⟨_, _, -, htspan⟩ := slice?_eq_some_iff.1 hw
    obtain ⟨first, hfirst, hstart⟩ := h.covers.1
    cases hfirst.symm.trans ht
    rw [htspan, hspan] at hstart
    dsimp only at hstart
    rw [htspan, hstart]
  rw [hplace, slice?_iff_isPrefix htext] at hw
  have hplaced := (lexed_of_tokenize htokens).placed.sublist hown.sublist
  have hproper := hplaced.proper_of_covers h.covers
  cases written with
  | nil => simp [hspan] at hproper
  | cons c inner =>
    rw [List.cons_append, List.cons_prefix_cons] at hw
    rw [← hw.1] at hslice
    exact ⟨inner, hslice⟩

theorem Reads.exists_verbatim_iff {text : String} (htokens : tokenize 0 text.toList = .ok tokens)
    (hown : own <:+: tokens) (h : Reads own (.path s p)) :
    ∃ written, slice? s text.toList = some written ∧
      ∀ k rest, (p.root = .dot → p.segments ≠ [] → 0 < k) →
        ((p.take k).chars <+: written ++ rest ↔
          p.Verbatim own (s.start + byteLength (p.take k).chars)) ∧
        ((p.take k).chars <+: written ++ rest → p.segments.length ≤ k →
          written = (p.take k).chars) := by
  rcases h.path_cases with ⟨t, ht, hkind⟩ | hspelled
  · obtain ⟨inner, hslice⟩ := h.exists_slice_of_leftParen htokens hown ht hkind
    refine ⟨'(' :: inner, hslice, ?_⟩
    intro k rest hk
    have hopening : ¬(p.take k).chars <+: '(' :: inner ++ rest := by
      obtain ⟨c, cs, hcs, hc⟩ := Path.exists_chars_take hk
      rw [hcs, List.cons_append, List.cons_prefix_cons]
      exact fun hstarts => hc hstarts.1
    exact ⟨iff_of_false hopening fun hverbatim => (hverbatim.opening t ht).1 hkind,
      fun hstarts => absurd hstarts hopening⟩
  · obtain ⟨written, hslice, htraced⟩ := Path.exists_traced hspelled rfl
      fun t ht => exists_slice_of_mem htokens (hown.subset ht)
    refine ⟨written, hslice, ?_⟩
    intro k rest hk
    refine ⟨⟨htraced.verbatim_of_isPrefix hk, ?_⟩, ?_⟩
    · intro hverbatim
      obtain ⟨more, rfl, -⟩ := htraced.exists_of_verbatim hk hverbatim
      rw [List.append_assoc]
      exact List.prefix_append _ _
    · intro hstarts hlength
      obtain ⟨more, hwritten, hmore⟩ :=
        htraced.exists_of_verbatim hk (htraced.verbatim_of_isPrefix hk hstarts)
      rwa [hmore hlength, List.append_nil] at hwritten

end Expr

end TemplateLint
