import TemplateLint.Proofs.Lexemes

/-! Stretches of tokens. Tokens stand in the text in their order and without overlap, and those that
follow each other in a text are the tokens of the part of the text that they cover. -/
namespace TemplateLint
open Text

def Span.Covers (s : Span) (tokens : List Token) : Prop :=
  (∃ t ∈ tokens.head?, t.span.start = s.start) ∧ ∃ t ∈ tokens.getLast?, t.span.stop = s.stop

structure Token.Placed (tokens : List Token) : Prop where
  proper : ∀ t ∈ tokens, t.span.start < t.span.stop
  ordered : tokens.Pairwise fun t u => t.span.stop ≤ u.span.start

section

variable {s : Span} {t : Token} {tokens own : List Token}

theorem Span.Covers.unique {s' : Span} (h : s.Covers tokens) (h' : s'.Covers tokens) : s = s' := by
  obtain ⟨⟨first, hfirst, hstart⟩, last, hlast, hstop⟩ := h
  obtain ⟨⟨first', hfirst', hstart'⟩, last', hlast', hstop'⟩ := h'
  cases hfirst.symm.trans hfirst'
  cases hlast.symm.trans hlast'
  obtain ⟨start, stop⟩ := s
  obtain ⟨start', stop'⟩ := s'
  simp_all

theorem Token.covers_singleton (t : Token) : t.span.Covers [t] :=
  ⟨⟨t, rfl, rfl⟩, t, rfl, rfl⟩

theorem Span.Covers.append {s' : Span} (h : s.Covers tokens) (h' : s'.Covers own)
    (between : List Token) : Span.Covers ⟨s.start, s'.stop⟩ (tokens ++ (between ++ own)) := by
  obtain ⟨⟨first, hfirst, hstart⟩, -⟩ := h
  obtain ⟨-, last, hlast, hstop⟩ := h'
  refine ⟨⟨first, ?_, hstart⟩, last, ?_, hstop⟩
  · simp [List.head?_append, Option.mem_def.1 hfirst]
  · simp [List.getLast?_append, Option.mem_def.1 hlast]

theorem Token.Placed.sublist (h : Placed tokens) (hsub : own.Sublist tokens) : Placed own :=
  ⟨fun t ht => h.proper t (hsub.subset ht), h.ordered.sublist hsub⟩

theorem Token.Placed.within (h : Placed tokens) (hs : s.Covers tokens) (ht : t ∈ tokens) :
    s.start ≤ t.span.start ∧ t.span.stop ≤ s.stop := by
  obtain ⟨⟨first, hfirst, hstart⟩, last, hlast, hstop⟩ := hs
  constructor
  · obtain ⟨rest, rfl⟩ := List.head?_eq_some_iff.1 hfirst
    rcases List.mem_cons.1 ht with rfl | ht
    · exact hstart.ge
    · have hproper := h.proper first List.mem_cons_self
      have hbefore := (List.pairwise_cons.1 h.ordered).1 t ht
      omega
  · obtain ⟨front, rfl⟩ := List.getLast?_eq_some_iff.1 hlast
    rcases List.mem_append.1 ht with ht | ht
    · have hproper := h.proper last (by simp)
      have hbefore := (List.pairwise_append.1 h.ordered).2.2 t ht last (by simp)
      omega
    · cases List.mem_singleton.1 ht
      exact hstop.le

theorem Token.Placed.proper_of_covers (h : Placed tokens) (hs : s.Covers tokens) :
    s.start < s.stop := by
  obtain ⟨first, hfirst, -⟩ := hs.1
  have hmem := List.mem_of_mem_head? hfirst
  have hwithin := h.within hs hmem
  have hproper := h.proper first hmem
  omega

end

namespace Expr

variable {offset : Nat} {cs : List Char} {tokens pre post own : List Token}

namespace Lexed

theorem placed (h : Lexed offset cs tokens) : Token.Placed tokens := by
  induction h with
  | nil => exact ⟨by simp, .nil⟩
  | blank _ _ ih => exact ih
  | @token offset c lexeme _ _ _ _ _ hrest ih =>
    have hproper : offset < offset + byteLength (c :: lexeme) := by
      have hc := c.utf8Size_pos
      rw [byteLength_cons]
      omega
    exact ⟨List.forall_mem_cons.2 ⟨hproper, ih.proper⟩,
      List.pairwise_cons.2 ⟨hrest.le_start, ih.ordered⟩⟩

theorem tokenize (h : Lexed offset cs tokens) : tokenize offset cs = .ok tokens := by
  induction h with
  | nil => rw [Expr.tokenize]
  | blank hblank _ ih => rw [Expr.tokenize, if_pos hblank, ih]
  | token hblank hread _ ih =>
    rw [tokenize_token hblank (hread _ _ (follows_of_isPrefix List.prefix_rfl)), ih]
    rfl

theorem exists_tokenize (h : Lexed offset cs tokens) (offset' : Nat) :
    ∃ tokens', Expr.tokenize offset' cs = .ok tokens' := by
  induction h generalizing offset' with
  | nil => exact ⟨[], by rw [Expr.tokenize]⟩
  | @blank _ c _ _ hblank _ ih =>
    rw [Expr.tokenize, if_pos hblank]
    exact ih (offset' + c.utf8Size)
  | @token _ c lexeme tail kind _ hblank hread _ ih =>
    obtain ⟨tokens', htokens'⟩ := ih (offset' + byteLength (c :: lexeme))
    rw [tokenize_token hblank (hread _ _ (follows_of_isPrefix List.prefix_rfl)), htokens']
    exact ⟨_, rfl⟩

theorem drop (h : Lexed offset cs (pre ++ tokens)) :
    ∃ before after, cs = before ++ after ∧ Lexed (offset + byteLength before) after tokens ∧
      ∀ t ∈ tokens.head?, t.span.start = offset + byteLength before := by
  generalize hall : pre ++ tokens = all at h
  induction h generalizing pre with
  | nil =>
    obtain ⟨rfl, rfl⟩ := List.append_eq_nil_iff.1 hall
    exact ⟨[], [], rfl, .nil, by simp⟩
  | @blank offset c _ _ _ _ ih =>
    obtain ⟨before, after, rfl, hafter, hstart⟩ := ih hall
    refine ⟨c :: before, after, rfl, ?_, ?_⟩ <;> rw [byteLength_cons, ← Nat.add_assoc] <;> assumption
  | @token offset c lexeme tail kind _ hblank hread hrest ih =>
    cases pre with
    | nil =>
      cases hall
      exact ⟨[], _, rfl, .token hblank hread hrest, by simp⟩
    | cons t pre =>
      cases hall
      obtain ⟨before, after, rfl, hafter, hstart⟩ := ih rfl
      refine ⟨c :: lexeme ++ before, after, by simp, ?_, ?_⟩ <;>
        rw [byteLength_append, ← Nat.add_assoc] <;> assumption

theorem take (h : Lexed offset cs (tokens ++ post)) :
    ∃ front back, cs = front ++ back ∧ Lexed offset front tokens ∧
      (tokens = [] → front = []) ∧
      ∀ t ∈ tokens.getLast?, t.span.stop = offset + byteLength front := by
  generalize hall : tokens ++ post = all at h
  induction h generalizing tokens with
  | nil =>
    obtain ⟨rfl, rfl⟩ := List.append_eq_nil_iff.1 hall
    exact ⟨[], [], rfl, .nil, fun _ => rfl, by simp⟩
  | @blank offset c cs _ hblank _ ih =>
    cases tokens with
    | nil => exact ⟨[], c :: cs, rfl, .nil, fun _ => rfl, by simp⟩
    | cons t tokens =>
      obtain ⟨front, back, rfl, hfront, -, hstop⟩ := ih hall
      refine ⟨c :: front, back, rfl, .blank hblank hfront, by simp, ?_⟩
      rw [byteLength_cons, ← Nat.add_assoc]
      exact hstop
  | @token offset c lexeme tail kind _ hblank hread _ ih =>
    cases tokens with
    | nil => exact ⟨[], c :: (lexeme ++ tail), rfl, .nil, fun _ => rfl, by simp⟩
    | cons t tokens =>
      cases hall
      obtain ⟨front, back, rfl, hfront, hnil, hstop⟩ := ih rfl
      refine ⟨c :: (lexeme ++ front), back, by simp, .token hblank ?_ hfront, by simp, ?_⟩
      · intro offset' more hmore
        exact hread offset' more (hmore.mono (List.prefix_append front back))
      · cases tokens with
        | nil => simp [hnil rfl]
        | cons u tokens =>
          rw [List.getLast?_cons_cons, ← List.cons_append, byteLength_append, ← Nat.add_assoc]
          exact hstop

end Lexed

/-- Tokens that follow each other in a text are those of the part that they cover; there they
are at the same places, counted from its start. -/
theorem exists_slice_of_tokenize (h : tokenize 0 cs = .ok tokens) (hown : own <:+: tokens)
    (hne : own ≠ []) :
    ∃ before middle after own', cs = before ++ middle ++ after ∧
      tokenize 0 middle = .ok own' ∧ own = own'.map (Token.shift (byteLength before)) ∧
      Span.Covers ⟨byteLength before, byteLength before + byteLength middle⟩ own := by
  obtain ⟨pre, post, rfl⟩ := hown
  rw [List.append_assoc] at h
  obtain ⟨before, rest, rfl, hrest, hstart⟩ := (lexed_of_tokenize h).drop
  obtain ⟨middle, after, rfl, hmiddle, -, hstop⟩ := hrest.take
  rw [Nat.zero_add] at hstart hmiddle hstop
  obtain ⟨own', hown'⟩ := hmiddle.exists_tokenize 0
  have hshift := tokenize_shift hown' (byteLength before)
  rw [Nat.zero_add, hmiddle.tokenize] at hshift
  obtain ⟨first, hfirst⟩ : ∃ t, t ∈ own.head? := Option.isSome_iff_exists.1 (by simpa using hne)
  obtain ⟨last, hlast⟩ : ∃ t, t ∈ own.getLast? := Option.isSome_iff_exists.1 (by simpa using hne)
  have hfirst' : first ∈ (own ++ post).head? := by simp [List.head?_append, Option.mem_def.1 hfirst]
  exact ⟨before, middle, after, own', by simp, hown', Except.ok.inj hshift,
    ⟨first, hfirst, hstart first hfirst'⟩, last, hlast, hstop last hlast⟩

end Expr
end TemplateLint
