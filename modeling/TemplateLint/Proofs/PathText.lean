import TemplateLint.Expr.Parser
import TemplateLint.Path.Parser
import TemplateLint.Proofs.Resolution
import TemplateLint.Proofs.Scanning

/-! A text that is a path, as the reader of expressions cuts it into tokens. Blanks, names and
points are read alike by both readers; keys in brackets are not, because the two disagree on
quotes. -/
namespace TemplateLint
open Text

namespace Segment

inductive Reads : List Char → List Segment → Prop where
  | nil : Reads [] []
  | field {name rest : List Char} {segments : List Segment} (named : name ≠ [])
      (longest : takeName (name ++ rest) = (name, rest)) (more : Reads rest segments) :
      Reads ('.' :: (name ++ rest)) (.field (String.ofList name) :: segments)
  | index {key rest : List Char} {segments : List Segment} (closes : keyRule.Closes key)
      (keyed : trim key ≠ []) (more : Reads rest segments) :
      Reads ('[' :: (key ++ ']' :: rest)) (.index (String.ofList (trim key)) :: segments)

theorem reads_of_read? {cs rest : List Char} {segment : Segment} {segments : List Segment}
    (h : read? cs = some (segment, rest)) (hrest : Reads rest segments) :
    Reads cs (segment :: segments) := by
  unfold read? at h
  split at h
  · next cs =>
    have htake := takeName_append cs
    dsimp only at h
    split at h
    · cases h
    · next hname =>
      cases h
      have hreads := Reads.field hname (by rw [htake]) hrest
      rwa [htake] at hreads
  · next cs =>
    obtain ⟨⟨key, tail⟩, hcut, h⟩ := Option.bind_eq_some_iff.1 h
    dsimp only at h
    split at h
    · cases h
    · next hkey =>
      cases h
      rw [eq_of_cutBracket? hcut]
      exact .index (foldlM_of_cutBracket? hcut) hkey hrest
  · cases h

theorem reads_of_readAll? {cs : List Char} {segments : List Segment}
    (h : readAll? cs = some segments) : Reads cs segments := by
  fun_induction readAll? cs generalizing segments with
  | case1 =>
    cases h
    exact .nil
  | case2 => cases h
  | case3 cs hcs segment rest hread ih =>
    obtain ⟨more, hmore, rfl⟩ := Option.map_eq_some_iff.1 h
    exact reads_of_read? hread (ih hmore)

theorem proper_keyRule : keyRule.Proper := by
  refine ⟨by decide, ?_⟩
  intro c hc
  exact of_isBlank (P := fun c => keyRule.isQuote c = false) (by decide +kernel) hc

theorem Reads.closes {cs : List Char} {segments : List Segment} (h : Reads cs segments)
    {key : String} (hkey : .index key ∈ segments) : keyRule.Closes key.toList := by
  induction h with
  | nil => cases hkey
  | field _ _ _ ih =>
    rcases List.mem_cons.1 hkey with hkey | hkey
    · cases hkey
    · exact ih hkey
  | index closes _ _ ih =>
    rcases List.mem_cons.1 hkey with hkey | hkey
    · cases hkey
      rwa [String.toList_ofList, closes_trim proper_keyRule]
    · exact ih hkey

def tokenKind : Segment → TokenKind
  | field name => .field name
  | index key => .index key

end Segment

namespace Expr

theorem proper_indexRule : indexRule.Proper := by
  refine ⟨by decide, ?_⟩
  intro c hc
  exact of_isBlank (P := fun c => indexRule.isQuote c = false) (by decide +kernel) hc

theorem closes_of_plain {key : List Char} (h : Segment.keyRule.Closes key) (hquote : '\'' ∉ key)
    (hslash : '\\' ∉ key) : indexRule.Closes key := by
  have hfold (q : Quoting) :
      key.foldlM indexRule.next? q = key.foldlM Segment.keyRule.next? q := by
    clear h
    induction key generalizing q with
    | nil => rfl
    | cons c key ih =>
      rw [List.mem_cons, not_or] at hquote hslash
      have hnext : indexRule.next? q c = Segment.keyRule.next? q c := by
        cases q <;>
          simp [BracketRule.next?, indexRule, Segment.keyRule, Ne.symm hquote.1, Ne.symm hslash.1]
      rw [List.foldlM_cons, List.foldlM_cons, hnext]
      exact bind_congr fun q => ih hquote.2 hslash.2 q
  exact (hfold .outside).trans h

theorem readToken_bracket (offset : Nat) (cs : List Char) :
    readToken offset '[' cs = readIndex offset cs := by
  unfold readToken
  rw [if_neg (by simp [startsNumber]), if_neg (by decide +kernel)]
  rfl

theorem readToken_field {offset : Nat} {name rest post : List Char} (hname : name ≠ [])
    (htake : takeName (name ++ rest) = (name, rest)) (hpost : ∀ c ∈ post, isBlank c = true) :
    readToken offset '.' (name ++ rest ++ post) =
      .ok (.field (String.ofList name), rest ++ post) := by
  obtain ⟨htaken, hdropped⟩ := takeWhile_of_takeName htake hname
  have hplain : startsNumber '.' (name ++ rest ++ post) = false := by
    cases name with
    | nil => contradiction
    | cons c name =>
      rw [List.cons_append, takeName] at htake
      split at htake
      · next hstart => simp [startsNumber, isDigit_of_isNameStart hstart]
      · cases htake
  have htaken' := (takeWhile_append_blank hpost).trans htaken
  rw [(TokenRead.field hplain (htaken'.trans_ne hname)).readToken_eq, htaken',
    dropWhile_append_blank hpost, hdropped]

theorem readIndex_of_closes {offset : Nat} {key more : List Char} (hcloses : indexRule.Closes key)
    (hkey : trim key ≠ []) :
    readIndex offset (key ++ ']' :: more) = .ok (.index (String.ofList (trim key)), more) := by
  unfold readIndex
  rw [cutBracket?_append proper_indexRule hcloses]
  dsimp only
  rw [if_neg hkey]

/-- If the bracket after a key does not close it, another key is read. -/
theorem exists_of_readIndex {offset : Nat} {key more tail : List Char} {kind : TokenKind}
    (hcloses : ¬indexRule.Closes key)
    (h : readIndex offset (key ++ ']' :: more) = .ok (kind, tail)) :
    ∃ other, other ≠ String.ofList (trim key) ∧ kind = .index other := by
  unfold readIndex at h
  split at h
  · cases h
  · next read rest hcut =>
    split at h
    · cases h
    · cases h
      refine ⟨_, ?_, rfl⟩
      intro hsame
      apply hcloses
      rw [← closes_trim proper_indexRule, ← String.ofList_injective hsame,
        closes_trim proper_indexRule]
      exact foldlM_of_cutBracket? hcut

theorem tokenize_append_of_blank {pre : List Char} (hpre : ∀ c ∈ pre, isBlank c = true)
    (offset : Nat) (cs : List Char) :
    tokenize offset (pre ++ cs) = tokenize (offset + byteLength pre) cs := by
  induction pre generalizing offset with
  | nil => rfl
  | cons c pre ih =>
    rw [List.forall_mem_cons] at hpre
    rw [List.cons_append, tokenize, if_pos hpre.1, ih hpre.2, byteLength_cons, Nat.add_assoc]

theorem tokenize_of_blank {cs : List Char} (hcs : ∀ c ∈ cs, isBlank c = true) (offset : Nat) :
    tokenize offset cs = .ok [] := by
  have h := tokenize_append_of_blank hcs offset []
  rw [List.append_nil] at h
  rw [h, tokenize]

theorem tokenize_of_readToken {offset : Nat} {c : Char} {lexeme rest tail : List Char}
    {kind : TokenKind} (hc : isBlank c = false) (hlexeme : c :: rest = lexeme ++ tail)
    (hread : readToken offset c rest = .ok (kind, tail)) :
    tokenize offset (c :: rest) =
      (tokenize (offset + byteLength lexeme) tail).map
        (⟨kind, ⟨offset, offset + byteLength lexeme⟩⟩ :: ·) := by
  have hstop : byteLength (c :: rest) - byteLength tail = byteLength lexeme := by
    rw [hlexeme, byteLength_append, Nat.add_sub_cancel]
  rw [tokenize, if_neg (by simp [hc])]
  split
  · next hread' => cases hread'.symm.trans hread
  · next hread' =>
    cases hread'.symm.trans hread
    dsimp only
    rw [hstop]
    cases tokenize (offset + byteLength lexeme) tail <;> rfl

inductive Spells : Nat → List Token → List Segment → Nat → Prop where
  | nil {offset : Nat} : Spells offset [] [] offset
  | cons {start mid stop : Nat} {kind : TokenKind} {tokens : List Token} {segment : Segment}
      {segments : List Segment} (spelled : kind = segment.tokenKind)
      (more : Spells mid tokens segments stop) :
      Spells start (⟨kind, ⟨start, mid⟩⟩ :: tokens) (segment :: segments) stop

def KeysClose (segments : List Segment) : Prop :=
  ∀ key, .index key ∈ segments → indexRule.Closes key.toList

/-- Tokens that spell segments up to a key in place of which another one was read. -/
inductive Strays : Nat → List Token → List Segment → Prop where
  | here {start mid : Nat} {tokens : List Token} {segments : List Segment} {key other : String}
      (differs : other ≠ key) :
      Strays start (⟨.index other, ⟨start, mid⟩⟩ :: tokens) (.index key :: segments)
  | later {start mid : Nat} {kind : TokenKind} {tokens : List Token} {segment : Segment}
      {segments : List Segment} (spelled : kind = segment.tokenKind)
      (more : Strays mid tokens segments) :
      Strays start (⟨kind, ⟨start, mid⟩⟩ :: tokens) (segment :: segments)

section

variable {cs post key name rest : List Char} {segments : List Segment} {start : Nat}
  {tokens : List Token}

theorem tokenize_field (named : name ≠ []) (longest : takeName (name ++ rest) = (name, rest))
    (hpost : ∀ c ∈ post, isBlank c = true) :
    tokenize start ('.' :: (name ++ rest) ++ post) =
      (tokenize (start + byteLength ('.' :: name)) (rest ++ post)).map
        (⟨.field (String.ofList name), ⟨start, start + byteLength ('.' :: name)⟩⟩ :: ·) := by
  apply tokenize_of_readToken
  · decide +kernel
  · simp
  · exact readToken_field named longest hpost

theorem tokenize_index (closes : indexRule.Closes key) (keyed : trim key ≠ []) :
    tokenize start ('[' :: (key ++ ']' :: rest) ++ post) =
      (tokenize (start + byteLength ('[' :: (key ++ [']']))) (rest ++ post)).map
        (⟨.index (String.ofList (trim key)),
          ⟨start, start + byteLength ('[' :: (key ++ [']']))⟩⟩ :: ·) := by
  apply tokenize_of_readToken
  · decide +kernel
  · simp
  · change readToken start '[' (key ++ ']' :: rest ++ post) = _
    rw [readToken_bracket, List.append_assoc]
    exact readIndex_of_closes closes keyed

theorem closes_key (h : KeysClose (.index (String.ofList (trim key)) :: segments)) :
    indexRule.Closes key := by
  have hcloses := h _ List.mem_cons_self
  rwa [String.toList_ofList, closes_trim proper_indexRule] at hcloses

theorem keysClose_cons {segment : Segment} :
    KeysClose (segment :: segments) ↔
      (∀ key, segment = .index key → indexRule.Closes key.toList) ∧ KeysClose segments := by
  unfold KeysClose
  simp only [List.mem_cons, forall_and, or_imp, eq_comm]

theorem keysClose_append {front : List Segment} :
    KeysClose (front ++ segments) ↔ KeysClose front ∧ KeysClose segments := by
  unfold KeysClose
  simp only [List.mem_append, forall_and, or_imp]

theorem spells_of_reads (start : Nat) (h : Segment.Reads cs segments) (hkeys : KeysClose segments)
    (hpost : ∀ c ∈ post, isBlank c = true) :
    ∃ tokens, tokenize start (cs ++ post) = .ok tokens ∧
      Spells start tokens segments (start + byteLength cs) := by
  induction h generalizing start with
  | nil => exact ⟨[], tokenize_of_blank hpost start, .nil⟩
  | @field name rest segments named longest _ ih =>
    obtain ⟨tokens, htokens, hspells⟩ :=
      ih (start + byteLength ('.' :: name)) (keysClose_cons.1 hkeys).2
    rw [Nat.add_assoc, ← byteLength_append] at hspells
    refine ⟨⟨.field _, ⟨start, _⟩⟩ :: tokens, ?_, .cons rfl hspells⟩
    rw [tokenize_field named longest hpost, htokens]
    rfl
  | @index key rest segments _ keyed _ ih =>
    obtain ⟨tokens, htokens, hspells⟩ :=
      ih (start + byteLength ('[' :: (key ++ [']']))) (keysClose_cons.1 hkeys).2
    have hlexeme : '[' :: (key ++ ']' :: rest) = '[' :: (key ++ [']']) ++ rest := by simp
    rw [Nat.add_assoc, ← byteLength_append, ← hlexeme] at hspells
    refine ⟨⟨.index _, ⟨start, _⟩⟩ :: tokens, ?_, .cons rfl hspells⟩
    rw [tokenize_index (closes_key hkeys) keyed, htokens]
    rfl

theorem strays_of_reads (h : Segment.Reads cs segments) (hkeys : ¬KeysClose segments)
    (hpost : ∀ c ∈ post, isBlank c = true) (htokens : tokenize start (cs ++ post) = .ok tokens) :
    Strays start tokens segments := by
  induction h generalizing start tokens with
  | nil => exact absurd (by simp [KeysClose]) hkeys
  | field named longest _ ih =>
    rw [tokenize_field named longest hpost] at htokens
    obtain ⟨more, hmore, rfl⟩ := map_eq_ok.1 htokens
    refine .later rfl (ih ?_ hmore)
    intro hclose
    exact hkeys (keysClose_cons.2 ⟨nofun, hclose⟩)
  | @index key rest segments _ keyed _ ih =>
    by_cases hcloses : indexRule.Closes key
    · rw [tokenize_index hcloses keyed] at htokens
      obtain ⟨more, hmore, rfl⟩ := map_eq_ok.1 htokens
      refine .later rfl (ih ?_ hmore)
      intro hclose
      refine hkeys (keysClose_cons.2 ⟨?_, hclose⟩)
      rintro _ ⟨⟩
      rwa [String.toList_ofList, closes_trim proper_indexRule]
    · rw [List.cons_append, tokenize, if_neg (by decide +kernel)] at htokens
      split at htokens
      · cases htokens
      · next kind tail hread =>
        rw [readToken_bracket, List.append_assoc] at hread
        obtain ⟨other, hother, rfl⟩ := exists_of_readIndex hcloses hread
        dsimp only at htokens
        split at htokens
        · cases htokens
        · cases htokens
          exact .here hother

end

end Expr
end TemplateLint
