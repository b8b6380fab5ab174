import TemplateLint.Proofs.PathText

/-! Tokens in a longer text. What a reader of tokens takes off the front of a text is read alike at
every offset and before every other text, if that goes on neither with a number nor with
a name. -/
namespace TemplateLint
open Text

def Span.shift (d : Nat) (s : Span) : Span := ⟨s.start + d, s.stop + d⟩

def Token.shift (d : Nat) (t : Token) : Token := ⟨t.kind, t.span.shift d⟩

namespace Expr

def IsBreak (c : Char) : Prop := c = ' ' ∨ c = ')' ∨ c = '['

def Breaks (rest : List Char) : Prop := ∀ c ∈ rest.head?, IsBreak c

/-- Where a token has ended before `tail`, it also ends before this text: that is empty, nothing
goes on into it, or it starts as `tail` does. -/
def Follows (tail more : List Char) : Prop :=
  ∀ c ∈ more.head?, IsBreak c ∨ c ∈ tail.head?

theorem IsBreak.isNameChar_eq_false {c : Char} (h : IsBreak c) : isNameChar c = false := by
  rcases h with rfl | rfl | rfl <;> decide +kernel

theorem IsBreak.isNumberChar_eq_false {c : Char} (h : IsBreak c) (hex : Bool) (prev : Char) :
    isNumberChar hex prev c = false := by
  rcases h with rfl | rfl | rfl <;> simp [isNumberChar]

theorem Breaks.follows {rest : List Char} (h : Breaks rest) (tail : List Char) :
    Follows tail (tail ++ rest) := by
  intro c hc
  cases tail with
  | nil => exact .inl (h c hc)
  | cons d tail => exact .inr hc

theorem follows_of_isPrefix {tail more : List Char} (h : more <+: tail) : Follows tail more := by
  intro c hc
  cases more with
  | nil => cases hc
  | cons d more =>
    obtain ⟨rest, rfl⟩ := h
    exact .inr hc

theorem Follows.mono {front tail more : List Char} (h : Follows front more) (hfront : front <+: tail) :
    Follows tail more := by
  intro c hc
  refine (h c hc).imp id ?_
  intro hhead
  obtain ⟨rest, rfl⟩ := hfront
  cases front with
  | nil => cases hhead
  | cons d front => exact hhead

section

variable {c value : Char} {cs tail : List Char} {offset : Nat}

theorem readHex_lexeme {width : Nat} (h : readHex offset width cs = .ok (value, tail)) :
    ∃ lexeme, cs = lexeme ++ tail ∧ ∀ offset' more,
      readHex offset' width (lexeme ++ more) = .ok (value, more) := by
  unfold readHex at h ⊢
  split at h
  · cases h
  · next hlength =>
    have hwidth : (cs.take width).length = width :=
      List.length_take_of_le (Nat.le_of_not_lt hlength)
    split at h
    · cases h
    · next n hn =>
      split at h
      · next hchar =>
        cases h
        refine ⟨cs.take width, (List.take_append_drop width cs).symm, ?_⟩
        intro offset' more
        rw [if_neg (by simp [hwidth]), List.take_left' hwidth, hn]
        dsimp only
        rw [hchar, List.drop_left' hwidth]
      · cases h

theorem readOctal_lexeme {first : Char} (h : readOctal offset first cs = .ok (value, tail)) :
    ∃ lexeme, cs = lexeme ++ tail ∧ ∀ offset' more,
      readOctal offset' first (lexeme ++ more) = .ok (value, more) := by
  unfold readOctal at h
  split at h
  · next second third more =>
    split at h
    · next hn =>
      cases h
      exact ⟨[second, third], rfl, by simp [readOctal, hn]⟩
    · cases h
  · cases h

theorem readEscape_lexeme {quote : Char} (h : readEscape quote offset cs = .ok (value, tail)) :
    ∃ lexeme, cs = lexeme ++ tail ∧ ∀ offset' more,
      readEscape quote offset' (lexeme ++ more) = .ok (value, more) := by
  cases cs with
  | nil => cases h
  | cons c cs =>
    simp only [readEscape] at h
    split at h
    · next hsimple =>
      cases h
      exact ⟨[c], rfl, by simp [readEscape, hsimple]⟩
    · next hsimple =>
      split at h
      · next hwidth =>
        obtain ⟨lexeme, rfl, hread⟩ := readHex_lexeme h
        exact ⟨c :: lexeme, rfl, by simp [readEscape, hsimple, hwidth, hread]⟩
      · next hwidth =>
        split at h
        · next hoctal =>
          obtain ⟨lexeme, rfl, hread⟩ := readOctal_lexeme h
          exact ⟨c :: lexeme, rfl, by simp [readEscape, hsimple, hwidth, hoctal, hread]⟩
        · cases h

theorem readString_backslash {start : Nat}
    (h : readEscape '"' (offset + 1) cs = .ok (value, tail)) :
    readString start offset ('\\' :: cs) =
      (readString start (offset + 1 + (byteLength cs - byteLength tail)) tail).map
        fun parts => (value :: parts.1, parts.2) := by
  rw [readString, if_neg (by decide), if_neg (by decide), if_pos rfl]
  split
  · next h' => cases h'.symm.trans h
  · next h' =>
    cases h'.symm.trans h
    cases readString start (offset + 1 + (byteLength cs - byteLength tail)) tail <;> rfl

theorem readString_lexeme {start : Nat} {values : List Char}
    (h : readString start offset cs = .ok (values, tail)) :
    ∃ lexeme, cs = lexeme ++ tail ∧ ∀ start' offset' more,
      readString start' offset' (lexeme ++ more) = .ok (values, more) := by
  fun_induction readString start offset cs generalizing values tail with
  | case1 => cases h
  | case2 => cases h
  | case3 =>
    cases h
    refine ⟨['"'], rfl, ?_⟩
    intro start' offset' more
    rw [List.singleton_append, readString, if_neg (by decide), if_pos rfl]
  | case4 => cases h
  | case5 => cases h
  | case6 =>
    next hescape _ _ _ hstring _ _ ih =>
    cases h
    obtain ⟨first, rfl, hfirst⟩ := readEscape_lexeme hescape
    obtain ⟨others, rfl, hothers⟩ := ih hstring
    refine ⟨'\\' :: (first ++ others), by simp, ?_⟩
    intro start' offset' more
    rw [List.cons_append, List.append_assoc, readString_backslash (hfirst _ _), hothers]
    rfl
  | case7 => cases h
  | case8 =>
    next c more hline hquote hslash values tail' hstring ih =>
    cases h
    obtain ⟨lexeme, rfl, hread⟩ := ih hstring
    refine ⟨c :: lexeme, rfl, ?_⟩
    intro start' offset' more
    rw [List.cons_append, readString, if_neg hline, if_neg hquote, if_neg hslash, hread]

theorem readChar_lexeme (h : readChar offset cs = .ok (value, tail)) :
    ∃ lexeme, cs = lexeme ++ tail ∧ ∀ offset' more,
      readChar offset' (lexeme ++ more) = .ok (value, more) := by
  cases cs with
  | nil => cases h
  | cons c cs =>
    simp only [readChar] at h
    split at h
    · cases h
    · next hquote =>
      split at h
      · cases h
      · next hvalue =>
        cases h
        split at hvalue
        · next hslash =>
          obtain ⟨lexeme, rfl, hread⟩ := readEscape_lexeme hvalue
          refine ⟨c :: (lexeme ++ ['\'']), by simp, ?_⟩
          intro offset' more
          rw [List.cons_append, List.append_assoc, readChar, if_neg hquote, if_pos hslash, hread]
          rfl
        · next hslash =>
          cases hvalue
          exact ⟨[value, '\''], rfl, by simp [readChar, hquote, hslash]⟩
      · cases h

theorem readIndex_lexeme {kind : TokenKind} (h : readIndex offset cs = .ok (kind, tail)) :
    ∃ lexeme, cs = lexeme ++ tail ∧ ∀ offset' more,
      readIndex offset' (lexeme ++ more) = .ok (kind, more) := by
  unfold readIndex at h
  split at h
  · cases h
  · next key more hcut =>
    split at h
    · cases h
    · next hkey =>
      cases h
      refine ⟨key ++ [']'], by simp [eq_of_cutBracket? hcut], ?_⟩
      intro offset' more
      rw [List.append_assoc]
      exact readIndex_of_closes (foldlM_of_cutBracket? hcut) hkey

theorem cut?_lexeme {before : List Char} {quote : Char} (h : cut? [quote] cs = some (before, tail))
    (more : List Char) : cut? [quote] (before ++ quote :: more) = some (before, more) := by
  induction cs generalizing before with
  | nil => cases h
  | cons c cs ih =>
    by_cases hc : quote = c
    · simp only [cut?, strip?, hc, List.cons_ne_nil, if_false, if_true, Option.some.injEq,
        Prod.mk.injEq] at h
      simp [← h.1, cut?, strip?]
    · have hstep (cs : List Char) : cut? [quote] (c :: cs) =
          (cut? [quote] cs).map fun parts => (c :: parts.1, parts.2) := by
        simp [cut?, strip?, hc]
      rw [hstep] at h
      obtain ⟨parts, hcut, heq⟩ := Option.map_eq_some_iff.1 h
      cases heq
      rw [List.cons_append, hstep, ih hcut]
      rfl

end

section

variable {c : Char} {cs tail more : List Char}

theorem Follows.isNameChar_eq_false (h : Follows (cs.dropWhile isNameChar) more) :
    ∀ c ∈ more.head?, isNameChar c = false := by
  intro c hc
  rcases h c hc with hbreak | htail
  · exact hbreak.isNameChar_eq_false
  · have hstop := List.head?_dropWhile_not isNameChar cs
    rw [htail] at hstop
    simpa using hstop

theorem takeWhile_lexeme (h : Follows (cs.dropWhile isNameChar) more) :
    (cs.takeWhile isNameChar ++ more).takeWhile isNameChar = cs.takeWhile isNameChar ∧
      (cs.takeWhile isNameChar ++ more).dropWhile isNameChar = more := by
  have hall : ∀ d ∈ cs.takeWhile isNameChar, isNameChar d = true :=
    fun d hd => List.mem_takeWhile_imp hd
  have hstop := h.isNameChar_eq_false
  rw [takeWhile_append_of_stop hstop, dropWhile_append_of_stop hstop,
    List.takeWhile_eq_self_iff.2 hall, List.dropWhile_eq_nil_iff.2 hall]
  exact ⟨rfl, rfl⟩

theorem takeNumber_lexeme {hex : Bool} {prev : Char}
    (h : Follows (takeNumber hex prev cs).2 more) :
    takeNumber hex prev ((takeNumber hex prev cs).1 ++ more) =
      ((takeNumber hex prev cs).1, more) := by
  have hstop {prev : Char} (hmore : ∀ c ∈ more.head?, isNumberChar hex prev c = false) :
      takeNumber hex prev more = ([], more) := by
    cases more with
    | nil => rfl
    | cons c more => simp [takeNumber, hmore c rfl]
  induction cs generalizing prev with
  | nil =>
    refine hstop ?_
    intro c hc
    rcases h c hc with hbreak | htail
    · exact hbreak.isNumberChar_eq_false hex _
    · cases htail
  | cons c cs ih =>
    by_cases hc : isNumberChar hex prev c = true
    · simp only [takeNumber, if_pos hc] at h ⊢
      simp [takeNumber, hc, ih h]
    · simp only [takeNumber, if_neg hc] at h ⊢
      refine hstop ?_
      intro d hd
      rcases h d hd with hbreak | htail
      · exact hbreak.isNumberChar_eq_false hex _
      · cases htail
        simpa using hc

theorem isHex_eq_false {rest : List Char} (h : ∀ d ∈ rest.head?, d ≠ 'x' ∧ d ≠ 'X') :
    isHex (c :: rest) = false := by
  unfold isHex
  split
  · next heq =>
    cases heq
    exact absurd rfl (h _ rfl).1
  · next heq =>
    cases heq
    exact absurd rfl (h _ rfl).2
  · rfl

theorem isHex_lexeme {hex : Bool} {prev : Char} (hne : (takeNumber hex prev cs).1 ≠ [])
    (h : Follows (takeNumber hex prev cs).2 more) :
    isHex ((takeNumber hex prev cs).1 ++ more) = isHex cs := by
  cases cs with
  | nil => contradiction
  | cons c cs =>
    by_cases hc : isNumberChar hex prev c = true
    · simp only [takeNumber, if_pos hc] at h ⊢
      have hstop {rest : List Char} (hrest : Follows rest more)
          (hx : ∀ d ∈ rest.head?, d ≠ 'x' ∧ d ≠ 'X') : isHex (c :: more) = false := by
        refine isHex_eq_false ?_
        intro d hd
        rcases hrest d hd with hbreak | htail
        · rcases hbreak with rfl | rfl | rfl <;> decide
        · exact hx d htail
      cases cs with
      | nil =>
        have hone : isHex [c] = false := isHex_eq_false (by simp)
        rw [hone]
        exact hstop h (by simp [takeNumber])
      | cons d cs =>
        by_cases hd : isNumberChar hex c d = true
        · simp only [takeNumber, if_pos hd, List.cons_append, isHex]
          split <;> simp_all
        · have hx : ∀ e ∈ (d :: cs).head?, e ≠ 'x' ∧ e ≠ 'X' := by
            rintro e ⟨⟩
            constructor <;> rintro rfl <;> simp [isNumberChar] at hd
          simp only [takeNumber, if_neg hd] at h ⊢
          rw [isHex_eq_false hx]
          exact hstop h hx
    · simp [takeNumber, hc] at hne

theorem startsNumber_eq_false {lexeme : List Char} (h : startsNumber c (lexeme ++ tail) = false)
    (hmore : Follows tail more) : startsNumber c (lexeme ++ more) = false := by
  cases lexeme with
  | cons d lexeme => exact h
  | nil =>
    have hdigit : c.isDigit = false := by
      simp only [startsNumber, Bool.or_eq_false_iff] at h
      exact h.1.1
    cases more with
    | nil => simp [startsNumber, hdigit]
    | cons d more =>
      rcases hmore d rfl with hbreak | htail
      · rcases hbreak with rfl | rfl | rfl <;> simp [startsNumber, hdigit]
      · cases tail with
        | nil => cases htail
        | cons e tail =>
          cases htail
          exact h

theorem isNumberChar_of_isDigit {hex : Bool} {prev : Char} (h : c.isDigit = true) :
    isNumberChar hex prev c = true := by
  simp [isNumberChar, Char.isAlphanum, h]

theorem isNumberChar_point (hex : Bool) (prev : Char) : isNumberChar hex prev '.' = true := by
  simp [isNumberChar]

theorem exists_numberText (hc : startsNumber c cs = true)
    (h : Follows (numberText (c :: cs)).2 more) :
    ∃ lexeme, (numberText (c :: cs)).1 = c :: lexeme ∧ startsNumber c (lexeme ++ more) = true ∧
      numberText (c :: (lexeme ++ more)) = (c :: lexeme, more) := by
  simp only [startsNumber, Bool.or_eq_true, Bool.and_eq_true, beq_iff_eq] at hc
  by_cases hsign : c = '+' ∨ c = '-'
  · obtain ⟨d, rest, rfl, hd⟩ : ∃ d rest, cs = d :: rest ∧ (d.isDigit = true ∨ d = '.') := by
      cases cs with
      | nil => rcases hsign with rfl | rfl <;> simp at hc
      | cons d rest =>
        refine ⟨d, rest, rfl, ?_⟩
        rcases hsign with rfl | rfl <;> simpa using hc
    have hnumber : isNumberChar (isHex (d :: rest)) ' ' d = true := by
      rcases hd with hd | rfl
      · exact isNumberChar_of_isDigit hd
      · exact isNumberChar_point ..
    simp only [numberText, if_pos hsign] at h ⊢
    refine ⟨_, rfl, ?_, ?_⟩
    · rcases hsign with rfl | rfl <;> simpa [takeNumber, hnumber, startsNumber] using hd
    · rw [isHex_lexeme (by simp [takeNumber, hnumber]) h, takeNumber_lexeme h]
  · have hstart : c.isDigit = true ∨ c = '.' ∧ cs.head?.any Char.isDigit = true := by
      rcases hc with hc | hc
      · exact hc
      · exact absurd hc.1 hsign
    have hnumber (hex : Bool) : isNumberChar hex ' ' c = true := by
      rcases hstart with hdigit | ⟨rfl, -⟩
      · exact isNumberChar_of_isDigit hdigit
      · exact isNumberChar_point ..
    simp only [numberText, if_neg hsign] at h ⊢
    have htake : (takeNumber (isHex (c :: cs)) ' ' (c :: cs)).1 =
        c :: (takeNumber (isHex (c :: cs)) c cs).1 := by
      simp [takeNumber, hnumber]
    have hhex := isHex_lexeme (by simp [htake]) h
    have hread := takeNumber_lexeme h
    rw [htake, List.cons_append] at hhex hread
    refine ⟨_, htake, ?_, by rw [hhex, hread]⟩
    rcases hstart with hdigit | ⟨rfl, hdigit⟩
    · simp [startsNumber, hdigit]
    · cases cs with
      | nil => cases hdigit
      | cons d cs =>
        have hd : d.isDigit = true := hdigit
        simp [takeNumber, isNumberChar_of_isDigit hd, startsNumber, hd]

end

section

variable {offset : Nat} {c : Char} {cs tail : List Char} {kind : TokenKind}

theorem readNumber_lexeme (hc : startsNumber c cs = true)
    (h : readNumber offset (c :: cs) = .ok (kind, tail)) :
    ∃ lexeme, cs = lexeme ++ tail ∧ ∀ offset' more, Follows tail more →
      readNumber offset' (c :: (lexeme ++ more)) = .ok (kind, more) ∧
        startsNumber c (lexeme ++ more) = true := by
  unfold readNumber at h
  split at h
  · next value hvalue =>
    cases h
    obtain ⟨lexeme, htext, -⟩ := exists_numberText hc (follows_of_isPrefix List.prefix_rfl)
    have hsplit := numberText_append (c :: cs)
    rw [htext] at hsplit hvalue
    refine ⟨lexeme, (List.cons.inj hsplit).2.symm, ?_⟩
    intro offset' more hmore
    obtain ⟨lexeme', htext', hstarts, hread⟩ := exists_numberText hc hmore
    cases htext.symm.trans htext'
    refine ⟨?_, hstarts⟩
    unfold readNumber
    rw [hread]
    dsimp only
    rw [hvalue]
  · cases h

theorem startsNumber_takeWhile {more : List Char} (h : startsNumber c cs = false)
    (hmore : Follows (cs.dropWhile isNameChar) more) :
    startsNumber c (cs.takeWhile isNameChar ++ more) = false := by
  apply startsNumber_eq_false _ hmore
  rwa [List.takeWhile_append_dropWhile]

theorem takeWhile_eq_nil_of_follows {more : List Char} (h : cs.takeWhile isNameChar = [])
    (hmore : Follows cs more) : more.takeWhile isNameChar = [] := by
  have hdrop : cs.dropWhile isNameChar = cs := by
    have hsplit := List.takeWhile_append_dropWhile (p := isNameChar) (l := cs)
    rwa [h] at hsplit
  rw [← hdrop] at hmore
  have hstop := (takeWhile_lexeme hmore).1
  rwa [h] at hstop

theorem TokenRead.lexeme (h : TokenRead offset c cs kind tail) :
    ∃ lexeme, cs = lexeme ++ tail ∧ ∀ offset' more, Follows tail more →
      TokenRead offset' c (lexeme ++ more) kind more := by
  cases h with
  | number hstarts hread =>
    obtain ⟨lexeme, hsplit, hagain⟩ := readNumber_lexeme hstarts hread
    refine ⟨lexeme, hsplit, ?_⟩
    intro offset' more hmore
    exact .number (hagain offset' more hmore).2 (hagain offset' more hmore).1
  | word hplain hname =>
    refine ⟨_, List.takeWhile_append_dropWhile.symm, ?_⟩
    intro offset' more hmore
    have hagain : TokenRead offset' c _ _ _ := .word (startsNumber_takeWhile hplain hmore) hname
    rwa [(takeWhile_lexeme hmore).1, (takeWhile_lexeme hmore).2] at hagain
  | leftParen => exact ⟨[], rfl, fun _ more _ => .leftParen more⟩
  | rightParen => exact ⟨[], rfl, fun _ more _ => .rightParen more⟩
  | pipe => exact ⟨[], rfl, fun _ more _ => .pipe more⟩
  | index hread =>
    obtain ⟨lexeme, hsplit, hagain⟩ := readIndex_lexeme hread
    exact ⟨lexeme, hsplit, fun offset' more _ => .index (hagain offset' more)⟩
  | dot hplain halone =>
    refine ⟨[], rfl, ?_⟩
    intro offset' more hmore
    have hnil : startsNumber '.' ([] ++ cs) = false := hplain
    exact .dot (startsNumber_eq_false hnil hmore) (takeWhile_eq_nil_of_follows halone hmore)
  | field hplain hnamed =>
    refine ⟨_, List.takeWhile_append_dropWhile.symm, ?_⟩
    intro offset' more hmore
    rw [← (takeWhile_lexeme hmore).1] at hnamed
    have hagain : TokenRead offset' '.' _ _ _ := .field (startsNumber_takeWhile hplain hmore) hnamed
    rwa [(takeWhile_lexeme hmore).1, (takeWhile_lexeme hmore).2] at hagain
  | dollar =>
    refine ⟨_, List.takeWhile_append_dropWhile.symm, ?_⟩
    intro offset' more hmore
    have hagain : TokenRead offset' '$' _ _ _ := .dollar (cs.takeWhile isNameChar ++ more)
    rwa [(takeWhile_lexeme hmore).1, (takeWhile_lexeme hmore).2] at hagain
  | string hread =>
    obtain ⟨lexeme, hsplit, hagain⟩ := readString_lexeme hread
    exact ⟨lexeme, hsplit, fun _ more _ => .string (hagain _ _ more)⟩
  | @raw _ value _ hcut =>
    refine ⟨value ++ ['`'], (eq_of_cut? hcut).2, ?_⟩
    intro offset' more _
    rw [List.append_assoc]
    exact .raw (cut?_lexeme hcut more)
  | char hread =>
    obtain ⟨lexeme, hsplit, hagain⟩ := readChar_lexeme hread
    exact ⟨lexeme, hsplit, fun offset' more _ => .char (hagain offset' more)⟩

/-- A token is read alike in every text that starts with it, if it ends there. -/
theorem readToken_lexeme (h : readToken offset c cs = .ok (kind, tail)) :
    ∃ lexeme, cs = lexeme ++ tail ∧ ∀ offset' more, Follows tail more →
      readToken offset' c (lexeme ++ more) = .ok (kind, more) := by
  obtain ⟨lexeme, hsplit, hagain⟩ := (tokenRead_of_readToken h).lexeme
  exact ⟨lexeme, hsplit, fun offset' more hmore => (hagain offset' more hmore).readToken_eq⟩

end

/-- How the tokens of a text lie in it. Between them are blanks, and each token is read alike
wherever it stands. -/
inductive Lexed : Nat → List Char → List Token → Prop where
  | nil {offset : Nat} : Lexed offset [] []
  | blank {offset : Nat} {c : Char} {cs : List Char} {tokens : List Token}
      (hblank : isBlank c = true) (rest : Lexed (offset + c.utf8Size) cs tokens) :
      Lexed offset (c :: cs) tokens
  | token {offset : Nat} {c : Char} {lexeme tail : List Char} {kind : TokenKind}
      {tokens : List Token} (hblank : isBlank c = false)
      (read : ∀ offset' more, Follows tail more →
        readToken offset' c (lexeme ++ more) = .ok (kind, more))
      (rest : Lexed (offset + byteLength (c :: lexeme)) tail tokens) :
      Lexed offset (c :: (lexeme ++ tail))
        (⟨kind, ⟨offset, offset + byteLength (c :: lexeme)⟩⟩ :: tokens)

section

variable {offset : Nat} {cs rest : List Char} {tokens : List Token}

theorem lexed_of_tokenize (h : tokenize offset cs = .ok tokens) : Lexed offset cs tokens := by
  fun_induction tokenize offset cs generalizing tokens with
  | case1 =>
    cases h
    exact .nil
  | case2 _ _ _ hblank ih => exact .blank hblank (ih h)
  | case3 => cases h
  | case4 => cases h
  | case5 =>
    next offset c cs hblank kind tail hread _ stop tokens htokens ih =>
    cases h
    obtain ⟨lexeme, rfl, hagain⟩ := readToken_lexeme hread
    have hstop : stop = offset + byteLength (c :: lexeme) := by
      simp only [stop, byteLength_cons, byteLength_append]
      omega
    rw [hstop] at ih htokens ⊢
    exact .token (Bool.eq_false_iff.2 hblank) hagain (ih htokens)

theorem tokenize_token {c : Char} {lexeme tail : List Char} {kind : TokenKind}
    (hblank : isBlank c = false) (hread : readToken offset c (lexeme ++ tail) = .ok (kind, tail)) :
    tokenize offset (c :: (lexeme ++ tail)) =
      (tokenize (offset + byteLength (c :: lexeme)) tail).map
        (⟨kind, ⟨offset, offset + byteLength (c :: lexeme)⟩⟩ :: ·) := by
  have hsplit : c :: (lexeme ++ tail) = (c :: lexeme) ++ tail := rfl
  exact tokenize_of_readToken hblank hsplit hread

theorem tokenize_append (hrest : Breaks rest) (h : tokenize offset cs = .ok tokens) (d : Nat) :
    tokenize (offset + d) (cs ++ rest) =
      (tokenize (offset + d + byteLength cs) rest).map (tokens.map (Token.shift d) ++ ·) := by
  replace h := lexed_of_tokenize h
  induction h with
  | @nil offset =>
    cases htokens : tokenize (offset + d + byteLength []) rest <;> simp_all [Except.map]
  | @blank offset c cs _ hblank _ ih =>
    have hoffset : offset + c.utf8Size + d = offset + d + c.utf8Size := by omega
    rw [hoffset] at ih
    rw [List.cons_append, tokenize, if_pos hblank, ih, byteLength_cons, Nat.add_assoc _ c.utf8Size]
  | @token offset c lexeme tail kind tokens hblank hread _ ih =>
    have hoffset : offset + byteLength (c :: lexeme) + d =
        offset + d + byteLength (c :: lexeme) := by
      omega
    have hlength : byteLength (c :: (lexeme ++ tail)) =
        byteLength (c :: lexeme) + byteLength tail := by
      rw [← List.cons_append, byteLength_append]
    rw [hoffset, Nat.add_assoc _ (byteLength (c :: lexeme)), ← hlength] at ih
    rw [List.cons_append, List.append_assoc,
      tokenize_token hblank (hread _ _ (hrest.follows tail)), ih, List.map_cons, Token.shift,
      Span.shift, hoffset]
    cases tokenize (offset + d + byteLength (c :: (lexeme ++ tail))) rest <;> rfl

end

theorem tokenize_shift {offset : Nat} {cs : List Char} {tokens : List Token}
    (h : tokenize offset cs = .ok tokens) (d : Nat) :
    tokenize (offset + d) cs = .ok (tokens.map (Token.shift d)) := by
  have hbreaks : Breaks [] := by simp [Breaks]
  have hmore := tokenize_append hbreaks h d
  rw [List.append_nil, tokenize] at hmore
  rw [hmore, Except.map, List.append_nil]

theorem trim_ne_nil_of_tokenize {offset : Nat} {cs : List Char} {tokens : List Token}
    (h : tokenize offset cs = .ok tokens) (hne : tokens ≠ []) : trim cs ≠ [] := by
  intro htrim
  obtain ⟨pre, post, hpre, hpost, hcs⟩ := exists_trim cs
  have hblank : ∀ c ∈ cs, isBlank c = true := by
    intro c hc
    rw [hcs, htrim, List.nil_append] at hc
    exact (List.mem_append.1 hc).elim (hpre c) (hpost c)
  cases (tokenize_of_blank hblank offset).symm.trans h
  exact hne rfl

def IsName (cs : List Char) : Prop := cs ≠ [] ∧ takeName cs = (cs, [])

theorem startsNumber_of_isNameStart {c : Char} (h : isNameStart c = true) (cs : List Char) :
    startsNumber c cs = false := by
  have hne {d : Char} (hd : isNameStart d = false) : c ≠ d := by
    rintro rfl
    cases h.symm.trans hd
  have hpoint : c ≠ '.' := hne (by decide +kernel)
  have hplus : c ≠ '+' := hne (by decide +kernel)
  have hminus : c ≠ '-' := hne (by decide +kernel)
  simp [startsNumber, isDigit_of_isNameStart h, hpoint, hplus, hminus]

theorem tokenize_blank (offset : Nat) (rest : List Char) :
    tokenize offset (' ' :: rest) = tokenize (offset + 1) rest := by
  rw [tokenize, if_pos (by decide +kernel)]
  rfl

theorem tokenize_name {name : List Char} (h : IsName name) (offset : Nat) (rest : List Char) :
    tokenize offset (name ++ ' ' :: rest) =
      (tokenize (offset + byteLength name + 1) rest).map
        (⟨wordKind name, ⟨offset, offset + byteLength name⟩⟩ :: ·) := by
  obtain ⟨hne, htake⟩ := h
  cases name with
  | nil => contradiction
  | cons c cs =>
    rw [takeName] at htake
    split at htake
    · next hstart =>
      obtain ⟨hrun, hdrop⟩ := Prod.mk.inj htake
      have hblank : isBlank c = false := by
        cases hc : isBlank c with
        | false => rfl
        | true => cases (isNameChar_of_isBlank hc).symm.trans (isNameChar_of_isNameStart hstart)
      have hstop : ∀ d ∈ (' ' :: rest).head?, isNameChar d = false := by
        rintro _ ⟨⟩
        decide +kernel
      have hread : readToken offset c (cs ++ ' ' :: rest) =
          .ok (wordKind (c :: cs), ' ' :: rest) := by
        rw [(TokenRead.word (startsNumber_of_isNameStart hstart _) hstart).readToken_eq,
          takeWhile_append_of_stop hstop, dropWhile_append_of_stop hstop, hrun, hdrop]
        rfl
      have hsplit : c :: (cs ++ ' ' :: rest) = (c :: cs) ++ ' ' :: rest := rfl
      rw [List.cons_append, tokenize_of_readToken hblank hsplit hread, tokenize_blank]
    · cases htake

theorem tokenize_mark {c : Char} (kind : TokenKind)
    (h : (c, kind) ∈ [('(', TokenKind.leftParen), (')', .rightParen), ('|', .pipe)])
    (offset : Nat) (rest : List Char) :
    tokenize offset (c :: rest) =
      (tokenize (offset + 1) rest).map (⟨kind, ⟨offset, offset + 1⟩⟩ :: ·) := by
  have hmark : isBlank c = false ∧ byteLength [c] = 1 ∧
      readToken offset c rest = .ok (kind, rest) := by
    simp only [List.mem_cons, Prod.mk.injEq, List.not_mem_nil, or_false] at h
    rcases h with ⟨rfl, rfl⟩ | ⟨rfl, rfl⟩ | ⟨rfl, rfl⟩
    · exact ⟨by decide +kernel, rfl, (TokenRead.leftParen rest).readToken_eq⟩
    · exact ⟨by decide +kernel, rfl, (TokenRead.rightParen rest).readToken_eq⟩
    · exact ⟨by decide +kernel, rfl, (TokenRead.pipe rest).readToken_eq⟩
  obtain ⟨hblank, hlength, hread⟩ := hmark
  have hsplit : c :: rest = [c] ++ rest := rfl
  rw [tokenize_of_readToken hblank hsplit hread, hlength]

theorem Lexed.le_start {offset : Nat} {cs : List Char} {tokens : List Token}
    (h : Lexed offset cs tokens) : ∀ t ∈ tokens, offset ≤ t.span.start := by
  induction h with
  | nil => simp
  | blank _ _ ih =>
    intro t ht
    have := ih t ht
    omega
  | token _ _ _ ih =>
    intro t ht
    rcases List.mem_cons.1 ht with rfl | ht
    · exact Nat.le_refl _
    · have := ih t ht
      omega

theorem map_shift_zero (tokens : List Token) : tokens.map (Token.shift 0) = tokens :=
  List.map_id tokens

theorem wordKind_cases (name : List Char) :
    wordKind name = .ident (String.ofList name) ∨ ∃ v, wordKind name = .literal v := by
  unfold wordKind
  split <;> simp

end Expr
end TemplateLint
