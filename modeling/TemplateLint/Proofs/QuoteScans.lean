import TemplateLint.Proofs.Lexemes

/-! Scans over the text of an expression. The scan for the end of an action and the one for the end
of an index each keep their own account of quotes and escapes. They agree with the reader of tokens
on where a literal ends, so they go over its tokens without stopping, whatever stands in the
literals. -/
namespace TemplateLint
open Text

def IsQuote (c : Char) : Prop := c = '"' ∨ c = '\'' ∨ c = '`'

def IsPlain (c : Char) : Prop := ¬IsQuote c ∧ c ≠ '}' ∧ c ≠ ']'

def IsInert (c : Char) : Prop := c ≠ '"' ∧ c ≠ '\'' ∧ c ≠ '\\'

/-- A scan that goes from one state to another over a text. In a literal it may stop at characters
that it does not skip. -/
structure QuoteScan (skips : Char → Prop) (passes : Quoting → List Char → Quoting → Prop) :
    Prop where
  nil (q : Quoting) : passes q [] q
  append {q q' q'' : Quoting} {cs ds : List Char} (h : passes q cs q') (h' : passes q' ds q'') :
    passes q (cs ++ ds) q''
  plain {c : Char} (h : IsPlain c) : passes .outside [c] .outside
  opens {c : Char} (h : IsQuote c) : passes .outside [c] (.inside c)
  closes {c : Char} (h : IsQuote c) : passes (.inside c) [c] .outside
  raw {c : Char} (h : c ≠ '`') : passes (.inside '`') [c] (.inside '`')
  backslash {quote : Char} (hquote : quote = '"' ∨ quote = '\'') :
    passes (.inside quote) ['\\'] (.escaped quote)
  escaped (quote c : Char) : passes (.escaped quote) [c] (.inside quote)
  inside {quote c : Char} (hquote : quote = '"' ∨ quote = '\'') (hc : c ≠ quote)
    (hslash : c ≠ '\\') (hskips : skips c) : passes (.inside quote) [c] (.inside quote)

section

variable {c : Char}

theorem isPlain_of_isBlank (h : isBlank c = true) : IsPlain c :=
  of_isBlank (P := IsPlain) (by unfold IsPlain IsQuote; decide +kernel) h

theorem isPlain_of_isNameChar (h : isNameChar c = true) : IsPlain c := by
  have hne {d : Char} (hd : isNameChar d = false) : c ≠ d := by
    rintro rfl
    cases h.symm.trans hd
  refine ⟨?_, hne (by decide +kernel), hne (by decide +kernel)⟩
  rintro (rfl | rfl | rfl) <;> exact hne (by decide +kernel) rfl

theorem isPlain_of_isNumberChar {hex : Bool} {prev : Char}
    (h : Expr.isNumberChar hex prev c = true) : IsPlain c := by
  refine ⟨?_, ?_, ?_⟩
  · rintro (rfl | rfl | rfl) <;> simp [Expr.isNumberChar] at h
  all_goals
    rintro rfl
    simp [Expr.isNumberChar] at h

theorem isPlain_takeNumber (hex : Bool) (prev : Char) (cs : List Char) :
    ∀ c ∈ (Expr.takeNumber hex prev cs).1, IsPlain c := by
  induction cs generalizing prev with
  | nil => simp [Expr.takeNumber]
  | cons c cs ih =>
    unfold Expr.takeNumber
    split
    · next hc => exact List.forall_mem_cons.2 ⟨isPlain_of_isNumberChar hc, ih c⟩
    · simp

theorem isPlain_numberText (cs : List Char) : ∀ c ∈ (Expr.numberText cs).1, IsPlain c := by
  unfold Expr.numberText
  split
  · simp
  · split
    · next hsign =>
      refine List.forall_mem_cons.2 ⟨?_, isPlain_takeNumber _ _ _⟩
      rcases hsign with rfl | rfl <;> simp [IsPlain, IsQuote]
    · exact isPlain_takeNumber _ _ _

theorem isPlain_of_readNumber {offset : Nat} {cs tail : List Char} {kind : TokenKind}
    (hstarts : Expr.startsNumber c cs = true)
    (h : Expr.readNumber offset (c :: cs) = .ok (kind, tail)) :
    ∃ lexeme, cs = lexeme ++ tail ∧ ∀ d ∈ c :: lexeme, IsPlain d := by
  obtain ⟨lexeme, htext, -⟩ :=
    Expr.exists_numberText hstarts (Expr.follows_of_isPrefix List.prefix_rfl)
  have hsplit := Expr.numberText_append (c :: cs)
  have hall := isPlain_numberText (c :: cs)
  rw [htext] at hsplit hall
  unfold Expr.readNumber at h
  split at h
  · cases h
    exact ⟨lexeme, (List.cons.inj hsplit).2.symm, hall⟩
  · cases h

theorem isInert_of_digitValue? {radix : Nat} (h : (Number.digitValue? radix c).isSome = true) :
    IsInert c := by
  refine ⟨?_, ?_, ?_⟩ <;> rintro rfl <;> simp [Number.digitValue?] at h

theorem isInert_of_toLower (h : IsInert c.toLower) : IsInert c := by
  refine ⟨?_, ?_, ?_⟩ <;> rintro rfl <;> simp [IsInert] at h

theorem isInert_of_natural? {radix n : Nat} {digits : List Char}
    (h : Number.natural? radix digits = some n) : ∀ c ∈ digits, IsInert c := by
  have hfold (start : Nat) (hfold : digits.foldlM
      (fun n c => (Number.digitValue? radix c).map (n * radix + ·)) start = some n) :
      ∀ c ∈ digits, IsInert c := by
    clear h
    induction digits generalizing start with
    | nil => simp
    | cons d digits ih =>
      obtain ⟨next, hnext, hrest⟩ := Option.bind_eq_some_iff.1 (List.foldlM_cons.symm.trans hfold)
      obtain ⟨value, hvalue, -⟩ := Option.map_eq_some_iff.1 hnext
      have hdigit := isInert_of_digitValue? (Option.isSome_of_eq_some hvalue)
      exact List.forall_mem_cons.2 ⟨hdigit, ih next hrest⟩
  unfold Number.natural? at h
  split at h
  · cases h
  · exact hfold 0 h

end

section

variable {value : Char} {cs tail : List Char} {offset : Nat}

theorem isInert_of_readHex {width : Nat} (h : Expr.readHex offset width cs = .ok (value, tail)) :
    ∃ digits, cs = digits ++ tail ∧ ∀ c ∈ digits, IsInert c := by
  unfold Expr.readHex at h
  split at h
  · cases h
  · split at h
    · cases h
    · next hdigits =>
      split at h
      · cases h
        refine ⟨cs.take width, (List.take_append_drop width cs).symm, ?_⟩
        intro c hc
        exact isInert_of_toLower (isInert_of_natural? hdigits _ (List.mem_map_of_mem hc))
      · cases h

theorem isInert_of_readOctal {first : Char}
    (h : Expr.readOctal offset first cs = .ok (value, tail)) :
    ∃ digits, cs = digits ++ tail ∧ ∀ c ∈ digits, IsInert c := by
  unfold Expr.readOctal at h
  split at h
  · next second third rest =>
    split at h
    · next hdigits =>
      cases h
      refine ⟨[second, third], rfl, ?_⟩
      intro c hc
      exact isInert_of_natural? hdigits c (List.mem_cons_of_mem first hc)
    · cases h
  · cases h

end

theorem Expr.exists_index_of_readIndex {offset : Nat} {cs tail : List Char} {kind : TokenKind}
    (h : readIndex offset cs = .ok (kind, tail)) : ∃ key, kind = .index key := by
  unfold readIndex at h
  split at h
  · cases h
  · split at h
    · cases h
    · cases h
      exact ⟨_, rfl⟩

namespace QuoteScan

variable {skips : Char → Prop} {passes : Quoting → List Char → Quoting → Prop} {q : Quoting}
  {c value quote : Char} {cs tail : List Char} {start offset : Nat}
  (scan : QuoteScan skips passes)
include scan

theorem of_forall (h : ∀ c ∈ cs, passes q [c] q) : passes q cs q := by
  induction cs with
  | nil => exact scan.nil q
  | cons c cs ih =>
    rw [List.forall_mem_cons] at h
    exact scan.append h.1 (ih h.2)

theorem of_isPlain (h : ∀ c ∈ cs, IsPlain c) : passes .outside cs .outside :=
  scan.of_forall fun c hc => scan.plain (h c hc)

theorem of_isInert (hquote : quote = '"' ∨ quote = '\'') (h : ∀ c ∈ cs, IsInert c)
    (hskips : ∀ c ∈ cs, skips c) : passes (.inside quote) cs (.inside quote) := by
  apply scan.of_forall
  intro c hc
  obtain ⟨hdouble, hsingle, hslash⟩ := h c hc
  refine scan.inside hquote ?_ hslash (hskips c hc)
  rcases hquote with rfl | rfl <;> assumption

theorem of_readEscape (hquote : quote = '"' ∨ quote = '\'')
    (h : Expr.readEscape quote offset cs = .ok (value, tail)) (hskips : ∀ c ∈ cs, skips c) :
    ∃ lexeme, cs = lexeme ++ tail ∧ passes (.inside quote) ('\\' :: lexeme) (.inside quote) := by
  cases cs with
  | nil => cases h
  | cons c cs =>
    have hstart : passes (.inside quote) ['\\', c] (.inside quote) :=
      scan.append (scan.backslash hquote) (scan.escaped quote c)
    have hdigits (hread : ∃ digits, cs = digits ++ tail ∧ ∀ c ∈ digits, IsInert c) :
        ∃ lexeme, c :: cs = lexeme ++ tail ∧
          passes (.inside quote) ('\\' :: lexeme) (.inside quote) := by
      obtain ⟨digits, rfl, hinert⟩ := hread
      refine ⟨c :: digits, rfl, scan.append hstart (scan.of_isInert hquote hinert ?_)⟩
      intro d hd
      exact hskips d (List.mem_cons_of_mem c (List.mem_append_left tail hd))
    simp only [Expr.readEscape] at h
    split at h
    · cases h
      exact ⟨[c], rfl, hstart⟩
    · split at h
      · exact hdigits (isInert_of_readHex h)
      · split at h
        · exact hdigits (isInert_of_readOctal h)
        · cases h

theorem of_readString {values : List Char}
    (h : Expr.readString start offset cs = .ok (values, tail)) (hskips : ∀ c ∈ cs, skips c) :
    ∃ lexeme, cs = lexeme ++ tail ∧ passes (.inside '"') lexeme .outside := by
  fun_induction Expr.readString start offset cs generalizing values tail with
  | case1 => cases h
  | case2 => cases h
  | case3 =>
    cases h
    exact ⟨['"'], rfl, scan.closes (.inl rfl)⟩
  | case4 => cases h
  | case5 => cases h
  | case6 =>
    next hescape _ _ _ hstring _ _ ih =>
    cases h
    rw [List.forall_mem_cons] at hskips
    obtain ⟨escape, rfl, hpass⟩ := scan.of_readEscape (.inl rfl) hescape hskips.2
    obtain ⟨lexeme, rfl, hmore⟩ := ih hstring fun c hc => hskips.2 c (List.mem_append_right _ hc)
    exact ⟨'\\' :: escape ++ lexeme, by simp, scan.append hpass hmore⟩
  | case7 => cases h
  | case8 =>
    next c rest hline hquote hslash _ _ hstring ih =>
    cases h
    rw [List.forall_mem_cons] at hskips
    obtain ⟨lexeme, rfl, hmore⟩ := ih hstring hskips.2
    exact ⟨c :: lexeme, rfl, scan.append (scan.inside (.inl rfl) hquote hslash hskips.1) hmore⟩

theorem of_readChar (h : Expr.readChar start cs = .ok (value, tail))
    (hskips : ∀ c ∈ cs, skips c) :
    ∃ lexeme, cs = lexeme ++ tail ∧ passes (.inside '\'') lexeme .outside := by
  have hclose : passes (.inside '\'') ['\''] .outside := scan.closes (.inr (.inl rfl))
  cases cs with
  | nil => cases h
  | cons c cs =>
    rw [List.forall_mem_cons] at hskips
    simp only [Expr.readChar] at h
    split at h
    · cases h
    · next hquote =>
      split at h
      · cases h
      · next hvalue =>
        cases h
        split at hvalue
        · next hslash =>
          obtain ⟨escape, rfl, hpass⟩ := scan.of_readEscape (.inr rfl) hvalue hskips.2
          cases hslash
          exact ⟨'\\' :: escape ++ ['\''], by simp, scan.append hpass hclose⟩
        · next hslash =>
          cases hvalue
          exact ⟨[value, '\''], rfl,
            scan.append (scan.inside (.inr rfl) hquote hslash hskips.1) hclose⟩
      · cases h

theorem of_cut? {before : List Char} (h : cut? ['`'] cs = some (before, tail)) :
    passes (.inside '`') (before ++ ['`']) .outside := by
  induction cs generalizing before with
  | nil => cases h
  | cons c cs ih =>
    by_cases hc : c = '`'
    · simp only [cut?, strip?, hc, List.cons_ne_nil, if_false, if_true, Option.some.injEq,
        Prod.mk.injEq] at h
      rw [← h.1]
      exact scan.closes (.inr (.inr rfl))
    · simp only [cut?, strip?, Ne.symm hc, List.cons_ne_nil, if_false] at h
      obtain ⟨parts, hcut, heq⟩ := Option.map_eq_some_iff.1 h
      cases heq
      have hmore := scan.append (scan.raw hc) (ih hcut)
      exact hmore

/-- The tokens of an expression leave the scan where it was, an index apart: there the two read
different languages. -/
theorem of_readToken {kind : TokenKind} (h : Expr.readToken offset c cs = .ok (kind, tail))
    (hbracket : c ≠ '[') (hskips : ∀ c ∈ cs, skips c) :
    ∃ lexeme, cs = lexeme ++ tail ∧ passes .outside (c :: lexeme) .outside := by
  have hplain {lexeme : List Char} (hc : IsPlain c) (hall : ∀ d ∈ lexeme, IsPlain d) :
      passes .outside (c :: lexeme) .outside :=
    scan.of_isPlain (List.forall_mem_cons.2 ⟨hc, hall⟩)
  have hword (hc : IsPlain c) : ∃ lexeme, cs = lexeme ++ cs.dropWhile isNameChar ∧
      passes .outside (c :: lexeme) .outside := by
    refine ⟨_, List.takeWhile_append_dropWhile.symm, hplain hc ?_⟩
    intro d hd
    exact isPlain_of_isNameChar (List.mem_takeWhile_imp hd)
  have halone (hc : IsPlain c) : ∃ lexeme, cs = lexeme ++ cs ∧
      passes .outside (c :: lexeme) .outside :=
    ⟨[], rfl, hplain hc (by simp)⟩
  cases Expr.tokenRead_of_readToken h with
  | number hstarts hread =>
    obtain ⟨lexeme, hsplit, hall⟩ := isPlain_of_readNumber hstarts hread
    exact ⟨lexeme, hsplit, scan.of_isPlain hall⟩
  | word _ hname => exact hword (isPlain_of_isNameChar (isNameChar_of_isNameStart hname))
  | leftParen | rightParen | pipe | dot => exact halone (by simp [IsPlain, IsQuote])
  | index => contradiction
  | field | dollar => exact hword (by simp [IsPlain, IsQuote])
  | string hread =>
    obtain ⟨lexeme, hsplit, hpass⟩ := scan.of_readString hread hskips
    exact ⟨lexeme, hsplit, scan.append (scan.opens (.inl rfl)) hpass⟩
  | raw hcut =>
    have hopen : passes .outside ['`'] (.inside '`') := scan.opens (.inr (.inr rfl))
    exact ⟨_, (eq_of_cut? hcut).2, scan.append hopen (scan.of_cut? hcut)⟩
  | char hread =>
    obtain ⟨lexeme, hsplit, hpass⟩ := scan.of_readChar hread hskips
    exact ⟨lexeme, hsplit, scan.append (scan.opens (.inr (.inl rfl))) hpass⟩

theorem of_lexed {tokens : List Token} (h : Expr.Lexed offset cs tokens)
    (hindex : '[' ∉ cs ∨ ∀ t ∈ tokens, ∀ key, t.kind ≠ .index key)
    (hskips : ∀ c ∈ cs, skips c) : passes .outside cs .outside := by
  induction h with
  | nil => exact scan.nil .outside
  | blank hblank _ ih =>
    rw [List.forall_mem_cons] at hskips
    refine scan.append (scan.plain (isPlain_of_isBlank hblank)) (ih (hindex.imp_left ?_) hskips.2)
    exact mt (List.mem_cons_of_mem _)
  | @token offset c lexeme tail kind _ _ hread _ ih =>
    rw [List.forall_mem_cons] at hindex hskips
    have htoken := hread offset tail (Expr.follows_of_isPrefix List.prefix_rfl)
    have hbracket : c ≠ '[' := by
      rintro rfl
      rw [Expr.readToken_bracket] at htoken
      obtain ⟨key, rfl⟩ := Expr.exists_index_of_readIndex htoken
      rcases hindex with hindex | hindex
      · exact hindex List.mem_cons_self
      · exact hindex.1 key rfl
    obtain ⟨lexeme', hsplit, hpass⟩ := scan.of_readToken htoken hbracket hskips.2
    cases List.append_cancel_right hsplit
    have htail : ∀ d ∈ tail, d ∈ c :: (lexeme ++ tail) :=
      fun d hd => List.mem_cons_of_mem c (List.mem_append_right lexeme hd)
    refine scan.append hpass (ih (hindex.imp (mt (htail '[')) And.right) ?_)
    intro d hd
    exact hskips.2 d (List.mem_append_right lexeme hd)

end QuoteScan

end TemplateLint
