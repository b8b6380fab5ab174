import TemplateLint.Proofs.QuoteScans
import TemplateLint.Proofs.Resolution
import TemplateLint.Template.Parser

/-! The names of templates against string literals. Both are written alike and end at the same
quote, and a raw literal is the same text for both. Of the escapes of an interpreted literal, names
know only some, so that a name is the string of the same literal exactly if there are no others. -/
namespace TemplateLint
open Text

def Expr.string? : Expr → Option String
  | .literal _ (.str v) => some v
  | _ => none

namespace NameLiteral

/-- The characters behind backslashes. Further characters of an escape count as plain ones. -/
def escapes : List Char → List Char
  | '\\' :: c :: cs => c :: escapes cs
  | _ :: cs => escapes cs
  | [] => []

def sharedEscapes : List Char := ['n', 't', 'r', '"', '\\']

section

variable {c : Char} {cs digits : List Char}

theorem escapes_cons (hc : c ≠ '\\') : escapes (c :: cs) = escapes cs := by
  cases cs with
  | nil => simp [escapes]
  | cons d cs => simp [escapes, hc]

theorem escapes_append (h : ∀ c ∈ digits, IsInert c) : escapes (digits ++ cs) = escapes cs := by
  induction digits with
  | nil => rfl
  | cons d digits ih =>
    rw [List.forall_mem_cons] at h
    rw [List.cons_append, escapes_cons h.1.2.2, ih h.2]

theorem escapes_eq_nil (h : '\\' ∉ cs) : escapes cs = [] := by
  induction cs with
  | nil => rfl
  | cons c cs ih =>
    rw [List.mem_cons, not_or] at h
    rw [escapes_cons (Ne.symm h.1), ih h.2]

theorem readQuoted?_cons (hquote : c ≠ '"') (hslash : c ≠ '\\') :
    readQuoted? (c :: cs) = (readQuoted? cs).map fun parts => (c :: parts.1, parts.2) := by
  rw [readQuoted?]
  all_goals simp [hquote, hslash]

theorem readQuoted?_append (h : ∀ c ∈ digits, IsInert c) :
    readQuoted? (digits ++ cs) =
      (readQuoted? cs).map fun parts => (digits ++ parts.1, parts.2) := by
  induction digits with
  | nil => simp
  | cons d digits ih =>
    rw [List.forall_mem_cons] at h
    obtain ⟨hquote, -, hslash⟩ := h.1
    rw [List.cons_append, readQuoted?_cons hquote hslash, ih h.2, Option.map_map]
    rfl

end

section

variable {c value : Char} {cs tail : List Char} {start offset : Nat}

theorem unescape_eq_iff (h : Expr.simpleEscape? '"' c = some value) :
    unescape c = value ↔ c ∈ sharedEscapes := by
  unfold Expr.simpleEscape? at h
  split at h
  · next hc =>
    cases h
    subst hc
    decide
  · split at h <;> cases h <;> decide

theorem exists_of_readEscape (h : Expr.readEscape '"' offset cs = .ok (value, tail)) :
    ∃ c digits, cs = c :: (digits ++ tail) ∧ (∀ d ∈ digits, IsInert d) ∧
      (digits = [] ∧ (unescape c = value ↔ c ∈ sharedEscapes) ∨
        digits ≠ [] ∧ c ∉ sharedEscapes) := by
  cases cs with
  | nil => cases h
  | cons c cs =>
    have hnumeric (hshared : c ∉ sharedEscapes) (hlength : tail.length < cs.length)
        (hread : ∃ digits, cs = digits ++ tail ∧ ∀ d ∈ digits, IsInert d) :
        ∃ c' digits, c :: cs = c' :: (digits ++ tail) ∧ (∀ d ∈ digits, IsInert d) ∧
          (digits = [] ∧ (unescape c' = value ↔ c' ∈ sharedEscapes) ∨
            digits ≠ [] ∧ c' ∉ sharedEscapes) := by
      obtain ⟨digits, rfl, hinert⟩ := hread
      refine ⟨c, digits, rfl, hinert, .inr ⟨?_, hshared⟩⟩
      rintro rfl
      simp at hlength
    simp only [Expr.readEscape] at h
    split at h
    · next hsimple =>
      cases h
      exact ⟨c, [], rfl, by simp, .inl ⟨rfl, unescape_eq_iff hsimple⟩⟩
    · next hsimple =>
      have hshared : c ∉ sharedEscapes := by
        intro hc
        simp only [sharedEscapes, List.mem_cons, List.not_mem_nil, or_false] at hc
        rcases hc with rfl | rfl | rfl | rfl | rfl <;> cases hsimple
      split at h
      · next width hwidth =>
        have hlength := Expr.length_of_readHex h
        have hpos : 0 < width := by
          unfold Expr.hexWidth? at hwidth
          split at hwidth <;> cases hwidth <;> decide
        exact hnumeric hshared (by omega) (isInert_of_readHex h)
      · split at h
        · have hlength := Expr.length_of_readOctal h
          exact hnumeric hshared (by omega) (isInert_of_readOctal h)
        · cases h

/-- The two readers of a literal end at the same quote. The name is never shorter than the string,
and it is the same text exactly if all escapes are shared. -/
theorem exists_readQuoted? {values : List Char}
    (h : Expr.readString start offset cs = .ok (values, tail)) :
    ∃ lexeme name, cs = lexeme ++ tail ∧
      (∀ more, readQuoted? (lexeme ++ more) = some (name, more)) ∧
      values.length ≤ name.length ∧
      ∀ more, '\\' ∉ more →
        (name = values ↔ ∀ c ∈ escapes (lexeme ++ more), c ∈ sharedEscapes) := by
  fun_induction Expr.readString start offset cs generalizing values tail with
  | case1 => cases h
  | case2 => cases h
  | case3 =>
    cases h
    refine ⟨['"'], [], rfl, fun _ => by simp [readQuoted?], by simp, ?_⟩
    intro more hmore
    rw [List.singleton_append, escapes_cons (by decide), escapes_eq_nil hmore]
    simp
  | case4 => cases h
  | case5 => cases h
  | case6 =>
    next hescape _ values _ hstring _ _ ih =>
    cases h
    obtain ⟨c, digits, rfl, hinert, hcases⟩ := exists_of_readEscape hescape
    obtain ⟨lexeme, name, rfl, hread, hlength, hiff⟩ := ih hstring
    refine ⟨'\\' :: c :: (digits ++ lexeme), unescape c :: (digits ++ name), by simp, ?_, ?_, ?_⟩
    · intro more
      simp only [List.cons_append, List.append_assoc, readQuoted?]
      rw [readQuoted?_append hinert, hread]
      rfl
    · simp only [List.length_cons, List.length_append]
      omega
    · intro more hmore
      rw [List.cons_append, List.cons_append, List.append_assoc, escapes, escapes_append hinert,
        List.forall_mem_cons, ← hiff more hmore]
      rcases hcases with ⟨rfl, hc⟩ | ⟨hdigits, hc⟩
      · rw [List.nil_append, List.cons.injEq, hc]
      · have hpos := List.length_pos_iff.2 hdigits
        constructor
        · intro heq
          have hsame := congrArg List.length heq
          simp only [List.length_cons, List.length_append] at hsame
          omega
        · intro hshared
          exact absurd hshared.1 hc
  | case7 => cases h
  | case8 =>
    next c rest hline hquote hslash values _ hstring ih =>
    cases h
    obtain ⟨lexeme, name, rfl, hread, hlength, hiff⟩ := ih hstring
    refine ⟨c :: lexeme, c :: name, rfl, ?_, by simpa using hlength, ?_⟩
    · intro more
      rw [List.cons_append, readQuoted?_cons hquote hslash, hread]
      rfl
    · intro more hmore
      rw [List.cons_append, escapes_cons hslash, ← hiff more hmore, List.cons.injEq,
        and_iff_right rfl]

end

end NameLiteral

namespace Expr

section

variable {offset : Nat} {c : Char} {cs tail : List Char} {v : String} {t : Token}

theorem string_of_readToken (h : readToken offset c cs = .ok (.literal (.str v), tail)) :
    (c = '"' ∧ readString offset (offset + 1) cs = .ok (v.toList, tail)) ∨
      c = '`' ∧ cut? ['`'] cs = some (v.toList, tail) := by
  generalize hkind : TokenKind.literal (.str v) = kind at h
  cases tokenRead_of_readToken h with
  | number _ hread =>
    unfold readNumber at hread
    split at hread
    · next value _ =>
      cases hread
      cases value <;> cases hkind
    · cases hread
  | word =>
    unfold wordKind at hkind
    split at hkind <;> cases hkind
  | index hread =>
    obtain ⟨key, rfl⟩ := exists_index_of_readIndex hread
    cases hkind
  | string hread =>
    cases hkind
    rw [String.toList_ofList]
    exact .inl ⟨rfl, hread⟩
  | raw hcut =>
    cases hkind
    rw [String.toList_ofList]
    exact .inr ⟨rfl, hcut⟩
  | leftParen | rightParen | pipe | dot | field | dollar | char => cases hkind

theorem Lexed.isBlank (h : Lexed offset cs []) : ∀ c ∈ cs, isBlank c = true := by
  generalize hnil : ([] : List Token) = tokens at h
  induction h with
  | nil => simp
  | blank hblank _ ih => exact List.forall_mem_cons.2 ⟨hblank, ih hnil⟩
  | token => cases hnil

theorem Lexed.exists_of_singleton (h : Lexed offset cs [t]) :
    ∃ pre c lexeme post start, cs = pre ++ c :: (lexeme ++ post) ∧
      (∀ c ∈ pre, Text.isBlank c = true) ∧ Text.isBlank c = false ∧
      (∀ c ∈ post, Text.isBlank c = true) ∧
      readToken start c (lexeme ++ post) = .ok (t.kind, post) := by
  generalize htokens : [t] = tokens at h
  induction h with
  | nil => cases htokens
  | @blank _ c _ _ hblank _ ih =>
    obtain ⟨pre, d, lexeme, post, start, rfl, hpre, hrest⟩ := ih htokens
    exact ⟨c :: pre, d, lexeme, post, start, rfl, List.forall_mem_cons.2 ⟨hblank, hpre⟩, hrest⟩
  | @token offset c lexeme post _ _ hblank hread hrest _ =>
    cases htokens
    exact ⟨[], c, lexeme, post, offset, rfl, by simp, hblank, hrest.isBlank,
      hread offset post (follows_of_isPrefix List.prefix_rfl)⟩

theorem kind_of_string? {text : String} (htoken : tokenize 0 text.toList = .ok [t])
    (h : (parse text).toOption.bind string? = some v) : t.kind = .literal (.str v) := by
  unfold parse ofChars at h
  rw [htoken] at h
  change (ofTokens [t] (byteLength text.toList)).toOption.bind string? = some v at h
  obtain ⟨kind, span⟩ := t
  cases kind with
  | literal value =>
    cases value <;> cases h
    rfl
  | _ => cases h

end

end Expr

namespace NameLiteral

variable {start : Nat} {c : Char} {pre lexeme post : List Char} {v : String}

theorem trimStart_blanks (hpre : ∀ c ∈ pre, isBlank c = true) (hc : isBlank c = false)
    (cs : List Char) : trimStart (pre ++ c :: cs) = c :: cs := by
  unfold trimStart
  rw [List.dropWhile_append_of_pos hpre, List.dropWhile_cons_of_neg (by simp [hc])]

theorem exists_read? (h : Expr.readToken start c (lexeme ++ post) = .ok (.literal (.str v), post))
    (hpre : ∀ c ∈ pre, isBlank c = true) (hpost : '\\' ∉ post) :
    ∃ name, (∀ more, read? (pre ++ c :: (lexeme ++ more)) = some (name, more)) ∧
      (name = v.toList ↔ c = '"' → ∀ d ∈ escapes (lexeme ++ post), d ∈ sharedEscapes) := by
  rcases Expr.string_of_readToken h with ⟨rfl, hstring⟩ | ⟨rfl, hcut⟩
  · obtain ⟨lexeme', name, hsplit, hread, -, hiff⟩ := exists_readQuoted? hstring
    cases List.append_cancel_right hsplit
    refine ⟨name, ?_, by simpa using hiff post hpost⟩
    intro more
    unfold read?
    rw [trimStart_blanks hpre (by decide +kernel)]
    exact hread more
  · have hlexeme : lexeme = v.toList ++ ['`'] :=
      List.append_cancel_right (eq_of_cut? hcut).2
    refine ⟨v.toList, ?_, by simp⟩
    intro more
    unfold read?
    rw [trimStart_blanks hpre (by decide +kernel), hlexeme, List.append_assoc]
    exact Expr.cut?_lexeme hcut more

end NameLiteral

theorem BlockOpen.name_readNamed {cs name rest : List Char}
    (h : NameLiteral.read? cs = some (name, rest)) (kind : BlockKind) :
    (readNamed kind cs).1.name = some (String.ofList name) := by
  unfold readNamed
  rw [h]
  dsimp only
  split <;> rfl

/-- The name that a literal gives to a template is the string that the same literal is in an
expression, if it is raw or if all its escapes are shared, and only then. In every case a name is
read, and it ends where the string ends. -/
theorem name_is_string_iff_escapes_shared {text : String} {t : Token} {v : String}
    (htoken : Expr.tokenize 0 text.toList = .ok [t])
    (hstring : (Expr.parse text).toOption.bind Expr.string? = some v) :
    ∃ name rest, NameLiteral.read? text.toList = some (name, rest) ∧
      (∀ c ∈ rest, isBlank c = true) ∧
      (∀ kind more, (BlockOpen.readNamed kind (text.toList ++ more)).1.name =
        some (String.ofList name)) ∧
      (name = v.toList ↔ ∀ body, trimStart text.toList = '"' :: body →
        ∀ c ∈ NameLiteral.escapes body, c ∈ NameLiteral.sharedEscapes) := by
  have hkind := Expr.kind_of_string? htoken hstring
  obtain ⟨pre, c, lexeme, post, start, htext, hpre, hc, hpost, hread⟩ :=
    (Expr.lexed_of_tokenize htoken).exists_of_singleton
  rw [hkind] at hread
  have hslash : '\\' ∉ post := by
    intro hmem
    have hblank := hpost _ hmem
    revert hblank
    decide +kernel
  obtain ⟨name, hname, hiff⟩ := NameLiteral.exists_read? hread hpre hslash
  have hmore (more : List Char) :
      NameLiteral.read? (text.toList ++ more) = some (name, post ++ more) := by
    rw [htext, List.append_assoc, List.cons_append, List.append_assoc]
    exact hname (post ++ more)
  refine ⟨name, post, by simpa using hmore [], hpost, ?_, ?_⟩
  · intro kind more
    exact BlockOpen.name_readNamed (hmore more) kind
  · rw [hiff, htext, NameLiteral.trimStart_blanks hpre hc]
    constructor
    · rintro hshared body ⟨⟩
      exact hshared rfl
    · rintro hshared rfl
      exact hshared _ rfl

theorem name_is_string_iff_escapes_shared_of_quotes :
    let text := " \"`a`\\n\\\"é\\\\\" "
    (Expr.tokenize 0 text.toList).toOption.map List.length = some 1 ∧
      (Expr.parse text).toOption.bind Expr.string? = some "`a`\n\"é\\" ∧
      ∃ rest, NameLiteral.read? text.toList = some ("`a`\n\"é\\".toList, rest) := by
  intro text
  obtain ⟨htoken, hstring⟩ : (Expr.tokenize 0 text.toList).toOption.map List.length = some 1 ∧
      (Expr.parse text).toOption.bind Expr.string? = some "`a`\n\"é\\" := by
    decide +kernel
  obtain ⟨tokens, htokens, hlength⟩ := map_toOption_eq_some.1 htoken
  obtain ⟨t, rfl⟩ := List.length_eq_one_iff.1 hlength
  obtain ⟨name, rest, hread, -, -, hiff⟩ := name_is_string_iff_escapes_shared htokens hstring
  refine ⟨htoken, hstring, rest, ?_⟩
  rw [hread, hiff.2]
  have hescapes : (NameLiteral.escapes ((trimStart text.toList).drop 1)).all
      (NameLiteral.sharedEscapes.contains ·) = true := by
    decide +kernel
  intro body hbody c hc
  rw [hbody] at hescapes
  exact List.contains_iff_mem.1 (List.all_eq_true.1 hescapes c hc)

/-- A character that is given by its number in an expression is spelled out in a name. -/
theorem numeric_escape_is_spelled_out :
    let text := "\"\\x41\""
    (Expr.tokenize 0 text.toList).toOption.map List.length = some 1 ∧
      (Expr.parse text).toOption.bind Expr.string? = some "A" ∧
      NameLiteral.read? text.toList = some ("x41".toList, []) := by
  decide +kernel

end TemplateLint
