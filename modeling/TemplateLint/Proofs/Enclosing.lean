import TemplateLint.Proofs.Piping
import TemplateLint.Proofs.QuoteScans
import TemplateLint.Proofs.Slices
import TemplateLint.Template.Parser

/-! Expressions between delimiters. The scan for the end of an action goes over an expression without
stopping, whatever stands in its literals, and finds the delimiter behind it. -/
namespace TemplateLint
open Text

namespace Piece

def Passes (q : Quoting) (cs : List Char) (q' : Quoting) : Prop :=
  ∀ rest, cutClose? ['}', '}'] q (cs ++ rest) =
    (cutClose? ['}', '}'] q' rest).map fun parts => (cs ++ parts.1, parts.2)

theorem Passes.append {cs ds : List Char} {q q' q'' : Quoting} (h : Passes q cs q')
    (h' : Passes q' ds q'') : Passes q (cs ++ ds) q'' := by
  intro rest
  rw [List.append_assoc, h, h', Option.map_map]
  simp [Function.comp_def]

theorem quoteScan_passes : QuoteScan (· ≠ '\n') Passes where
  nil q rest := by simp
  append := Passes.append
  plain {c} h rest := by
    obtain ⟨hquote, hbrace, -⟩ := h
    simp only [IsQuote, not_or] at hquote
    simp [cutClose?, strip?, hquote, Ne.symm hbrace]
  opens {c} h rest := by
    rcases h with rfl | rfl | rfl <;> simp [cutClose?]
  closes {c} _ rest := by simp [cutClose?]
  raw {c} h rest := by simp [cutClose?, h]
  backslash {quote} hquote rest := by
    rcases hquote with rfl | rfl <;> simp [cutClose?]
  escaped quote c rest := by simp [cutClose?]
  inside {quote c} hquote hc hslash hline rest := by
    rcases hquote with rfl | rfl <;> simp [cutClose?, hc, hslash, hline]

theorem passes_of_lexed {offset : Nat} {cs : List Char} {tokens : List Token}
    (h : Expr.Lexed offset cs tokens) (hbracket : '[' ∉ cs) (hline : '\n' ∉ cs) :
    Passes .outside cs .outside := by
  refine quoteScan_passes.of_lexed h (.inl hbracket) ?_
  rintro c hc rfl
  exact hline hc

end Piece

section

variable {offset : Nat} {c : Char} {cs rest post : List Char} {tokens : List Token}

theorem dropWhile_append_of_ne_nil {p : Char → Bool} (h : cs.dropWhile p ≠ []) :
    (cs ++ post).dropWhile p = cs.dropWhile p ++ post := by
  rw [List.dropWhile_append, if_neg (by simpa using h)]

theorem trimStart_append (h : trimStart cs = c :: rest) :
    trimStart (cs ++ post) = c :: (rest ++ post) := by
  unfold trimStart at h ⊢
  rw [dropWhile_append_of_ne_nil (by simp [h]), h, List.cons_append]

theorem Expr.Lexed.exists_readToken (h : Lexed offset cs tokens)
    (hcs : trimStart cs = c :: rest) :
    ∃ start stop kind tail more, readToken start c rest = .ok (kind, tail) ∧
      Lexed stop tail more := by
  unfold trimStart at hcs
  induction h with
  | nil => cases hcs
  | blank hblank _ ih =>
    rw [List.dropWhile_cons_of_pos hblank] at hcs
    exact ih hcs
  | @token offset _ _ tail _ _ hblank hread hmore _ =>
    rw [List.dropWhile_cons_of_neg (by simp [hblank])] at hcs
    cases hcs
    exact ⟨_, _, _, _, _, hread offset tail (follows_of_isPrefix List.prefix_rfl), hmore⟩

namespace Declaration

/-- What an expression goes on with is neither the operator of a declaration nor the comma between
its variables. -/
theorem not_operator_of_lexed (h : Expr.Lexed offset cs tokens)
    (hcs : trimStart cs = c :: rest) : c ≠ ',' ∧ c ≠ ':' ∧ c ≠ '=' := by
  obtain ⟨start, stop, kind, tail, more, hread, -⟩ := h.exists_readToken hcs
  cases Expr.tokenRead_of_readToken hread with
  | number hstarts _ =>
    refine ⟨?_, ?_, ?_⟩ <;> rintro rfl <;> simp [Expr.startsNumber] at hstarts
  | word _ hname =>
    refine ⟨?_, ?_, ?_⟩ <;> rintro rfl <;> exact absurd hname (by decide +kernel)
  | leftParen | rightParen | pipe | index | dot | field | dollar | string | raw | char => decide

theorem exists_of_takeVar? {name : List Char} (h : takeVar? cs = some (name, rest)) :
    ∃ more, cs = '$' :: more ∧ more.dropWhile isNameChar = rest := by
  unfold takeVar? at h
  split at h
  · next more =>
    obtain ⟨⟨name', rest'⟩, htake⟩ : ∃ parts, takeName more = parts := ⟨_, rfl⟩
    rw [htake] at h
    dsimp only at h
    split at h
    · cases h
    · next hname =>
      cases h
      exact ⟨more, rfl, (takeWhile_of_takeName htake hname).2⟩
  · cases h

theorem takeOp?_eq_none (h : ∀ c ∈ cs.head?, c ≠ ':' ∧ c ≠ '=') : takeOp? cs = none := by
  unfold takeOp?
  split <;> simp_all

theorem read?_eq_none (h : Expr.Lexed offset (cs ++ post) tokens) : read? cs = none := by
  have hnone {first tail : List Char} (hfirst : takeVar? (trimStart cs) = some (first, tail)) :
      ∀ c ∈ (trimStart tail).head?, c ≠ ',' ∧ c ≠ ':' ∧ c ≠ '=' := by
    intro c hc
    obtain ⟨more, hcs, hdrop⟩ := exists_of_takeVar? hfirst
    obtain ⟨_, stop, _, rest, more', hread, hrest⟩ := h.exists_readToken (trimStart_append hcs)
    rw [(Expr.TokenRead.dollar _).readToken_eq] at hread
    cases hread
    cases htail : trimStart tail with
    | nil =>
      rw [htail] at hc
      cases hc
    | cons d tail' =>
      rw [htail] at hc
      cases hc
      have hne : more.dropWhile isNameChar ≠ [] := by
        rintro hnil
        rw [hdrop] at hnil
        rw [hnil] at htail
        cases htail
      rw [dropWhile_append_of_ne_nil hne, hdrop] at hrest
      exact not_operator_of_lexed hrest (trimStart_append htail)
  unfold read?
  cases hfirst : takeVar? (trimStart cs) with
  | none => rfl
  | some parts =>
    obtain ⟨first, tail⟩ := parts
    have hop := hnone hfirst
    dsimp only [Option.bind_eq_bind, Option.bind_some]
    split
    · next hcomma =>
      rw [hcomma] at hop
      exact absurd rfl (hop ',' rfl).1
    · rw [takeOp?_eq_none (fun c hc => (hop c hc).2)]
      rfl

end Declaration

end

def Delimiters.enclose (d : Delimiters) (text : String) : String :=
  d.left ++ " " ++ text ++ " " ++ d.right

def ActionText.around (cs : List Char) : ActionText :=
  ⟨['{', '{'], ' ' :: (cs ++ [' ']), ['}', '}'], false, false, false⟩

theorem Delimiters.toList_enclose (text : String) :
    (enclose {} text).toList = (ActionText.around text.toList).raw := by
  simp [enclose, ActionText.around, ActionText.raw]

namespace Piece

variable {cs : List Char}

theorem cutClose?_around (h : Passes .outside cs .outside) :
    cutClose? ['}', '}'] .outside (' ' :: (cs ++ [' ']) ++ ['}', '}']) =
      some (' ' :: (cs ++ [' ']), []) := by
  have hblank : Passes .outside [' '] .outside :=
    quoteScan_passes.plain (isPlain_of_isBlank (by decide +kernel))
  have hpass := (hblank.append h).append hblank ['}', '}']
  simpa [cutClose?, strip?] using hpass

theorem scan_nil (left right : List Char) : scan left right [] = [] := by
  rw [scan]
  split
  · rfl
  · next h => cases h

theorem read_blank (left right rest : List Char) :
    read left right (' ' :: rest) = readPlain right left (' ' :: rest) false := by
  simp [read, openMarker, strip?]

theorem scan_around (h : Passes .outside cs .outside) :
    scan ['{', '{'] ['}', '}'] (ActionText.around cs).raw = [.action (.around cs)] := by
  have htrim : endsTrimmed (' ' :: (cs ++ [' '])) = false := by simp [endsTrimmed]
  have hread : read ['{', '{'] ['}', '}'] (' ' :: (cs ++ [' ']) ++ ['}', '}']) =
      (.action (.around cs), []) := by
    rw [List.cons_append, read_blank, readPlain, ← List.cons_append, cutClose?_around h]
    simp [htrim, ActionText.around]
  have hcut : cut? ['{', '{'] (ActionText.around cs).raw =
      some ([], ' ' :: (cs ++ [' ']) ++ ['}', '}']) := by
    simp [ActionText.around, ActionText.raw, cut?, strip?]
  rw [scan]
  split
  · next hnone => cases hnone.symm.trans hcut
  · next hsome =>
    cases hsome.symm.trans hcut
    rw [hread, scan_nil]
    rfl

end Piece

namespace NodeBody

def keywords : List String :=
  ["if", "range", "with", "define", "block", "template", "else", "end", "break", "continue"]

def IsLive : NodeBody → Prop
  | text | comment _ | malformed _ => False
  | action _ | blockOpen _ | blockClose _ | loopControl _ => True

theorem isLive_readAction (parts : ActionText) (inner : List Char) :
    (readAction parts inner).1.IsLive := by
  unfold readAction
  dsimp only
  split <;> exact trivial

theorem IsLive.step {body : NodeBody} (h : body.IsLive) (index : Nat)
    (constructs : List OpenConstruct) :
    (OpenConstruct.step index body constructs).1.IsLive := by
  cases body with
  | text | comment | malformed => cases h
  | action | loopControl => exact trivial
  | blockClose =>
    unfold OpenConstruct.step
    dsimp only
    split <;> exact trivial
  | blockOpen =>
    unfold OpenConstruct.step
    dsimp only
    repeat' split
    all_goals exact trivial

theorem IsLive.withClose {body : NodeBody} (h : body.IsLive) (bodies : List NodeBody)
    (index : Nat) : (withClose bodies index body).IsLive := by
  cases body <;> exact h

theorem IsLive.ne_text {body : NodeBody} (h : body.IsLive) : body ≠ .text := by
  rintro rfl
  exact h

theorem IsLive.ne_malformed {body : NodeBody} (h : body.IsLive) (error : ParseError) :
    body ≠ .malformed error := by
  rintro rfl
  exact h

theorem readAction_of_not_keyword {parts : ActionText} {inner : List Char}
    (h : String.ofList (splitWord inner).1 ∉ keywords) (hdecl : Declaration.read? inner = none) :
    readAction parts inner = (action {
      expr := String.ofList (trim inner)
      decl := none
      path := Path.ofChars? (trim inner)
      trimLeft := parts.trimLeft
      trimRight := parts.trimRight }, []) := by
  have hsplit : Declaration.split inner = (none, trim inner) := by
    unfold Declaration.split
    rw [hdecl]
  unfold readAction
  dsimp only
  split
  case h_11 => simp [hsplit]
  all_goals simp_all [keywords]

end NodeBody

theorem NodeBody.read_around {cs : List Char} (h : trim cs ≠ []) :
    read (.action (.around cs)) = readAction (.around cs) (trim cs) := by
  have hspace : ∀ c ∈ [' '], isBlank c = true := by
    intro c hc
    cases List.mem_singleton.1 hc
    decide +kernel
  have htrim : trim ([' '] ++ (cs ++ [' '])) = trim cs := trim_surround hspace hspace
  change (if trim ([' '] ++ (cs ++ [' '])) = [] then _
    else readAction _ (trim ([' '] ++ (cs ++ [' '])))) = _
  rw [htrim, if_neg h]

namespace Template

theorem exists_nodes_ofPieces {source : List Char} {piece : Piece}
    (h : (NodeBody.read piece).1.IsLive) :
    ∃ body : NodeBody, body.IsLive ∧
      (ofPieces source [piece]).nodes = [node source piece ⟨0, byteLength piece.raw⟩ body] ∧
      ∀ a, (NodeBody.read piece).1 = .action a → body = .action a := by
  refine ⟨_, (h.step 0 []).withClose [(OpenConstruct.step 0 (NodeBody.read piece).1 []).1] 0, ?_, ?_⟩
  · simp [ofPieces, OpenConstruct.pair, Piece.spans]
  · intro a ha
    rw [ha]
    rfl

theorem issues_ofPieces_action {source : List Char} {piece : Piece} {a : Action}
    (h : NodeBody.read piece = (.action a, [])) : (ofPieces source [piece]).issues = [] := by
  simp [ofPieces, OpenConstruct.pair, OpenConstruct.step, Piece.spans, h]

/-- Between the standard delimiters, an expression without index and line break is one node,
whatever its literals hold. Unless a keyword leads, the node is an action with that expression. -/
theorem enclosed_expression_is_one_action {text : String} {e : Expr}
    (h : Expr.parse text = .ok e) (hbracket : '[' ∉ text.toList) (hline : '\n' ∉ text.toList) :
    ∃ node, (parse {} (Delimiters.enclose {} text)).nodes = [node] ∧
      node.span = ⟨0, (Delimiters.enclose {} text).utf8ByteSize⟩ ∧
      node.isText = false ∧ (∀ error, node.body ≠ .malformed error) ∧
      (String.ofList (splitWord (trim text.toList)).1 ∉ NodeBody.keywords →
        node.body = .action {
          expr := String.ofList (trim text.toList)
          decl := none
          path := Path.ofChars? (trim text.toList)
          trimLeft := false
          trimRight := false } ∧
        (parse {} (Delimiters.enclose {} text)).issues = []) := by
  obtain ⟨tokens, -, htokens, hne, -⟩ := Expr.ofChars_eq_ok.1 h
  have hread := NodeBody.read_around (Expr.trim_ne_nil_of_tokenize htokens hne)
  have hpieces : parse {} (Delimiters.enclose {} text) =
      ofPieces (ActionText.around text.toList).raw [.action (.around text.toList)] := by
    unfold parse
    rw [Delimiters.toList_enclose]
    have hpass := Piece.passes_of_lexed (Expr.lexed_of_tokenize htokens) hbracket hline
    exact congrArg _ (Piece.scan_around hpass)
  obtain ⟨body, hlive, hnodes, haction⟩ := exists_nodes_ofPieces
    (hread ▸ NodeBody.isLive_readAction (.around text.toList) (trim text.toList))
  rw [hpieces]
  refine ⟨_, hnodes, ?_, ?_, ?_, ?_⟩
  · rw [utf8ByteSize_eq, Delimiters.toList_enclose]
    rfl
  · exact decide_eq_false hlive.ne_text
  · exact hlive.ne_malformed
  · intro hword
    obtain ⟨pre, post, hpre, -, hcs⟩ := exists_trim text.toList
    rw [hcs, Expr.tokenize_append_of_blank hpre] at htokens
    have hdecl := Declaration.read?_eq_none (Expr.lexed_of_tokenize htokens)
    have hbody : NodeBody.readAction (.around text.toList) (trim text.toList) = _ :=
      NodeBody.readAction_of_not_keyword hword hdecl
    rw [trim_trim] at hbody
    rw [hbody] at hread
    exact ⟨haction _ (congrArg Prod.fst hread), issues_ofPieces_action hread⟩

theorem enclosed_expression_is_one_action_of_delimiters :
    let stop := ({} : Delimiters).right
    let text := s!"printf \"{stop} \\\" -{stop}\" `\\ {stop}` '\\'' -1"
    ∃ node, (parse {} (Delimiters.enclose {} text)).nodes = [node] ∧ node.span = ⟨0, 39⟩ ∧
      node.body = .action ⟨text, none, none, false, false⟩ ∧
      (parse {} (Delimiters.enclose {} text)).issues = [] := by
  intro stop text
  have hread : (Expr.parse text).toOption.map Expr.asPath? = some none := by decide +kernel
  obtain ⟨e, hparse, -⟩ := map_toOption_eq_some.1 hread
  obtain ⟨node, hnodes, hspan, -, -, haction⟩ :=
    enclosed_expression_is_one_action hparse (by decide +kernel) (by decide +kernel)
  obtain ⟨hbody, hissues⟩ := haction (by decide +kernel)
  exact ⟨node, hnodes, hspan.trans (by decide +kernel), hbody.trans (by decide +kernel), hissues⟩

end Template

end TemplateLint
