import TemplateLint.Proofs.PathText
import TemplateLint.Proofs.Reporting

/-! A pipeline that is a single path is checked without being read as an expression. Reading it as
one gives the same path, and so the same findings, exactly if its keys close at their brackets. -/
namespace TemplateLint
open Text

namespace Expr

namespace Reading

def onPath (start stop : Nat) (p : Path) : Reading := ⟨⟨[], [.path ⟨start, stop⟩ p]⟩, []⟩

variable {start mid stop : Nat} {base : PathRoot} {front segments : List Segment}

theorem step_start {t : Token} {p : Path} (h : Operand.ofToken t = .ok (.path t.span p)) :
    step {} t = .ok (onPath t.span.start t.span.stop p) := by
  obtain ⟨kind, span⟩ := t
  unfold Operand.ofToken at h
  split at h
  all_goals cases h
  all_goals
    next hkind =>
    cases hkind
    rfl

theorem step_onPath (segment : Segment) :
    (onPath start mid ⟨base, front⟩).step ⟨segment.tokenKind, ⟨mid, stop⟩⟩ =
      .ok (onPath start stop ⟨base, front ++ [segment]⟩) := by
  cases segment <;>
    simp [step, onPath, Level.operand, Segment.tokenKind, Operand.extend?, Operand.span,
      Bind.bind, Except.bind, pure, Except.pure]

end Reading

theorem Spells.read {start mid stop : Nat} {base : PathRoot} {front segments : List Segment}
    {tokens : List Token} (h : Spells mid tokens segments stop) :
    tokens.foldlM Reading.step (Reading.onPath start mid ⟨base, front⟩) =
      .ok (Reading.onPath start stop ⟨base, front ++ segments⟩) := by
  induction h generalizing front with
  | nil => simp [pure, Except.pure]
  | cons spelled _ ih =>
    subst spelled
    rw [List.append_cons, List.foldlM_cons, Reading.step_onPath]
    exact ih

def Level.Begun (front : List Segment) (level : Level) : Prop :=
  level.stages ≠ [] ∨
    ∃ before s p, level.operands = before ++ [.path s p] ∧ front <+: p.segments

namespace Level

variable {front : List Segment} {level next : Level} {offset : Nat}

theorem Begun.push (h : level.Begun front) (o : Operand) : (level.push o).Begun front := by
  refine h.imp id ?_
  rintro ⟨before, s, p, hoperands, hfront⟩
  exact ⟨o :: before, s, p, by simp [Level.push, hoperands], hfront⟩

theorem Begun.operand (h : level.Begun front) {t : Token} (hnext : level.operand t = .ok next) :
    next.Begun front := by
  rcases exists_of_operand hnext with
    ⟨o, -, rfl⟩ | ⟨segment, last, before, longer, heq, hlonger, -, rfl⟩
  · exact h.push o
  · refine h.imp id ?_
    rintro ⟨earlier, s, p, hoperands, hfront⟩
    rw [heq] at hoperands
    cases earlier with
    | nil =>
      cases hoperands
      cases hlonger
      exact ⟨[], _, _, rfl, hfront.trans (List.prefix_append _ _)⟩
    | cons latest earlier =>
      cases hoperands
      exact ⟨longer :: earlier, s, p, rfl, hfront⟩

theorem begun_of_endStage (hnext : level.endStage offset = .ok next) : next.Begun front := by
  obtain ⟨stage, -, -, rfl⟩ := exists_of_endStage hnext
  exact .inl (List.cons_ne_nil _ _)

theorem path_ne_of_apply {first : Operand} {args : List Expr} {span s : Span} {p : Path} :
    apply first args span ≠ .ok (.path s p) := by
  unfold apply
  split
  · simp
  · split <;> simp
  · simp

theorem command_of_finish {s : Span} {p : Path} (h : level.finish offset = .ok (.path s p)) :
    level.stages = [] ∧ level.command offset = .ok (.path s p) := by
  obtain ⟨stage, hstage, -, hcases⟩ := exists_of_finish h
  rcases hcases with ⟨hstages, rfl⟩ | ⟨-, _, hpipeline⟩
  · exact ⟨hstages, hstage⟩
  · cases hpipeline

theorem Begun.finish (h : level.Begun front) {s : Span} {p : Path}
    (hfinish : level.finish offset = .ok (.path s p)) : front <+: p.segments := by
  obtain ⟨hstages, hcommand⟩ := command_of_finish hfinish
  rcases h with hsome | ⟨before, s', p', hoperands, hfront⟩
  · exact absurd hstages hsome
  · unfold Level.command at hcommand
    rw [hoperands, List.reverse_append] at hcommand
    split at hcommand
    · cases hcommand
    · next heq =>
      obtain ⟨rfl, -⟩ := List.cons.inj heq
      cases hcommand
      exact hfront
    · exact absurd hcommand path_ne_of_apply

end Level

def Reading.Begun (front : List Segment) (r : Reading) : Prop :=
  ((r.outer.getLast?.map Prod.snd).getD r.level).Begun front

namespace Reading

variable {front : List Segment} {r next : Reading}

theorem Begun.step {t : Token} (h : r.Begun front) (hmoves : r.Moves t next) :
    next.Begun front := by
  obtain ⟨level, outer⟩ := r
  cases hmoves with
  | opened => cases outer <;> exact h
  | piped ended =>
    cases outer with
    | nil => exact Level.begun_of_endStage ended
    | cons => exact h
  | closed finished around =>
    cases around
    next rest =>
    cases rest with
    | nil => exact Level.Begun.push h _
    | cons => exact h
  | took taken =>
    cases outer with
    | nil => exact Level.Begun.operand h taken
    | cons => exact h

theorem Begun.finish (h : r.Begun front) {offset : Nat} {s : Span} {p : Path}
    (hfinish : r.finish offset = .ok (.path s p)) : front <+: p.segments := by
  obtain ⟨level, outer⟩ := r
  unfold Reading.finish at hfinish
  obtain ⟨e, he, hfinish⟩ := bind_eq_ok.1 hfinish
  cases outer with
  | nil =>
    cases hfinish
    exact Level.Begun.finish h he
  | cons => cases hfinish

end Reading

theorem Strays.begun {start mid : Nat} {base : PathRoot} {front segments : List Segment}
    {tokens : List Token} {r : Reading} (h : Strays mid tokens segments)
    (hr : tokens.foldlM Reading.step (Reading.onPath start mid ⟨base, front⟩) = .ok r) :
    ∃ wrong, r.Begun wrong ∧ ¬wrong <+: front ++ segments := by
  induction h generalizing front with
  | @here _ mid _ segments key other differs =>
    rw [List.foldlM_cons] at hr
    rw [show TokenKind.index other = (Segment.index other).tokenKind from rfl] at hr
    rw [Reading.step_onPath] at hr
    have hbegun : (Reading.onPath start mid ⟨base, front ++ [.index other]⟩).Begun
        (front ++ [.index other]) := .inr ⟨[], _, _, rfl, List.prefix_rfl⟩
    refine ⟨_, Reading.invariant_of_run Reading.Begun.step hbegun hr, ?_⟩
    intro hprefix
    rw [List.prefix_append_right_inj, List.cons_prefix_cons] at hprefix
    cases hprefix.1
    exact differs rfl
  | later spelled _ ih =>
    subst spelled
    rw [List.foldlM_cons, Reading.step_onPath] at hr
    rw [List.append_cons]
    exact ih hr

theorem takeWhile_of_reads {cs : List Char} {segments : List Segment}
    (h : Segment.Reads cs segments) :
    cs.takeWhile isNameChar = [] ∧ cs.dropWhile isNameChar = cs := by
  cases h with
  | nil => exact ⟨rfl, rfl⟩
  | field =>
    have hpoint : isNameChar '.' = false := by decide +kernel
    simp [hpoint]
  | index =>
    have hbracket : isNameChar '[' = false := by decide +kernel
    simp [hbracket]

/-- A text that is a path, with blanks after it: its first token is a path by itself, and what
follows that token are segments. -/
inductive Opens (p : Path) (text post : List Char) : Prop where
  | intro (c : Char) (lexeme tail : List Char) (kind : TokenKind) (front segments : List Segment)
      (split : text = c :: (lexeme ++ tail)) (visible : isBlank c = false)
      (taken : ∀ offset, readToken offset c (lexeme ++ tail ++ post) = .ok (kind, tail ++ post))
      (named : ∀ span, Operand.ofToken ⟨kind, span⟩ = .ok (.path span ⟨p.root, front⟩))
      (unkeyed : ∀ key, .index key ∉ front) (reads : Segment.Reads tail segments)
      (parts : p.segments = front ++ segments)

section

variable {cs post : List Char} {p : Path}

theorem opens_dot (hpost : ∀ c ∈ post, isBlank c = true) : Opens .dot ['.'] post := by
  have hdigit : post.head?.any Char.isDigit = false := by
    cases post with
    | nil => rfl
    | cons c post =>
      exact of_isBlank (P := fun c => c.isDigit = false) (by decide +kernel)
        (hpost c List.mem_cons_self)
  have hname : ([] ++ post).takeWhile isNameChar = [] := takeWhile_append_blank hpost
  have htaken (offset : Nat) : readToken offset '.' post = .ok (.dot, post) :=
    (TokenRead.dot (by simp [startsNumber, hdigit]) hname).readToken_eq
  exact .intro '.' [] [] .dot [] [] rfl (by decide +kernel) htaken (fun _ => rfl) (by simp)
    .nil rfl

theorem opens_field {segments : List Segment} (h : Segment.Reads ('.' :: cs) segments)
    (hpost : ∀ c ∈ post, isBlank c = true) : Opens ⟨.dot, segments⟩ ('.' :: cs) post := by
  cases h with
  | @field name rest segments named longest more =>
    exact .intro '.' name rest (.field (String.ofList name)) [.field (String.ofList name)] segments
      rfl (by decide +kernel) (fun _ => readToken_field named longest hpost) (fun _ => rfl)
      (by simp) more rfl

theorem opens_variable {name tail : List Char} {segments : List Segment}
    (hname : takeName cs = (name, tail)) (h : Segment.Reads tail segments)
    (hpost : ∀ c ∈ post, isBlank c = true) :
    Opens ⟨if name = [] then .root else .var (String.ofList name), segments⟩ ('$' :: cs) post := by
  have hsplit : name ++ tail = cs := by
    simpa [hname] using takeName_append cs
  have hrun : cs.takeWhile isNameChar = name ∧ cs.dropWhile isNameChar = tail := by
    by_cases hempty : name = []
    · subst hempty
      subst hsplit
      exact takeWhile_of_reads h
    · exact takeWhile_of_takeName hname hempty
  subst hsplit
  refine .intro '$' name tail (.variable (String.ofList name)) [] segments rfl (by decide +kernel)
    ?_ ?_ (by simp) h rfl
  · intro offset
    rw [(TokenRead.dollar _).readToken_eq, takeWhile_append_blank hpost,
      dropWhile_append_blank hpost, hrun.1, hrun.2]
  · intro span
    simp [Operand.ofToken]

theorem opens_of_ofChars? (h : Path.ofChars? cs = some p) (hpost : ∀ c ∈ post, isBlank c = true) :
    Opens p (trim cs) post := by
  unfold Path.ofChars? at h
  split at h
  · next htrim =>
    cases h
    rw [htrim]
    exact opens_dot hpost
  · next htrim =>
    obtain ⟨segments, hsegments, rfl⟩ := Option.map_eq_some_iff.1 h
    rw [htrim]
    exact opens_field (Segment.reads_of_readAll? hsegments) hpost
  · next htrim =>
    obtain ⟨segments, hsegments, rfl⟩ := Option.map_eq_some_iff.1 h
    rw [htrim]
    exact opens_variable rfl (Segment.reads_of_readAll? hsegments) hpost
  · cases h

theorem tokenize_of_ofChars? (h : Path.ofChars? cs = some p) :
    ∃ pre lexeme kind front segments tail post,
      cs = pre ++ (lexeme ++ tail ++ post) ∧ trim cs = lexeme ++ tail ∧
      (let start := byteLength pre
      let mid := start + byteLength lexeme
      tokenize 0 cs = (tokenize mid (tail ++ post)).map (⟨kind, ⟨start, mid⟩⟩ :: ·) ∧
      Reading.step {} ⟨kind, ⟨start, mid⟩⟩ = .ok (Reading.onPath start mid ⟨p.root, front⟩)) ∧
      p.segments = front ++ segments ∧ (∀ key, .index key ∉ front) ∧ Segment.Reads tail segments ∧
      ∀ c ∈ post, isBlank c = true := by
  obtain ⟨pre, post, hpre, hpost, hcs⟩ := exists_trim cs
  obtain ⟨c, lexeme, tail, kind, front, segments, htrim, hvisible, htaken, hnamed, hunkeyed, hreads,
    hparts⟩ := opens_of_ofChars? h hpost
  rw [← List.cons_append] at htrim
  rw [htrim] at hcs
  refine ⟨pre, c :: lexeme, kind, front, segments, tail, post, hcs, htrim,
    ⟨?_, Reading.step_start (hnamed _)⟩, hparts, hunkeyed, hreads, hpost⟩
  rw [hcs, tokenize_append_of_blank hpre, Nat.zero_add]
  exact tokenize_of_readToken hvisible (by simp) (htaken _)

theorem ofChars_of_keysClose (h : Path.ofChars? cs = some p) (hclose : KeysClose p.segments) :
    ∃ pre post, cs = pre ++ (trim cs ++ post) ∧
      ofChars cs = .ok (.path ⟨byteLength pre, byteLength pre + byteLength (trim cs)⟩ p) := by
  obtain ⟨pre, lexeme, kind, front, segments, tail, post, hcs, htrim, ⟨htokenize, hstep⟩, hparts, -,
    hreads, hpost⟩ := tokenize_of_ofChars? h
  rw [hparts, keysClose_append] at hclose
  obtain ⟨more, hmore, hspells⟩ :=
    spells_of_reads (byteLength pre + byteLength lexeme) hreads hclose.2 hpost
  have hread : (⟨kind, ⟨byteLength pre, byteLength pre + byteLength lexeme⟩⟩ :: more).foldlM
      Reading.step {} =
        .ok (Reading.onPath (byteLength pre) (byteLength pre + byteLength (trim cs)) p) := by
    rw [List.foldlM_cons, hstep, htrim, byteLength_append, ← Nat.add_assoc,
      show p = ⟨p.root, front ++ segments⟩ by rw [← hparts]]
    exact hspells.read
  refine ⟨pre, post, by rwa [htrim], ?_⟩
  unfold ofChars
  rw [htokenize, hmore]
  change (_ : Except Malformed Reading) >>= _ = _
  rw [hread]
  rfl

theorem exists_ofChars_of_keysClose (h : Path.ofChars? cs = some p)
    (hclose : KeysClose p.segments) : ∃ span, ofChars cs = .ok (.path span p) := by
  obtain ⟨_, _, -, hread⟩ := ofChars_of_keysClose h hclose
  exact ⟨_, hread⟩

theorem closes_of_ofChars? (h : Path.ofChars? cs = some p) {key : String}
    (hkey : .index key ∈ p.segments) : Segment.keyRule.Closes key.toList := by
  obtain ⟨_, _, _, front, segments, _, _, -, -, -, hparts, hfront, hreads, -⟩ :=
    tokenize_of_ofChars? h
  rw [hparts, List.mem_append] at hkey
  exact hreads.closes (hkey.resolve_left (hfront key))

theorem keysClose_of_ofChars {span : Span} (h : Path.ofChars? cs = some p)
    (hparse : ofChars cs = .ok (.path span p)) : KeysClose p.segments := by
  obtain ⟨pre, lexeme, kind, front, segments, tail, post, -, -, ⟨htokenize, hstep⟩, hparts, hfront,
    hreads, hpost⟩ := tokenize_of_ofChars? h
  unfold ofChars at hparse
  rw [htokenize] at hparse
  obtain ⟨tokens, htokens, hparse⟩ := bind_eq_ok.1 hparse
  obtain ⟨more, hmore, rfl⟩ := map_eq_ok.1 htokens
  obtain ⟨r, hr, hfinish⟩ := bind_eq_ok.1 hparse
  rw [List.foldlM_cons, hstep] at hr
  by_cases hclose : KeysClose segments
  · rw [hparts, keysClose_append]
    exact ⟨fun key hkey => absurd hkey (hfront key), hclose⟩
  · obtain ⟨wrong, hbegun, hwrong⟩ := (strays_of_reads hreads hclose hpost hmore).begun hr
    rw [← hparts] at hwrong
    exact absurd (hbegun.finish hfinish) hwrong

end

end Expr

namespace ScopeStack

variable {s : ScopeStack} {o : Options} {text : String} {span : Span} {p : Path}

theorem functionProblems_path : functionProblems o (.path span p) = [] := by
  unfold functionProblems
  split <;> rfl

/-- Inference cannot help a path that is read as itself. -/
theorem checkPath_of_resolve_eq_error {e : ResolveError}
    (hparse : Expr.parse text = .ok (.path span p)) (h : s.resolve p = .error e) :
    s.checkPath o text p = (none, [s.pathProblem p e]) := by
  have hinfer : (Expr.inferText s.env o.funcs text).toOption = none := by
    unfold Expr.inferText Expr.infer
    rw [hparse]
    dsimp only
    rw [Expr.typeIn, Env.operand_eq_error.2 (Env.resolve_eq_error.1 h)]
    rfl
  unfold checkPath
  rw [h]
  simp only [hinfer, ite_self]

theorem checkPath_eq_checkExpr (hparse : Expr.parse text = .ok (.path span p)) :
    (s.checkPath o text p).2 = (s.checkExpr o text).2 ∧
    (s.checkPath o text p).1.map (fun ref => (ref.type s.root).withName "") =
      (s.checkExpr o text).1.map (fun ref => (ref.type s.root).withName "") := by
  cases hresolve : s.resolve p with
  | ok ref =>
    have hpaths : ∀ q ∈ (Expr.path span p).paths, s.env.Resolves q.1 := by
      simpa using ⟨ref, hresolve⟩
    have hinfer : (Expr.path span p).infer s.env o.funcs =
        .ok (.ofNode (ref.type s.root)) := by
      rw [Expr.infer_eq_ok]
      refine ⟨_, ?_, rfl⟩
      rw [Expr.typeIn, Env.operand_eq_ok]
      exact map_eq_ok.2 ⟨ref, hresolve, rfl⟩
    rw [checkPath_of_resolve_eq_ok hresolve, checkExpr_of_infer_eq_ok hparse hpaths hinfer,
      functionProblems_path]
    exact ⟨rfl, rfl⟩
  | error e =>
    have hpaths : ¬∀ q ∈ (Expr.path span p).paths, s.env.Resolves q.1 := by
      intro h
      obtain ⟨ref, hok⟩ := h (p, span) (by simp)
      cases hok.symm.trans hresolve
    have hproblems : s.pathProblems (.path span p) = [s.pathProblem p e] := by
      simp [pathProblems, hresolve]
    rw [checkPath_of_resolve_eq_error hparse hresolve, checkExpr_of_not_resolves hparse hpaths,
      functionProblems_path, hproblems]
    exact ⟨rfl, rfl⟩

/-- A text that is a path is read as the expression that is that path exactly if each of its keys
ends where quotes are over, as the reader of expressions sees them; so it is without single quotes
and backslashes. Then it does not matter for the check whether the path was found beforehand. -/
theorem fast_path_exact_iff_keys_close (s : ScopeStack) (o : Options) {text : String} {p : Path}
    (hp : Path.ofString? text = some p) :
    ((∃ span, Expr.parse text = .ok (.path span p)) ↔
      ∀ key, .index key ∈ p.segments →
        cutBracket? Expr.indexRule .outside (key.toList ++ [']']) = some (key.toList, [])) ∧
    ((∃ span, Expr.parse text = .ok (.path span p)) →
      let fast := s.checkPipeline o text (some p)
      let full := s.checkPipeline o text none
      fast.2 = full.2 ∧
        fast.1.map (fun ref => (ref.type s.root).withName "") =
          full.1.map (fun ref => (ref.type s.root).withName "")) ∧
    ((∀ key, .index key ∈ p.segments → '\'' ∉ key.toList ∧ '\\' ∉ key.toList) →
      ∃ span, Expr.parse text = .ok (.path span p)) := by
  refine ⟨⟨?_, ?_⟩, ?_, ?_⟩
  · rintro ⟨span, hparse⟩ key hkey
    exact cutBracket?_append Expr.proper_indexRule (Expr.keysClose_of_ofChars hp hparse key hkey) []
  · intro hcut
    apply Expr.exists_ofChars_of_keysClose hp
    intro key hkey
    exact foldlM_of_cutBracket? (hcut key hkey)
  · rintro ⟨span, hparse⟩
    exact checkPath_eq_checkExpr hparse
  · intro hplain
    apply Expr.exists_ofChars_of_keysClose hp
    intro key hkey
    exact Expr.closes_of_plain (Expr.closes_of_ofChars? hp hkey) (hplain key hkey).1
      (hplain key hkey).2

theorem fast_path_exact_iff_keys_close_of_quoted :
    let s := start (.root [.map "M" (.scalar "" "string") (.scalar "" "int")])
    let text := " .M[ \"k]\" ] "
    let p : Path := ⟨.dot, [.field "M", .index "\"k]\""]⟩
    Path.ofString? text = some p ∧ (∃ span, Expr.parse text = .ok (.path span p)) ∧
      (s.checkPipeline {} text (some p)).2 = (s.checkPipeline {} text none).2 := by
  intro s text p
  have hp : Path.ofString? text = some p := by decide +kernel
  obtain ⟨-, hagree, hplain⟩ := fast_path_exact_iff_keys_close s {} hp
  have hparse := hplain (by simp [p])
  exact ⟨hp, hparse, (hagree hparse).1⟩

/-- A single quote opens a quoted key in an expression, but not in a path. The scan of a template
takes the text for a path of four segments, and its check gives another type than that of the
expression, which is an element of the map. -/
theorem single_quote_hides_bracket :
    let row : TypeNode := .structure_ "" "Row" [.map "N" (.scalar "" "string") (.scalar "" "int")]
    let s := start (.root [.map "M" (.scalar "" "string") row])
    let text := ".M['].N[']"
    let p : Path := ⟨.dot, [.field "M", .index "'", .field "N", .index "'"]⟩
    let type (r : Option TypeRef × List Problem) := r.1.map fun ref => (ref.type s.root).label
    (Template.parse {} (Delimiters.wrap {} text)).nodes.map Node.body =
        [.action ⟨text, none, some p, false, false⟩] ∧
      Path.ofString? text = some p ∧
      (Expr.parse text).toOption.bind Expr.asPath? = some ⟨.dot, [.field "M", .index "'].N['"]⟩ ∧
      type (s.checkPipeline {} text (some p)) = some "int" ∧
      type (s.checkPipeline {} text none) = some "Row" := by
  intro row s text p type
  refine ⟨?_, ?_, ?_, ?_, ?_⟩ <;> decide +kernel

end ScopeStack
end TemplateLint
