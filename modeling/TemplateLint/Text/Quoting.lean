/-! Scanning over quoted stretches of text. -/
namespace TemplateLint.Text

inductive Quoting where
  | outside
  | inside (quote : Char)
  | escaped (quote : Char)
deriving DecidableEq, Repr

/-- Which characters open a quoted key, and in which quotes a backslash escapes. -/
structure BracketRule where
  isQuote : Char → Bool
  hasEscapes : Char → Bool

def cutBracket? (rule : BracketRule) : Quoting → List Char → Option (List Char × List Char)
  | _, [] => none
  | .outside, c :: cs =>
    if rule.isQuote c then
      (cutBracket? rule (.inside c) cs).map fun parts => (c :: parts.1, parts.2)
    else if c = ']' then some ([], cs)
    else (cutBracket? rule .outside cs).map fun parts => (c :: parts.1, parts.2)
  | .inside q, c :: cs =>
    if c = '\\' ∧ rule.hasEscapes q then
      (cutBracket? rule (.escaped q) cs).map fun parts => (c :: parts.1, parts.2)
    else if c = q then (cutBracket? rule .outside cs).map fun parts => (c :: parts.1, parts.2)
    else (cutBracket? rule (.inside q) cs).map fun parts => (c :: parts.1, parts.2)
  | .escaped q, c :: cs =>
    (cutBracket? rule (.inside q) cs).map fun parts => (c :: parts.1, parts.2)

theorem eq_of_cutBracket? {rule : BracketRule} {q : Quoting} {cs key rest : List Char}
    (h : cutBracket? rule q cs = some (key, rest)) : cs = key ++ ']' :: rest := by
  induction cs generalizing q key with
  | nil => simp [cutBracket?] at h
  | cons c cs ih =>
    have step {q' : Quoting}
        (h : (cutBracket? rule q' cs).map (fun parts => (c :: parts.1, parts.2)) =
          some (key, rest)) : c :: cs = key ++ ']' :: rest := by
      obtain ⟨parts, hp, he⟩ := Option.map_eq_some_iff.1 h
      cases he
      simp [ih hp]
    cases q with
    | outside =>
      simp only [cutBracket?] at h
      split at h
      · exact step h
      · split at h
        · next hc => cases h; simp [hc]
        · exact step h
    | inside q =>
      simp only [cutBracket?] at h
      repeat' split at h
      all_goals exact step h
    | escaped q => exact step h

end TemplateLint.Text
