import TemplateLint.Path.Basic
import TemplateLint.Text.Basic
import TemplateLint.Text.Quoting

/-! Reading a text that is one path and nothing else. -/
namespace TemplateLint
open Text

namespace Segment

/-- Keys may be quoted in two ways, and a backslash escapes in both. -/
def keyRule : BracketRule where
  isQuote c := c == '"' || c == '`'
  hasEscapes _ := true

/-- One segment at the front of the text, and what follows it. Blanks around a key do not count,
and neither a name nor a key may be empty. -/
def read? : List Char → Option (Segment × List Char)
  | '.' :: cs =>
    let (name, rest) := takeName cs
    if name = [] then none else some (.field (String.ofList name), rest)
  | '[' :: cs => do
    let (key, rest) ← cutBracket? keyRule .outside cs
    if trim key = [] then none else some (.index (String.ofList (trim key)), rest)
  | _ => none

theorem length_lt_of_read? {cs rest : List Char} {s : Segment} (h : read? cs = some (s, rest)) :
    rest.length < cs.length := by
  unfold read? at h
  split at h
  · next cs =>
    have hn := congrArg List.length (takeName_append cs)
    simp only [List.length_append] at hn
    dsimp only at h
    split at h
    · simp at h
    · cases h; simp; omega
  · next cs =>
    obtain ⟨parts, hk, h⟩ := Option.bind_eq_some_iff.1 h
    have hn := congrArg List.length (eq_of_cutBracket? hk)
    simp only [List.length_append, List.length_cons] at hn
    dsimp only at h
    split at h
    · simp at h
    · cases h; simp; omega
  · simp at h

def readAll? (cs : List Char) : Option (List Segment) :=
  if cs = [] then some [] else
  match _h : read? cs with
  | none => none
  | some (s, rest) => (readAll? rest).map (s :: ·)
termination_by cs.length
decreasing_by exact length_lt_of_read? _h

end Segment

namespace Path

/-- The path that the text is, blanks around it apart; `none` for a call, a literal and the like. -/
def ofChars? (cs : List Char) : Option Path :=
  match trim cs with
  | ['.'] => some dot
  | '.' :: rest => (Segment.readAll? ('.' :: rest)).map (⟨.dot, ·⟩)
  | '$' :: rest =>
    let (name, tail) := takeName rest
    let base := if name = [] then .root else .var (String.ofList name)
    (Segment.readAll? tail).map (⟨base, ·⟩)
  | _ => none

def ofString? (text : String) : Option Path := ofChars? text.toList

end Path
end TemplateLint
