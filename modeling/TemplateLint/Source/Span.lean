/-! Byte ranges of a source text. -/
namespace TemplateLint

/-- The bytes from `start` up to, not including, `stop`. -/
structure Span where
  start : Nat
  stop : Nat
deriving DecidableEq, Repr, Inhabited

namespace Span

/-- The end counts as inside, so that a cursor right after the last character still hits. -/
def contains (s : Span) (offset : Nat) : Bool := s.start ≤ offset && offset ≤ s.stop

end Span
end TemplateLint
