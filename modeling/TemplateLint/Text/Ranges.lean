/-! Character classes given as tables of code point ranges. -/
namespace TemplateLint.Text

def inRanges (table : List (Nat × Nat)) (c : Char) : Bool :=
  table.any fun range => range.1 ≤ c.toNat && c.toNat ≤ range.2

end TemplateLint.Text
