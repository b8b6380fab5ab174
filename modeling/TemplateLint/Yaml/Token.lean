/-! The tokens of a YAML stream. -/
namespace TemplateLint.Yaml

inductive Style where
  | plain
  | singleQuoted
  | doubleQuoted
  | literal
  | folded
deriving DecidableEq, Repr

/-- The text of a tag. An escape may spell bytes that are no character; these are `none`. -/
abbrev TagText := List (Option Char)

inductive Token where
  | version (major minor : Nat)
  | tagHandle (handle : String) (stem : TagText)
  | documentStart
  | documentEnd
  | blockSequenceStart
  | blockMappingStart
  | blockEnd
  | flowSequenceStart
  | flowSequenceEnd
  | flowMappingStart
  | flowMappingEnd
  | blockEntry
  | flowEntry
  | key
  | value
  | reference (name : String)
  | anchor (name : String)
  | tag (handle : String) (suffix : TagText)
  | scalar (style : Style) (text : String)
deriving DecidableEq, Repr

end TemplateLint.Yaml
