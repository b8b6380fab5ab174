import TemplateLint.Document

/-! What a reader looks at. A document may say more than its reader asks for: members that nobody
asks for are passed over with all that is in them. -/
namespace TemplateLint

/-- What is expected at the places of a document. -/
structure Schema (ι : Type) where
  start : ι
  /-- What is expected of a member; `none` if it is passed over. -/
  member? : ι → String → Option ι
  item : ι → Nat → ι

namespace Document

variable {ι : Type}

/-- How many lists and records lie inside each other at most, in what is looked at. -/
def levels (s : Schema ι) (place : ι) : Document → Nat
  | list items => 1 + ofItems 0 items
  | record members => 1 + ofMembers members
  | _ => 0
where
  ofItems (n : Nat) : List Document → Nat
    | [] => 0
    | item :: items => max (levels s (s.item place n) item) (ofItems (n + 1) items)
  ofMembers : List (String × Document) → Nat
    | [] => 0
    | (key, value) :: members =>
      max ((s.member? place key).elim 0 fun next => levels s next value) (ofMembers members)

end Document
end TemplateLint
