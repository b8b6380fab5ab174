/-! JSON values. -/
namespace TemplateLint

inductive Json where
  | null
  | bool (b : Bool)
  | number (literal : String)
  | string (text : String)
  | array (items : List Json)
  /-- The members in their order; a key may come more than once. -/
  | object (members : List (String × Json))
  /-- A string, or an object with a key, that spells half of a surrogate pair. It is well-formed
  and stands for no value. -/
  | unreadable
deriving Repr, Inhabited

namespace Json

def nat (n : Nat) : Json := number (toString n)

def int (n : Int) : Json := number (toString n)

def get? (key : String) : Json → Option Json
  | object members => members.lookup key
  | _ => none

def toNat? : Json → Option Nat
  | number literal =>
    if literal.toList.all Char.isDigit then
      some (literal.toList.foldl (fun n c => n * 10 + (c.toNat - '0'.toNat)) 0)
    else none
  | _ => none

def toBool? : Json → Option Bool
  | bool b => some b
  | _ => none

def toString? : Json → Option String
  | string text => some text
  | _ => none

def toArray? : Json → Option (List Json)
  | array items => some items
  | _ => none

end Json
end TemplateLint
