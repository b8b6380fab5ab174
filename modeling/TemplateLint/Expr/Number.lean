import TemplateLint.Decimal.Shortest

/-! The value of a number literal: integers in five notations, decimal and hexadecimal fractions,
imaginary numbers. Underscores may stand anywhere between the digits. -/
namespace TemplateLint.Number

inductive Value where
  | int (v : Int)
  | float (v : Float)
  | imaginary (v : Float)
deriving Repr

def digitValue? (radix : Nat) (c : Char) : Option Nat :=
  let v :=
    if c.isDigit then c.toNat - '0'.toNat
    else if 'a' ≤ c ∧ c ≤ 'z' then c.toNat - 'a'.toNat + 10
    else radix
  if v < radix then some v else none

def natural? (radix : Nat) (digits : List Char) : Option Nat :=
  if digits = [] then none
  else digits.foldlM (fun n c => (digitValue? radix c).map (n * radix + ·)) 0

/-- An integer fits in a signed 64-bit word; here its sign is still apart. -/
def integer? (radix : Nat) (digits : List Char) : Option Nat :=
  (natural? radix digits).filter (· < 1 <<< 63)

/-- A leading zero makes an integer octal. -/
def int? : List Char → Option Nat
  | '0' :: 'x' :: digits => integer? 16 digits
  | '0' :: 'o' :: digits => integer? 8 digits
  | '0' :: 'b' :: digits => integer? 2 digits
  | '0' :: d :: digits => if (d :: digits).all Char.isDigit then integer? 8 (d :: digits) else none
  | digits => integer? 10 digits

def exponent? : List Char → Option Int
  | '-' :: digits => (natural? 10 digits).map fun n => -(n : Int)
  | '+' :: digits => (natural? 10 digits).map Int.ofNat
  | digits => (natural? 10 digits).map Int.ofNat

def splitFirst (p : Char → Bool) (cs : List Char) : List Char × Option (List Char) :=
  match cs.dropWhile (!p ·) with
  | [] => (cs, none)
  | _ :: rest => (cs.takeWhile (!p ·), some rest)

/-- `mantissa · 10 ^ exponent`, rounded to nearest. Exponents far out of range are not expanded. -/
def ofDecimal (mantissa : Nat) (exponent : Int) : Float :=
  let magnitude := exponent + (Nat.toDigits 10 mantissa).length
  if mantissa = 0 ∨ magnitude < -400 then 0.0
  else if 400 < magnitude then 1.0 / 0.0
  else Float.ofScientific mantissa (exponent < 0) exponent.natAbs

def decimal? (cs : List Char) : Option Float := do
  let (mantissa, exponent) := splitFirst (· == 'e') cs
  let (whole, fraction) := splitFirst (· == '.') mantissa
  let fraction := fraction.getD []
  let exponent ← match exponent with
    | some e => exponent? e
    | none => some 0
  return ofDecimal (← natural? 10 (whole ++ fraction)) (exponent - fraction.length)

/-- A power of two; one with a negative exponent is the reciprocal of its positive counterpart. -/
def powerOfTwo (exponent : Int) : Float :=
  let power := if exponent.natAbs < 1024 then Float.ofNat (1 <<< exponent.natAbs) else 1.0 / 0.0
  if exponent < 0 then 1.0 / power else power

/-- A hexadecimal fraction: its binary exponent, a 32-bit number, cannot be left out. The digits
are added up from left to right in floating point. -/
def hexFraction? (cs : List Char) : Option Float := do
  let (mantissa, exponent) := splitFirst (· == 'p') cs
  let exponent ← exponent? (← exponent)
  if exponent < -0x80000000 ∨ 0x80000000 ≤ exponent then none
  let (whole, fraction) := splitFirst (· == '.') mantissa
  let fraction := fraction.getD []
  if whole = [] ∧ fraction = [] then none
  let digits (cs : List Char) := cs.mapM (digitValue? 16)
  let value := (← digits whole).foldl (fun v d => v * 16.0 + Float.ofNat d) 0.0
  let (value, _) := (← digits fraction).foldl
    (fun (v, scale) d => (v + Float.ofNat d * scale, scale / 16.0)) (value, 1.0 / 16.0)
  return value * powerOfTwo exponent

def fraction? : List Char → Option Float
  | '0' :: 'x' :: cs => hexFraction? cs
  | cs => decimal? cs

/-- The factor of an imaginary number. Its digits alone are decimal even after a leading zero. -/
def imaginaryPart? (cs : List Char) : Option Float :=
  if cs ≠ [] ∧ cs.all Char.isDigit then decimal? cs
  else match int? cs with
    | some n => some (Float.ofNat n)
    | none => fraction? cs

def unsigned? (cs : List Char) : Option Value :=
  match int? cs with
  | some n => some (.int n)
  | none =>
    if cs.getLast? = some 'i' then (imaginaryPart? cs.dropLast).map .imaginary
    else (fraction? cs).map .float

def Value.neg : Value → Value
  | .int v => .int (-v)
  | .float v => .float (-v)
  | .imaginary v => .imaginary (-v)

def value? (literal : List Char) : Option Value :=
  match (literal.filter (· != '_')).map Char.toLower with
  | '-' :: cs => (unsigned? cs).map Value.neg
  | '+' :: cs => unsigned? cs
  | cs => unsigned? cs

end TemplateLint.Number
