/-! The shortest decimal of a binary floating-point number: of all decimals that round to the
number, one with the fewest digits, and of those the nearest. -/
namespace TemplateLint

structure Decimal where
  digits : Nat
  exponent : Int
deriving DecidableEq, Repr

/-- The number `mantissa · 2 ^ exponent` among its floating-point neighbours. -/
structure Binary where
  mantissa : Nat
  exponent : Int
  /-- Whether the neighbour below is only half as far as the one above. -/
  closeBelow : Bool
deriving DecidableEq, Repr

def Binary.ofFloat (x : Float) : Binary :=
  let bits := x.toBits.toNat
  let fraction := bits % (1 <<< 52)
  let field := bits >>> 52 % (1 <<< 11)
  if field = 0 then ⟨fraction, -1074, false⟩
  else ⟨fraction + 1 <<< 52, Int.ofNat field - 1075, fraction = 0 ∧ 1 < field⟩

namespace Decimal

/-- The multiple of `10 ^ exponent` nearest to `b` that rounds to `b`, if one does. The ends of the
interval that rounds to `b` belong to it if the mantissa is even. -/
def onGrid? (b : Binary) (exponent : Int) : Option Nat :=
  let unit := Nat.pow 10 exponent.toNat * Nat.pow 2 (2 - b.exponent).toNat
  let scale := Nat.pow 2 (b.exponent - 2).toNat * Nat.pow 10 (-exponent).toNat
  let centre := 4 * b.mantissa * scale
  let low := (4 * b.mantissa - if b.closeBelow then 1 else 2) * scale
  let high := (4 * b.mantissa + 2) * scale
  let inside (n : Nat) : Bool :=
    n ≠ 0 && if b.mantissa % 2 = 0 then low ≤ n * unit && n * unit ≤ high
      else low < n * unit && n * unit < high
  let below := centre / unit
  match inside below, inside (below + 1) with
  | true, true => some (if 2 * (centre - below * unit) < unit then below else below + 1)
  | true, false => some below
  | false, true => some (below + 1)
  | false, false => none

/-- The shortest decimal is the one on the coarsest grid. -/
def shortest (b : Binary) : Decimal :=
  let exponents := (List.range 700).map fun i => 310 - Int.ofNat i
  (exponents.findSome? fun e => (onGrid? b e).map (⟨·, e⟩)).getD ⟨0, 0⟩

def positional (d : Decimal) : String :=
  let digits := Nat.toDigits 10 d.digits
  if 0 ≤ d.exponent then
    String.ofList (digits ++ List.replicate d.exponent.toNat '0')
  else
    let places := d.exponent.natAbs
    let padded := List.replicate (places + 1 - digits.length) '0' ++ digits
    let whole := padded.length - places
    String.ofList (padded.take whole ++ '.' :: padded.drop whole)

end Decimal

/-- A number in full, never with an exponent: a whole number has no point, and a zero keeps its
sign. -/
def floatText (x : Float) : String :=
  if x.isNaN then "NaN" else
  let sign := if x.toBits.toNat < 1 <<< 63 then "" else "-"
  let b := Binary.ofFloat x
  if x.isInf then sign ++ "inf"
  else if b.mantissa = 0 then sign ++ "0"
  else sign ++ (Decimal.shortest b).positional

end TemplateLint
