import DeckLegality.Text.Decimal

/-!
# Numbers as JSON writes them

A `Numeral` keeps a number digit by digit, so that nothing is rounded.  Where a whole number is asked for, only
digits count: `1.0`, `1e0` and `-0` are not whole numbers.  Where any number will do, it has to be finite in double
precision in the way in which it is computed (`Numeral.isFinite`): the leading digits, as many as fit into 64 bits, and
the power of ten that is left over are rounded first and multiplied then.  So a number close to the end of the range
may be refused although it lies within it, as `1.7976931348623157081e308` does.
-/

namespace DeckLegality

open Text (digitsValue maxSize)

/-- A number as it is written. -/
structure Numeral where
  /-- Whether a minus sign stands in front. -/
  negative : Bool := false
  /-- The digits before the point. -/
  whole : List Char
  /-- The digits after the point, if there is one. -/
  fraction : List Char := []
  /-- The digits of the exponent, if there is one, and whether a minus sign stands in front of them. -/
  exponent : Option (Bool × List Char) := none
  deriving DecidableEq

namespace Numeral

/-- The numeral of a natural number. -/
def ofNat (n : Nat) : Numeral := { whole := Nat.toDigits 10 n }

/-- The natural number that the numeral writes out in digits alone. -/
def nat? (n : Numeral) : Option Nat :=
  if n.negative || !n.fraction.isEmpty || n.exponent.isSome then none else some (digitsValue n.whole)

/-! ## Finite numbers -/

/-- The leading digits of a numeral as one number, and the power of ten to multiply it with. -/
structure Gauge where
  lead : Nat := 0
  power : Int := 0
  full : Bool := false

/-- Takes a digit before the point.  Once the lead is full, a digit only raises the power. -/
def Gauge.whole (g : Gauge) (d : Char) : Gauge :=
  let next := digitsValue [d] + 10 * g.lead
  if !g.full && next ≤ maxSize then { g with lead := next }
  else { g with power := g.power + 1, full := true }

/-- Takes a digit after the point.  Once the lead is full, a digit changes nothing. -/
def Gauge.fraction (g : Gauge) (d : Char) : Gauge :=
  let next := digitsValue [d] + 10 * g.lead
  if !g.full && next ≤ maxSize then { g with lead := next, power := g.power - 1 }
  else { g with full := true }

/-- The gauge of a numeral. -/
def gauge (n : Numeral) : Gauge :=
  let g := n.whole.foldl Gauge.whole {}
  let g := n.fraction.foldl Gauge.fraction { g with full := false }
  match n.exponent with
  | none => g
  | some (true, digits) => { g with power := g.power - digitsValue digits }
  | some (false, digits) => { g with power := g.power + digitsValue digits }

/-- The nearest number with at most 53 significant binary digits; of two equally near ones the one whose last
digit is even. -/
def roundTo53 (n : Nat) : Nat :=
  if n < 1 <<< 53 then n
  else
    let shift := n.log2 - 52
    let unit := 1 <<< shift
    let quotient := n >>> shift
    let twice := 2 * (n % unit)
    let up := unit < twice || (twice == unit && quotient % 2 == 1)
    (if up then quotient + 1 else quotient) <<< shift

/-- Whether the numeral is finite as it is computed: the product of its lead and its power of ten, each rounded to 53
binary digits first, does not round to 2¹⁰²⁴.  With a negative power there is nothing to fear, and a positive power
above 308 is refused unless the lead is zero. -/
def isFinite (n : Numeral) : Bool :=
  let g := n.gauge
  g.lead == 0 || g.power < 0 ||
    (g.power ≤ 308 && roundTo53 g.lead * roundTo53 (Nat.pow 10 g.power.toNat) < ((1 <<< 54) - 1) <<< 970)

end Numeral

end DeckLegality
