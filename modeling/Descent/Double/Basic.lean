import Descent.Numeral

/-! Binary64 numbers other than NaNs, and the one nearest to a decimal fraction. -/

namespace Descent

/-- The absolute values, from zero to infinity, are numbered in ascending order by `rank`. -/
structure Double where
  negative : Bool
  rank : Nat
  deriving DecidableEq

namespace Double

def infinityRank : Nat := 0x7FF * Nat.pow 2 52

/-- The absolute value of the double of a rank in units of the least positive one. The value of
`infinityRank` is the power of two that would come next. -/
def units (rank : Nat) : Nat :=
  let binade := Nat.pow 2 52
  if rank < binade then rank
  else (binade + rank % binade) * Nat.pow 2 (rank / binade - 1)

def unitBits : Nat := 1074

/-- The whole number nearest to a quotient, and the even one of two that are as near. -/
def roundQuotient (numerator denominator : Nat) : Nat :=
  let floor := numerator / denominator
  let double := 2 * (numerator % denominator)
  if double < denominator ∨ (double = denominator ∧ floor % 2 = 0) then floor else floor + 1

/-- A quotient of more than 53 bits loses the low ones, and what rounding carries out of the
others raises the exponent by itself. -/
def nearestRank (numerator denominator : Nat) : Nat :=
  let scaled := numerator * Nat.pow 2 unitBits
  let dropped := (scaled / denominator).log2 - 52
  min infinityRank
    (dropped * Nat.pow 2 52 + roundQuotient scaled (denominator * Nat.pow 2 dropped))

def ofDecimal (negative : Bool) (digits : Nat) (exponent : Int) : Double :=
  let magnitude := (Numeral.write 10 digits).length + exponent
  let rank :=
    -- Powers far outside the range are not computed.
    if digits = 0 ∨ magnitude < -400 then 0
    else if 400 < magnitude then infinityRank
    else if 0 ≤ exponent then nearestRank (digits * Nat.pow 10 exponent.toNat) 1
    else nearestRank digits (Nat.pow 10 (-exponent).toNat)
  { negative, rank }

def bits (x : Double) : Nat := (if x.negative then Nat.pow 2 63 else 0) + x.rank

def same (x y : Double) : Bool :=
  x.rank == y.rank && (x.negative == y.negative || x.rank == 0)

def toInt? (x : Double) : Option Int :=
  if x.rank < infinityRank ∧ units x.rank % Nat.pow 2 unitBits = 0 then
    let size : Int := units x.rank / Nat.pow 2 unitBits
    some (if x.negative then -size else size)
  else none

end Double

end Descent
