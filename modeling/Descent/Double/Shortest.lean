import Descent.Double.Basic

/-! The fewest decimal digits that read back as the same double, and how they are laid out. -/

namespace Descent.Double

namespace Shortest

structure Decimal where
  digits : Nat
  exponent : Int

/-- Twice the value of a double and twice the midpoints to its neighbours, in units. What lies
between the midpoints is read as this double, and so are they if the rank is even. -/
structure Interval where
  low : Nat
  middle : Nat
  high : Nat
  closed : Bool

def interval (rank : Nat) : Interval :=
  { low := units (rank - 1) + units rank
    middle := 2 * units rank
    high := units rank + units (rank + 1)
    closed := rank % 2 = 0 }

def scale (exponent : Int) : Nat × Nat :=
  (Nat.pow 10 (-exponent).toNat, Nat.pow 2 (unitBits + 1) * Nat.pow 10 exponent.toNat)

def Interval.holds (i : Interval) (exponent : Int) (digits : Nat) : Bool :=
  let (factor, divisor) := scale exponent
  let point := digits * divisor
  if i.closed then i.low * factor ≤ point && point ≤ i.high * factor
  else i.low * factor < point && point < i.high * factor

/-- Of the two multiples of a power of ten around the value the nearer one that lies in the
interval, or the even one of two that are as near. -/
def Interval.onGrid? (i : Interval) (exponent : Int) : Option Nat :=
  let (factor, divisor) := scale exponent
  let below := i.middle * factor / divisor
  let nearest := roundQuotient (i.middle * factor) divisor
  [nearest, below, below + 1].find? (i.holds exponent)

/-- The exponent of the first decimal digit of a positive value. No double has it below -400. -/
def leading (i : Interval) : Int :=
  let scaled := i.middle * Nat.pow 10 400 / Nat.pow 2 (unitBits + 1)
  (Numeral.write 10 scaled).length - 401

/-- Coarse grids first. Seventeen digits are always enough. -/
def decimal (rank : Nat) : Decimal :=
  let i := interval rank
  let exponents := (List.range 17).map fun (extra : Nat) => leading i - extra
  match exponents.findSome? fun exponent => (i.onGrid? exponent).map (Decimal.mk · exponent) with
  | some found => found
  | none => { digits := 0, exponent := 0 }

/-- A number is written with a point among its digits if its leading digit stands for a power of
ten from `10 ^ least` up to, but not including, `10 ^ limit`. -/
structure Layout where
  least : Int
  limit : Int
  exponentWidth : Nat

def layout : Layout := { least := -4, limit := 16, exponentWidth := 2 }

def zero : CodePoint := '0'

def significant (digits : Nat) : Text :=
  ((Numeral.write 10 digits).reverse.dropWhile (· = zero)).reverse

def positional (digits : Text) (power : Int) : Text :=
  if power < 0 then
    Text.concat ["0.", List.replicate (-power - 1).toNat zero, digits]
  else
    let whole := power.toNat + 1
    let padded := digits ++ List.replicate (whole + 1 - digits.length) zero
    Text.concat [padded.take whole, ".", padded.drop whole]

def scientific (digits : Text) (power : Int) : Text :=
  let point : Text := if digits.length ≤ 1 then [] else "."
  let mark : Text := if power < 0 then "e-" else "e+"
  let exponent := Numeral.writePadded 10 layout.exponentWidth power.natAbs
  Text.concat [digits.take 1, point, digits.drop 1, mark, exponent]

def magnitude (rank : Nat) : Text :=
  if infinityRank ≤ rank then "inf"
  else if rank = 0 then "0.0"
  else
    let shortest := decimal rank
    let power := shortest.exponent + (Numeral.write 10 shortest.digits).length - 1
    let digits := significant shortest.digits
    if layout.least ≤ power ∧ power < layout.limit then positional digits power
    else scientific digits power

end Shortest

def write (x : Double) : Text :=
  if x.negative then '-' :: Shortest.magnitude x.rank else Shortest.magnitude x.rank

end Descent.Double
