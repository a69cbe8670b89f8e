import Descent.Text.Basic

/-! Whole numbers as digits of a base from two to sixteen. -/

namespace Descent

namespace Numeral

def digitValue? (c : CodePoint) : Option Nat :=
  if c.isDigit then some (c.value - 0x30)
  else if c.between 'a' 'f' then some (c.value - 0x57)
  else if c.between 'A' 'F' then some (c.value - 0x37)
  else none

def push? (base : Nat) (value : Nat) (c : CodePoint) : Option Nat :=
  match digitValue? c with
  | some digit => if digit < base then some (value * base + digit) else none
  | none => none

def read? (base : Nat) (digits : Text) : Option Nat :=
  if digits.isEmpty then none else digits.foldlM (push? base) 0

def defaultLimit : Nat := 4300

/-- Reading takes quadratic time in a base that is no power of two, so there the number of digits
may be limited. -/
def readWithin? (limit : Option Nat) (base : Nat) (digits : Text) : Option Nat :=
  if base &&& (base - 1) = 0 ∨ ∀ most ∈ limit, digits.length ≤ most then read? base digits
  else none

def write (base n : Nat) : Text := (Nat.toDigits base n).map CodePoint.ofChar

def writePadded (base width n : Nat) : Text :=
  let digits := write base n
  List.replicate (width - digits.length) (CodePoint.ofChar '0') ++ digits

end Numeral

namespace Text

def ofNat (n : Nat) : Text := Numeral.write 10 n

def ofInt : Int → Text
  | .ofNat n => ofNat n
  | .negSucc n => '-' :: ofNat (n + 1)

end Text

end Descent
