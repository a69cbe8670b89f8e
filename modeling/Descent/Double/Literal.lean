import Descent.Double.Basic

/-! Decimal literals of doubles. -/

namespace Descent.Double

structure Literal where
  negative : Bool
  whole : Text
  fraction : Text
  exponent : Int

namespace Literal

def sign : Text → Bool × Text
  | [] => (false, [])
  | c :: rest =>
    if c = '-' then (true, rest) else if c = '+' then (false, rest) else (false, c :: rest)

def exponent? : Text → Option Int
  | [] => some 0
  | c :: rest =>
    if c = 'e' ∨ c = 'E' then
      let (negative, digits) := sign rest
      (Numeral.read? 10 digits).map fun n => if negative then -n else n
    else none

def read? (t : Text) : Option Literal :=
  let (negative, t) := sign t
  let whole := t.takeWhile CodePoint.isDigit
  let t := t.dropWhile CodePoint.isDigit
  let (fraction, t) :=
    match t with
    | c :: rest =>
      if c = '.' then (rest.takeWhile CodePoint.isDigit, rest.dropWhile CodePoint.isDigit)
      else ([], t)
    | [] => ([], [])
  if whole.isEmpty && fraction.isEmpty then none
  else (exponent? t).map fun exponent => { negative, whole, fraction, exponent }

def value? (literal : Literal) : Option Double :=
  (Numeral.read? 10 (literal.whole ++ literal.fraction)).map fun digits =>
    ofDecimal literal.negative digits (literal.exponent - literal.fraction.length)

end Literal

def read? (t : Text) : Option Double := (Literal.read? t).bind Literal.value?

end Descent.Double
