import Descent.Grammar.Basic
import Descent.Text.Charset
import Descent.Double.Literal

/-! Whole numbers in four bases, and numbers with a fraction or an exponent. -/

namespace Descent

namespace Payload

def numeral (limit : Option Nat) (base : Nat) : Payload → Except Fault Payload
  | text t =>
    match Numeral.readWithin? limit base t with
    | some n => .ok (integer n)
    | none => .error .notNumeral
  | _ => .error .wrongKind

def signed : Payload → Except Fault Payload
  | list [text sign, integer n] => .ok (integer (if sign = ("-" : Text) then -n else n))
  | _ => .error .wrongKind

def decimal : Payload → Except Fault Payload
  | text t =>
    match Double.read? t with
    | some x => .ok (double x)
    | none => .error .notNumeral
  | _ => .error .wrongKind

end Payload

namespace Literal

open Grammar

def digits : Grammar := joined (oneOrMore (.oneOf Charset.decimal))

def sign : Grammar := .oneOf "+-"

def marked (limit : Option Nat) (mark : String) (digits : Text) (base : Nat) : Grammar :=
  .map (Payload.numeral limit base)
    (joined (.sequence
      [.skip (.wordIgnoringCase (Text.ofString mark)), oneOrMore (.oneOf digits)]))

/-- Without a mark the base is ten, and without a sign the number is not negative. -/
def integerWithin (limit : Option Nat) : Grammar :=
  .map Payload.signed (.sequence
    [optionalOr (.text "+") sign,
      firstOf
        [marked limit "0x" Charset.hexadecimal 16,
          marked limit "0o" Charset.octal 8,
          marked limit "0b" Charset.binary 2,
          .map (Payload.numeral limit 10) digits]])

def integer : Grammar := integerWithin (some Numeral.defaultLimit)

def exponent : Grammar := .sequence [.oneOf "eE", optional sign, digits]

def fraction : Grammar :=
  firstOf [.sequence [digits, ".", optional digits], .sequence [".", digits]]

def floatText : Grammar :=
  joined (.sequence
    [optional sign,
      firstOf [.sequence [fraction, optional exponent], .sequence [digits, exponent]]])

def float : Grammar := .map Payload.decimal floatText

end Literal

end Descent
