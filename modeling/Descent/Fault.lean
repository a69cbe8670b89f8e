import Descent.Text.Basic

/-! Why a run stops without a result. -/

namespace Descent

inductive Fault where
  /-- A payload is not of a kind that the operation takes. -/
  | wrongKind
  | noElement
  /-- A text is no numeral of the base, or it has too many digits. -/
  | notNumeral
  | notCodePoint
  | undefined (name : String)
  /-- All of no parsers have to match. -/
  | noParser
  deriving DecidableEq, Inhabited

def Fault.message : Fault → Text
  | .wrongKind => "The payload has the wrong kind."
  | .noElement => "There is no first element."
  | .notNumeral => "The text is not a numeral."
  | .notCodePoint => "The number is not a code point."
  | .undefined name => Text.concat ["Nothing is defined as ", Text.ofString name, "."]
  | .noParser => "At least one parser required."

end Descent
