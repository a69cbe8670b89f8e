import Descent.Grammar.Basic
import Descent.Text.Charset

/-! Blank space and identifiers. -/

namespace Descent.Literal

open Grammar

def whitespace : Grammar := .skip (.many (.oneOf Charset.whitespace))

def someWhitespace : Grammar := .skip (oneOrMore (.oneOf Charset.whitespace))

def identifier : Grammar :=
  joined (.sequence
    [.oneOf (Text.concat [Charset.alphabetic, "_"]),
      .many (.oneOf (Text.concat [Charset.alphanumeric, "_"]))])

end Descent.Literal
