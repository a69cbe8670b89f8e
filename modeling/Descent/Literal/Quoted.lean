import Descent.Literal.Number

/-! Texts between quotes, with escapes. -/

namespace Descent

abbrev Escapes := List (CodePoint × Text)

namespace Escapes

def standard : Escapes :=
  [('b', "\x08"), ('f', "\x0c"), ('n', "\n"), ('r', "\x0d"), ('t', "\t")]

def meaning (escapes : Escapes) (c : CodePoint) : Text := (escapes.lookup c).getD [c]

def apply (escapes : Escapes) : Payload → Except Fault Payload
  | .text [c] => .ok (.text (escapes.meaning c))
  | .text t => .ok (.text t)
  | _ => .error .wrongKind

end Escapes

/-- The code point of a hexadecimal number, which may be a surrogate. -/
def Payload.codePoint : Payload → Except Fault Payload
  | text t =>
    match Numeral.read? 16 t with
    | some n =>
      match CodePoint.ofNat? n with
      | some c => .ok (text [c])
      | none => .error .notCodePoint
    | none => .error .notNumeral
  | _ => .error .wrongKind

namespace Literal

open Grammar

def hexDigit : Grammar := .oneOf Charset.hexadecimal

def unicodeEscape : Grammar :=
  .map Payload.codePoint
    (joined (.sequence [.skip "u", hexDigit, hexDigit, hexDigit, hexDigit]))

structure QuoteStyle where
  quote : Text := "\x22"
  escape : Text := "\x5c"
  escapes : Escapes := .standard

def escaped (style : QuoteStyle) : Grammar :=
  .sequence [.skip (.word style.escape), firstOf [unicodeEscape, .map style.escapes.apply any]]

def quotedContent (style : QuoteStyle) : Grammar :=
  joined (.many (firstOf [escaped style, .noneOf (style.quote ++ style.escape)]))

def quotedText (style : QuoteStyle) : Grammar :=
  head (.sequence [.skip (.word style.quote), quotedContent style, .skip (.word style.quote)])

end Literal

end Descent
