import Descent.Numeral
import Descent.Text.Printable

/-! A text between quotes, with escapes for what cannot stand there as it is. -/

namespace Descent.Text.Quoted

def apostrophe : CodePoint := '\x27'

def doubleQuote : CodePoint := '\x22'

def backslash : CodePoint := '\x5c'

/-- Apostrophes enclose the text unless it holds one and no double quote. -/
def quoteFor (t : Text) : CodePoint :=
  if apostrophe ∈ t ∧ doubleQuote ∉ t then doubleQuote else apostrophe

def byNumber (c : CodePoint) : Text :=
  if c.value < 0x100 then backslash :: 'x' :: Numeral.writePadded 16 2 c.value
  else if c.value < 0x10000 then backslash :: 'u' :: Numeral.writePadded 16 4 c.value
  else backslash :: 'U' :: Numeral.writePadded 16 8 c.value

def escape (quote c : CodePoint) : Text :=
  if c = quote ∨ c = backslash then [backslash, c]
  else if c = '\t' then [backslash, 't']
  else if c = '\n' then [backslash, 'n']
  else if c = '\x0d' then [backslash, 'r']
  else if c.isPrintable then [c]
  else byNumber c

end Quoted

def quoted (t : Text) : Text :=
  let quote := Quoted.quoteFor t
  quote :: t.flatMap (Quoted.escape quote) ++ [quote]

end Descent.Text
