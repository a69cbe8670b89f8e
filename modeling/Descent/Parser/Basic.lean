import Descent.Outcome
import Descent.Result
import Descent.Text.LowerCase

/-! Parsers, and those that match a piece of text by themselves. -/

namespace Descent

/-- How an attempt ends, and where it leaves the cursor that it was lent. -/
structure Reply where
  outcome : Outcome Result
  lent : Cursor

abbrev Parser := Cursor → Reply

namespace Reply

def consume (value : Payload) (c : Cursor) (n : Nat) : Reply :=
  let after := c.advanceBy n
  { outcome := .done (.success (.just value) after c.position), lent := after }

def refuse (c : Cursor) : Reply := { outcome := .done (.failureAt c), lent := c }

end Reply

namespace Parser

def character (accepts : CodePoint → Bool) : Parser := fun c =>
  match c.rest with
  | x :: _ => if accepts x then .consume (.text [x]) c 1 else .refuse c
  | [] => .refuse c

def oneOf (set : Text) : Parser := character (· ∈ set)

def noneOf (set : Text) : Parser := character (· ∉ set)

def any : Parser := noneOf []

/-- The empty word matches everywhere but past the end. -/
def word (w : Text) : Parser := fun c =>
  if c.rest.startsWith w && (!w.isEmpty || c.inBody) then .consume (.text w) c w.length
  else .refuse c

/-- Compares small letters, over as many characters as the word has before it is put into them. -/
def wordIgnoringCase (w : Text) : Parser := fun c =>
  let piece := c.rest.take w.length
  let small := Text.lower w
  if piece.length = w.length ∧ Text.lower piece = small then .consume (.text small) c w.length
  else .refuse c

def endOfText : Parser := fun c => if c.atEnd then .consume (.text []) c 0 else .refuse c

end Parser

end Descent
