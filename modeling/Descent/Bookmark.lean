import Descent.Cursor
import Descent.Numeral
import Descent.Text.Quoted

/-! Positions that may lie on either side of a text. -/

namespace Descent

structure Bookmark where
  body : Body
  position : Int

namespace Bookmark

def ofCursor (c : Cursor) : Bookmark := { body := c.body, position := c.position }

def cursor? (b : Bookmark) : Option Cursor :=
  if b.position < 0 then none else some (b.body.cursor b.position.toNat)

def current? (b : Bookmark) : Option CodePoint := b.body.at? b.position

def ended (b : Bookmark) : Bool := (b.body.length : Int) ≤ b.position

def advanceBy (b : Bookmark) (n : Int) : Bookmark := { b with position := b.position + n }

def currentText (b : Bookmark) : Text := b.current?.toList

def toText (b : Bookmark) : Text :=
  Text.concat [b.body.name, ": ", Text.ofInt b.position, " [", b.currentText, "]"]

def render (b : Bookmark) : Text :=
  Text.concat ["<State ", Text.ofInt b.position, " ", Text.quoted b.currentText, ">"]

end Bookmark

end Descent
