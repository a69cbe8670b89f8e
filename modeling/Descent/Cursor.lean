import Descent.Text.Basic

/-! Bodies of text and cursors into them. -/

namespace Descent

structure Body where
  text : Text
  /-- Names the text in diagnostics. -/
  name : Text

namespace Body

def length (b : Body) : Nat := b.text.length

def at? (b : Body) (position : Int) : Option CodePoint :=
  if position < 0 then none else b.text[position.toNat]?

end Body

/-- A position together with what follows it; the position may lie past the end. -/
structure Cursor where
  body : Body
  position : Nat
  rest : Text

def Body.cursor (body : Body) (position : Nat) : Cursor :=
  { body, position, rest := body.text.drop position }

namespace Cursor

def start (text name : Text) : Cursor := { body := { text, name }, position := 0, rest := text }

def current? (c : Cursor) : Option CodePoint := c.rest.head?

def advanceBy (c : Cursor) (n : Nat) : Cursor :=
  { c with position := c.position + n, rest := c.rest.drop n }

def advance (c : Cursor) : Cursor := c.advanceBy 1

def atEnd (c : Cursor) : Bool := c.rest.isEmpty && c.position == c.body.length

/-- Not past the end. The body is measured only if nothing is left. -/
def inBody (c : Cursor) : Bool := !c.rest.isEmpty || c.position ≤ c.body.length

def Valid (c : Cursor) : Prop := c.rest = c.body.text.drop c.position

theorem valid_cursor (body : Body) (position : Nat) : (body.cursor position).Valid := rfl

theorem valid_start (text name : Text) : (start text name).Valid := rfl

theorem Valid.advanceBy {c : Cursor} (valid : c.Valid) (n : Nat) : (c.advanceBy n).Valid := by
  simp only [Valid, Cursor.advanceBy] at *
  rw [valid, List.drop_drop]

theorem Valid.current? {c : Cursor} (valid : c.Valid) : c.current? = c.body.at? c.position := by
  have inside : ¬ (c.position : Int) < 0 := by omega
  simp only [Valid, Cursor.current?, Body.at?] at *
  rw [valid, List.head?_drop, if_neg inside, Int.toNat_natCast]

end Cursor

end Descent
