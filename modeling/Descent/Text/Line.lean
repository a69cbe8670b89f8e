import Descent.Text.Basic

/-! Line breaks: where a text is cut into lines, and the line and column of a position. -/

namespace Descent

namespace CodePoint

def newline : CodePoint := '\n'

def carriageReturn : CodePoint := '\x0d'

/-- The ends of a line: vertical tabs, form feeds and the separators of records count too. -/
def isLineBreak (c : CodePoint) : Bool :=
  (0x0A ≤ c.value && c.value ≤ 0x0D) || (0x1C ≤ c.value && c.value ≤ 0x1E) ||
    c.value == 0x85 || c.value == 0x2028 || c.value == 0x2029

end CodePoint

namespace Text

/-- A carriage return and a newline right after it are one break, and a break that ends the text
opens no line after it. -/
def lines : Text → List Text
  | [] => []
  | c :: rest =>
    if c = CodePoint.carriageReturn ∧ rest.head? = some CodePoint.newline then lines rest
    else if c.isLineBreak then [] :: lines rest
    else
      match lines rest with
      | [] => [[c]]
      | line :: more => (c :: line) :: more

def unifyNewlines (t : Text) : Text :=
  let pairs := t.zip (CodePoint.newline :: t)
  let kept := pairs.filter fun (c, previous) =>
    !(c == CodePoint.newline && previous == CodePoint.carriageReturn)
  kept.map fun (c, _) => if c = CodePoint.carriageReturn then CodePoint.newline else c

structure Place where
  line : Nat
  column : Nat
  deriving DecidableEq

/-- Both numbers count from one, and lines are told apart by newlines alone. -/
def place (t : Text) (position : Nat) : Place :=
  let before := t.take position
  { line := before.count CodePoint.newline + 1
    column := (before.reverse.takeWhile (· ≠ CodePoint.newline)).length + 1 }

end Text

end Descent
