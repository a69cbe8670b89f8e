import Descent.Numeral
import Descent.Text.Line

/-! Reports of errors, with the place in the text and a caret under it. -/

namespace Descent

structure Diagnostic where
  source : Text
  position : Int
  message : Text
  name : Text

namespace Diagnostic

structure Excerpt where
  window : Text
  indent : Nat
  deriving DecidableEq

/-- At most 40 characters. A column above 20 is moved to the twentieth place. -/
def Excerpt.ofLine (line : Text) (column : Int) : Excerpt :=
  if column ≤ 20 then { window := line.take 40, indent := (column - 1).toNat }
  else { window := (line.drop (column - 20).toNat).take 40, indent := 19 }

def Excerpt.render (e : Excerpt) : Text :=
  Text.concat [e.window, "\n", List.replicate e.indent ' ', "^"]

def offset (d : Diagnostic) : Int := min d.position d.source.length

def before (d : Diagnostic) : Nat := d.source.preceding d.offset

def line (d : Diagnostic) : Nat := (d.source.place d.before).line

/-- Where the offset is negative, so much less than the column of what comes before it. -/
def column (d : Diagnostic) : Int := (d.source.place d.before).column + (d.offset - d.before)

theorem offset_of_nonneg (d : Diagnostic) (position : Nat) (inside : d.position = position) :
    d.offset = (min position d.source.length : Nat) := by
  rw [offset, inside]
  omega

theorem before_of_nonneg (d : Diagnostic) (position : Nat) (inside : d.position = position) :
    d.before = min position d.source.length := by
  rw [before, d.offset_of_nonneg position inside, Text.preceding_natCast]

theorem line_of_nonneg (d : Diagnostic) (position : Nat) (inside : d.position = position) :
    d.line = (d.source.place (min position d.source.length)).line := by
  rw [line, d.before_of_nonneg position inside]

theorem column_of_nonneg (d : Diagnostic) (position : Nat) (inside : d.position = position) :
    d.column = (d.source.place (min position d.source.length)).column := by
  rw [column, d.before_of_nonneg position inside, d.offset_of_nonneg position inside]
  simp

def excerpt? (d : Diagnostic) : Option Excerpt :=
  match d.source.lines[d.line - 1]? with
  | some line => if d.column - 1 ≤ line.length then some (Excerpt.ofLine line d.column) else none
  | none => none

def header (d : Diagnostic) : Text :=
  let source : Text := if d.name.isEmpty then [] else Text.concat [d.name, ": "]
  Text.concat
    [source, "At position ", Text.ofInt d.offset, " (line ", Text.ofNat d.line, ", column ",
      Text.ofInt d.column, ")"]

def note (d : Diagnostic) : Text :=
  match d.excerpt? with
  | some excerpt => Text.concat [d.header, "\n", excerpt.render]
  | none => d.header

end Diagnostic

end Descent
