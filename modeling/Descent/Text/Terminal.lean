import Descent.Text.Basic

/-! Sequences that control a terminal, and texts without them. A sequence is an escape, a bracket,
parameters and the letter of a command. -/

namespace Descent.Text

namespace Terminal

def escape : CodePoint := '\x1b'

def bracket : CodePoint := '['

def isParameter (c : CodePoint) : Bool := c.isDigit || c == ';' || c == '?'

def isCommand (c : CodePoint) : Bool := c.between 'a' 'z' || c.between 'A' 'Z'

def afterSequence? : Text → Option Text
  | [] => none
  | c :: rest =>
    if c = bracket then
      match rest.dropWhile isParameter with
      | command :: after => if isCommand command then some after else none
      | [] => none
    else none

def afterEscape (t : Text) : Text := (afterSequence? t).getD (escape :: t)

end Terminal

/-- No sequence holds a second escape, so the text is cut at the escapes. -/
def withoutControls (t : Text) : Text :=
  match split Terminal.escape t with
  | start :: pieces => start ++ pieces.flatMap Terminal.afterEscape
  | [] => []

theorem withoutControls_of_not_mem {t : Text} (missing : Terminal.escape ∉ t) :
    t.withoutControls = t := by
  rw [withoutControls, split_of_not_mem missing]
  exact List.append_nil t

end Descent.Text
