import Descent.Text.Basic

/-! Paths of files: names with slashes between them. -/

namespace Descent.Text

namespace Path

def slash : CodePoint := '/'

def isAbsolute (path : Text) : Bool := path.head? = some slash

def parts (path : Text) : List Text := split slash path

def here : Text := "."

def parent : Text := ".."

def idle (part : Text) : Bool := part.isEmpty || part == here

/-- What an absolute path begins with. Two slashes in front are kept, but not more of them. -/
def root (path : Text) : Text :=
  match path.takeWhile (· = slash) with
  | [] => []
  | [_, _] => [slash, slash]
  | _ => [slash]

def tidy (path : Text) : Text :=
  let whole := root path ++ join [slash] ((parts path).filter fun part => !idle part)
  if whole.isEmpty then here else whole

end Path

end Descent.Text
