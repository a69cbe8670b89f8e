import Descent.Text.Path

/-! What the command is asked for. -/

namespace Descent.Command

structure Request where
  /-- A path, or a dash for the standard input. -/
  source : Text := "-"
  /-- Where the text goes if not to the standard output. -/
  output : Option Text := none
  verbose : Bool := false

namespace Request

def readsStandardInput (request : Request) : Bool := request.source == Text.ofString "-"

def sourceName (request : Request) : Text :=
  if request.readsStandardInput then "<stdin>" else request.source

end Request

end Descent.Command
