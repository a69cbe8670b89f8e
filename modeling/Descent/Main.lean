import Descent.Command.StandIn

/-! The command on the files of the machine. -/

namespace Descent.Command

def readAll (stream : IO.FS.Stream) : IO ByteArray := do
  let mut bytes := ByteArray.empty
  repeat
    let chunk ← stream.read 65536
    if chunk.isEmpty then break
    bytes := bytes ++ chunk
  return bytes

def readSource (request : Request) : IO (Option ByteArray) := do
  if request.readsStandardInput then return some (← readAll (← IO.getStdin))
  try
    return some (← IO.FS.readBinFile request.source.toString)
  catch _ =>
    return none

/-- A terminal gets all that is printed. -/
def toolkit : IO Toolkit := do
  let shown (terminal : Bool) (t : Text) := if terminal then t else t.withoutControls
  let stdout := shown (← (← IO.getStdout).isTty)
  let stderr := shown (← (← IO.getStderr).isTty)
  return { StandIn.toolkit with stdout, stderr }

def give (response : Response) : IO UInt32 := do
  let stderr ← IO.getStderr
  for record in response.log do
    stderr.putStrLn record.message.toString
  stderr.putStr response.stderr.toString
  (← IO.getStdout).putStr response.stdout.toString
  return response.exitCode.toUInt32

def respond (tools : Toolkit) (request : Request) (bytes : ByteArray) : IO UInt32 := do
  match request.answer tools bytes with
  | .error failure => throw (IO.userError failure.message.toString)
  | .ok answer =>
    if let some (path, text) := answer.output then
      IO.FS.writeBinFile path.toString (encode text)
    give answer.response

end Descent.Command

open Descent Descent.Command in
def main (arguments : List String) : IO UInt32 := do
  let tools ← toolkit
  match tools.read (arguments.map Text.ofString) with
  | .error response => give response
  | .ok request =>
    match ← readSource request with
    | none => give (tools.unreadable request.source)
    | some bytes => respond tools request bytes
