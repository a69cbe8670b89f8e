import Descent.Bookmark
import Descent.Diagnostic
import Descent.Payload.Render

/-! What is said about an attempt at a match, which may have been made outside the text. -/

namespace Descent

structure Verdict where
  /-- What was matched, if the attempt succeeded. -/
  payload? : Option Maybe
  state : Bookmark
  start : Int

namespace Verdict

def succeeded (v : Verdict) : Bool := v.payload?.isSome

def value (v : Verdict) : Maybe := v.payload?.getD .nothing

def stop (v : Verdict) : Int := v.state.position

def matched (v : Verdict) : Text := v.state.body.text.slice v.start v.stop

def describe (v : Verdict) : Text :=
  if v.succeeded then
    Text.concat
      ["matched ", Text.ofInt (v.stop - v.start), " characters at position ", Text.ofInt v.start]
  else
    match v.state.current? with
    | none => "unexpected end-of-file"
    | some c =>
      Text.concat
        ["error at character ", Text.ofInt v.stop, ": unexpected character \x27", [c], "\x27"]

/-- A report on where the attempt stopped, which may also have been a match. -/
def diagnostic (v : Verdict) (message : Text) : Diagnostic :=
  { source := v.state.body.text
    position := v.stop
    message
    name := v.state.body.name }

def error (v : Verdict) : Diagnostic := v.diagnostic v.describe

def unwrap (v : Verdict) : Except Diagnostic Payload :=
  match v.payload? with
  | some m => .ok m.value
  | none => .error v.error

def toText (v : Verdict) : Text :=
  match v.payload? with
  | some m => if m.present then m.value.toText else []
  | none => Text.concat ["Failure: ", v.describe]

def render (v : Verdict) : Text :=
  let status : Text := if v.succeeded then "ok" else "fail"
  Text.concat
    ["<Result ", status, " ", Text.ofInt v.start, "..", Text.ofInt v.stop, " ", v.value.render, ">"]

end Verdict

end Descent
