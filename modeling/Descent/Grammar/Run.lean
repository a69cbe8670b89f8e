import Descent.Grammar.Parse
import Descent.Log

/-! Runs of a grammar over a whole text, with a record of how they ended. -/

namespace Descent

def Body.title (b : Body) : Text := if b.name.isEmpty then "input" else b.name

def Result.record (r : Result) : Log.Record :=
  let body := r.state.body
  Log.debug .engine <|
    if r.succeeded then
      Text.concat
        ["Matched ", Text.ofNat r.stop, " of ", Text.ofNat body.length, " characters of ",
          body.title, "."]
    else Text.concat ["Parse of ", body.title, " failed: ", r.describe]

def Grammar.run (g : Grammar) (text name : Text) (defs : Definitions := []) : Outcome Result :=
  (g.parse (Cursor.start text name) defs).outcome

end Descent
