import Descent.Grammar.Run
import Descent.Comment.Grammar

/-! The text of all documentation comments of a source. -/

namespace Descent.Comment

structure Extraction where
  outcome : Except Diagnostic Text
  log : List Log.Record

def foundRecord (count : Nat) : Log.Record :=
  Log.debug .extraction (Text.concat ["Found ", Text.ofNat count, " documentation comments."])

def assemble : Payload → Except Fault (Nat × Text)
  | .list items =>
    match items.mapM Payload.text? with
    | some comments => .ok (comments.length, Text.join "\n\n" comments)
    | none => .error .wrongKind
  | _ => .error .wrongKind

def extract (source name : Text) : Outcome Extraction := do
  let result ← document.run source name
  match result.unwrap with
  | .error diagnostic => return { outcome := .error diagnostic, log := [result.record] }
  | .ok payload =>
    let (count, text) ← Outcome.ofExcept (assemble payload)
    return { outcome := .ok text, log := [result.record, foundRecord count] }

end Descent.Comment
