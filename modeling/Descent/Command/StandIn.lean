import Descent.Command.Response
import Descent.Text.Terminal

/-! A toolkit that stands in for the libraries of the command. It says nothing where they explain
how the command is used. -/

namespace Descent.Command

namespace StandIn

def help : Response := { exitCode := 0, stdout := [], stderr := [], log := [] }

def misuse : Response := { exitCode := 2, stdout := [], stderr := [], log := [] }

structure Seen where
  operands : List Text := []
  output : Option Text := none
  verbose : Bool := false
  help : Bool := false

def dash : CodePoint := '-'

inductive Pending where
  | nothing
  | attached (value : Text)
  | nextArgument

def letters (verbose : Bool) : Text → Except Response (Bool × Pending)
  | [] => .ok (verbose, .nothing)
  | c :: rest =>
    if c = 'v' then letters true rest
    else if c = 'o' then .ok (verbose, if rest.isEmpty then .nextArgument else .attached rest)
    else .error misuse

def long (seen : Seen) (name : Text) (value : Option Text) : Except Response (Seen × Pending) :=
  if name = ("--output" : Text) then
    .ok (seen, match value with | some value => .attached value | none => .nextArgument)
  else if value.isSome then .error misuse
  else if name = ("--verbose" : Text) then .ok ({ seen with verbose := true }, .nothing)
  else if name = ("--help" : Text) then .ok ({ seen with help := true }, .nothing)
  else .error misuse

def option (seen : Seen) (argument : Text) : Except Response (Seen × Pending) :=
  if argument.startsWith "--" then
    let name := argument.takeWhile (· ≠ CodePoint.ofChar '=')
    let value :=
      if name.length < argument.length then some (argument.drop (name.length + 1)) else none
    long seen name value
  else do
    let (verbose, pending) ← letters seen.verbose (argument.drop 1)
    return ({ seen with verbose }, pending)

/-- The last output counts. After two dashes nothing is an option. -/
def gather (seen : Seen) : List Text → Except Response Seen
  | [] => .ok seen
  | argument :: arguments =>
    if argument = ("--" : Text) then .ok { seen with operands := seen.operands ++ arguments }
    else if argument.head? = some dash ∧ 1 < argument.length then
      match option seen argument with
      | .error response => .error response
      | .ok (seen, .nothing) => gather seen arguments
      | .ok (seen, .attached value) => gather { seen with output := some value } arguments
      | .ok (seen, .nextArgument) =>
        match arguments with
        | value :: arguments => gather { seen with output := some value } arguments
        | [] => .error misuse
    else gather { seen with operands := seen.operands ++ [argument] } arguments

def read (arguments : List Text) : Except Response Request := do
  let seen ← gather {} arguments
  if seen.help then throw help
  match seen.operands with
  | [] => return { output := seen.output, verbose := seen.verbose }
  | [source] => return { source, output := seen.output, verbose := seen.verbose }
  | _ => throw misuse

/-- Neither stream is a terminal. -/
def toolkit : Toolkit where
  read := read
  unreadable _ := misuse
  stdout := Text.withoutControls
  stderr := Text.withoutControls

end StandIn

end Descent.Command
