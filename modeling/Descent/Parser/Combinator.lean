import Descent.Parser.Basic

/-! Parsers made of parsers. A part that may be abandoned is lent a copy of the cursor. -/

namespace Descent.Parser

def follow (start : Nat) (values : List Payload) : List Parser → Cursor → Outcome Result
  | [], c => .done (.success (.just (.list values)) c start)
  | part :: parts, c => do
    match ← (part c).outcome with
    | .success value state _ => follow start (values ++ value.toList) parts state
    | failed => return failed

def sequence (parts : List Parser) : Parser := fun c =>
  { outcome := follow c.position [] parts c, lent := c }

/-- The failure that got further, or the earlier one of two that got as far. -/
def further (best : Option Result) (r : Result) : Option Result :=
  match best with
  | some b => if b.stop < r.stop then some r else some b
  | none => some r

def firstSuccess (deepest : Bool) (c : Cursor) (best : Option Result) :
    List Parser → Outcome Result
  | [] => .done (best.getD (.failureAt c))
  | part :: parts => do
    let r ← (part c).outcome
    if r.succeeded then return r
    else firstSuccess deepest c (if deepest then further best r else best) parts

/-- Fails at the cursor, or with `deepest` where the failure that got furthest does. -/
def choice (deepest : Bool) (parts : List Parser) : Parser := fun c =>
  { outcome := firstSuccess deepest c none parts, lent := c }

def firstFailure (c : Cursor) : List Parser → Outcome (Option Result)
  | [] => .done none
  | part :: parts => do
    let r ← (part c).outcome
    if r.succeeded then firstFailure c parts else return some r

def both (first : Parser) (others : List Parser) : Parser := fun c =>
  let outcome := do
    let r ← (first c).outcome
    if r.succeeded then return (← firstFailure c others).getD r else return r
  { outcome, lent := c }

/-- At most `rounds` attempts from `c` on, after `values`, of which the last comes first. -/
def repeatFrom (part : Parser) (start : Nat) : Nat → List Payload → Cursor → Outcome Result
  | 0, _, _ => .exhausted
  | rounds + 1, values, c => do
    let r ← (part c).outcome
    if r.succeeded && c.position < r.stop then
      repeatFrom part start rounds (r.value.toList ++ values) r.state
    else
      return .success (.just (.list values.reverse)) c start

/-- As many matches as there are. One that does not advance is the end and does not count. -/
def many (rounds : Nat) (part : Parser) : Parser := fun c =>
  { outcome := repeatFrom part c.position rounds [] c, lent := c }

def option (default : Maybe) (part : Parser) : Parser := fun c =>
  let outcome := do
    let r ← (part c).outcome
    return if r.succeeded then r else .success default c c.position
  { outcome, lent := c }

def peek (part : Parser) : Parser := fun c =>
  let outcome := do
    match ← (part c).outcome with
    | .success value _ _ => return .success value c c.position
    | failed => return failed
  { outcome, lent := c }

def not (part : Parser) : Parser := fun c =>
  match (part c).outcome with
  | .done r => if r.succeeded then .refuse c else any c
  | .raised fault => { outcome := .raised fault, lent := c }
  | .exhausted => { outcome := .exhausted, lent := c }

/-- Lends its own cursor to the part and drops the payload. -/
def skip (part : Parser) : Parser := fun c =>
  let reply := part c
  let outcome := do
    match ← reply.outcome with
    | .success _ state start => return .success .nothing state start
    | failed => return failed
  { reply with outcome }

/-- Lends its own cursor to the part and applies `f` to the payload, if there is one. -/
def map (f : Payload → Except Fault Payload) (part : Parser) : Parser := fun c =>
  let reply := part c
  let outcome := do
    match ← reply.outcome with
    | .success value state start =>
      if value.present then
        return .success (.just (← Outcome.ofExcept (f value.value))) state start
      else return .success value state start
    | failed => return failed
  { reply with outcome }

end Descent.Parser
