import Descent.Bookmark
import Descent.Grammar.Parse

/-! Sessions: named bookmarks in one text that are moved by hand and by parsers. -/

namespace Descent

structure Session where
  defs : Definitions
  slots : List (String × Bookmark)

namespace Session

def start (text name : Text) (defs : Definitions) : Session :=
  { defs, slots := [("main", Bookmark.ofCursor (Cursor.start text name))] }

def slot? (s : Session) (slot : String) : Option Bookmark := s.slots.lookup slot

def put (s : Session) (slot : String) (b : Bookmark) : Session :=
  let slots :=
    if s.slots.any (·.1 == slot) then
      s.slots.map fun entry => if entry.1 == slot then (slot, b) else entry
    else s.slots ++ [(slot, b)]
  { s with slots }

inductive Move where
  | look
  | advanceBy (n : Int)
  /-- Makes another slot a copy of this one. -/
  | copyTo (target : String)
  | display
  /-- Lends the slot's own bookmark to a parser. -/
  | apply (g : Grammar)
  /-- Does the same, and then moves the slot to where the result is. -/
  | follow (g : Grammar)

inductive Finding where
  | nothing
  | displayed (text rendered : Text)
  | applied (result : Result)
  | followed (result : Result) (lent : Bookmark)

structure Report where
  finding : Outcome Finding
  state : Bookmark

/-- Runs a grammar at a bookmark and moves the bookmark with what is lent, also if the run ends
without a result. There is nothing to parse before the text. -/
def attempt (s : Session) (b : Bookmark) (g : Grammar) : Outcome Result × Bookmark :=
  match b.cursor? with
  | some c =>
    let reply := g.parse c s.defs
    (reply.outcome, .ofCursor reply.lent)
  | none => (.exhausted, b)

def move (s : Session) (slot : String) (b : Bookmark) : Move → Report × Session
  | .look => ({ finding := .done .nothing, state := b }, s)
  | .advanceBy n =>
    let b := b.advanceBy n
    ({ finding := .done .nothing, state := b }, s.put slot b)
  | .copyTo target => ({ finding := .done .nothing, state := b }, s.put target b)
  | .display => ({ finding := .done (.displayed b.toText b.render), state := b }, s)
  | .apply g =>
    let (outcome, b) := s.attempt b g
    let finding := do return .applied (← outcome)
    ({ finding, state := b }, s.put slot b)
  | .follow g =>
    let (outcome, b) := s.attempt b g
    match outcome with
    | .done result =>
      let after := Bookmark.ofCursor result.state
      ({ finding := .done (.followed result b), state := after }, s.put slot after)
    | .raised fault => ({ finding := .raised fault, state := b }, s.put slot b)
    | .exhausted => ({ finding := .exhausted, state := b }, s.put slot b)

def perform (s : Session) (slot : String) (m : Move) : Option (Report × Session) :=
  (s.slot? slot).map fun b => s.move slot b m

end Session

end Descent
