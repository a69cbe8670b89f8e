import Descent.Cursor
import Descent.Verdict

/-! What a parser reports: a match with its payload, or where it gave up. -/

namespace Descent

/-- The start is the position before the attempt. -/
inductive Result where
  | success (value : Maybe) (state : Cursor) (start : Nat)
  | failure (state : Cursor) (start : Nat)

namespace Result

def failureAt (c : Cursor) : Result := .failure c c.position

@[simp] def succeeded : Result → Bool
  | success .. => true
  | failure .. => false

@[simp] def value : Result → Maybe
  | success value .. => value
  | failure .. => .nothing

@[simp] def state : Result → Cursor
  | success _ state _ => state
  | failure state _ => state

@[simp] def start : Result → Nat
  | success _ _ start => start
  | failure _ start => start

def stop (r : Result) : Nat := r.state.position

def verdict : Result → Verdict
  | success value state start => { payload? := some value, state := .ofCursor state, start }
  | failure state start => { payload? := none, state := .ofCursor state, start }

@[simp] theorem verdict_state (r : Result) : r.verdict.state = .ofCursor r.state := by
  cases r <;> rfl

@[simp] theorem verdict_start (r : Result) : r.verdict.start = r.start := by
  cases r <;> rfl

def matched (r : Result) : Text := r.verdict.matched

theorem matched_eq (r : Result) : r.matched = (r.state.body.text.take r.stop).drop r.start := by
  rw [matched, Verdict.matched, Verdict.stop, verdict_state, verdict_start]
  exact Text.slice_natCast _ _ _

def describe (r : Result) : Text := r.verdict.describe

def error (r : Result) : Diagnostic := r.verdict.error

def unwrap (r : Result) : Except Diagnostic Payload := r.verdict.unwrap

end Result

end Descent
