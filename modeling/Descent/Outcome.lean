import Descent.Fault

/-! Outcomes of a bounded run. -/

namespace Descent

inductive Outcome (α : Type) where
  | done (a : α)
  | raised (fault : Fault)
  /-- The bound was too small to tell. -/
  | exhausted

namespace Outcome

variable {α β : Type}

@[inline] def bind (outcome : Outcome α) (next : α → Outcome β) : Outcome β :=
  match outcome with
  | done a => next a
  | raised fault => raised fault
  | exhausted => exhausted

instance : Monad Outcome where
  pure := done
  bind := bind

@[inline] def ofExcept : Except Fault α → Outcome α
  | .ok a => done a
  | .error fault => raised fault

@[simp] theorem pure_eq (a : α) : (pure a : Outcome α) = done a := rfl

@[simp] theorem bind_done (a : α) (next : α → Outcome β) : (done a >>= next) = next a := rfl

@[simp] theorem bind_raised (fault : Fault) (next : α → Outcome β) :
    (raised fault >>= next) = raised fault := rfl

@[simp] theorem bind_exhausted (next : α → Outcome β) : (exhausted >>= next) = exhausted := rfl

theorem bind_eq_done {outcome : Outcome α} {next : α → Outcome β} {b : β} :
    (outcome >>= next) = done b ↔ ∃ a, outcome = done a ∧ next a = done b := by
  cases outcome <;> simp

instance : LawfulMonad Outcome :=
  LawfulMonad.mk' Outcome
    (fun outcome => by cases outcome <;> rfl)
    (fun _ _ => rfl)
    (fun outcome _ _ => by cases outcome <;> rfl)

end Outcome

end Descent
