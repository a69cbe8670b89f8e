import Descent.Text.LowerCase

/-! Which texts a small text is the small form of. -/

namespace Descent.Text.LowerCase

variable {c d : CodePoint} {before t small : Text}

def irregular : Text := "iςσ"

def Run.Reaches (run : Run) (n : Nat) : Prop :=
  run.first ≤ n - run.distance ∧ n - run.distance ≤ run.last

instance (run : Run) (n : Nat) : Decidable (run.Reaches n) := inferInstanceAs (Decidable (_ ∧ _))

theorem exists_run_of_simple (small : simple c = d) (other : c ≠ d) (positive : 0 < d.value) :
    ∃ run ∈ runs, run.Reaches d.value ∧ (d.value : Int) - run.distance = c.value := by
  rw [simple] at small
  split at small
  · rename_i run found
    split at small
    · rename_i inside
      have below : c.value ≤ run.last := by simpa using List.find?_some found
      rw [shifted, CodePoint.ofNat?] at small
      split at small
      · have moved : (c.value + run.distance).toNat = d.value := congrArg CodePoint.value small
        have back : (d.value : Int) - run.distance = c.value := by omega
        refine ⟨run, List.mem_of_find?_eq_some found, ?_, back⟩
        rw [Run.Reaches, back]
        exact ⟨Int.ofNat_le.mpr inside.1, Int.ofNat_le.mpr below⟩
      · exact absurd small other
    · exact absurd small other
  · exact absurd small other

/-- A small letter comes from itself and from no more than one capital. -/
theorem eq_or_eq_of_simple {capital : CodePoint} (small : simple c = d) (positive : 0 < d.value)
    (only : ∀ run ∈ runs, run.Reaches d.value → (d.value : Int) - run.distance = capital.value) :
    c = d ∨ c = capital := by
  by_cases same : c = d
  · exact .inl same
  · obtain ⟨run, known, reaches, value⟩ := exists_run_of_simple small same positive
    have found := (only run known reaches).symm.trans value
    have value : c.value = capital.value := by omega
    cases c
    cases capital
    cases value
    exact .inr rfl

theorem map_simple_of_lowerAfter (same : lowerAfter before t = small)
    (regular : ∀ c ∈ small, c ∉ irregular) : t.map simple = small := by
  induction t generalizing before small with
  | nil => exact same
  | cons c t ih =>
      rw [lowerAfter, letter] at same
      have free {front : CodePoint} {rest : Text} (whole : front :: rest = small) :
          front ∉ irregular := regular front (whole ▸ List.mem_cons_self)
      split at same
      · refine absurd ?_ (free same)
        split <;> decide
      · split at same
        · exact absurd (by decide) (free same)
        · subst same
          have later := ih rfl fun d member => regular d (List.mem_cons_of_mem _ member)
          rw [List.map_cons, later]
          rfl

end Descent.Text.LowerCase
