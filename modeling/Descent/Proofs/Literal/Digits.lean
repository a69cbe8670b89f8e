import Descent.Proofs.Literal.Number
import Descent.Proofs.Longest

/-! Digits are read as far as they go, and signs up to them. -/

namespace Descent.Literal

open Grammar

open scoped Computability

variable {defs : Definitions} {text : Text} {L : Language CodePoint} {set : Text}

theorem digits_begin (L : Language CodePoint) :
    BeginsIn Charset.decimal (Charset.words Charset.decimal * L) := by
  have digits : BeginsIn Charset.decimal (Charset.words Charset.decimal) :=
    (WrittenIn.words fun _ => id).beginsIn
  exact digits.mul fun empty => absurd empty (nil_not_mem_words _)

theorem digits_separate (begins : BeginsIn set L) (other : ∀ c ∈ set, c ∉ Charset.decimal) :
    Separates (Charset.words Charset.decimal) L :=
  begins.separates (WrittenIn.words fun _ => id) other

theorem signs_separate (begins : BeginsIn set L) (other : ∀ c ∈ set, c ∉ ("+-" : Text)) :
    Separates signs L :=
  begins.separates (.add .one (.language fun _ => id)) other

theorem digits_longest :
    Longest defs text (Charset.words Charset.decimal) (fun t m => m = .just (.text t)) digits := by
  refine (Longest.words Charset.decimal).map ?_
  rintro t _ _ rfl
  exact ⟨_, _, rfl, Payload.joined_of_flatten (Payload.flatten_characters t), rfl⟩

theorem digits_produces : Produces defs text Maybe.IsText digits :=
  digits_longest.produces fun t _ _ same => ⟨t, same⟩

end Descent.Literal
