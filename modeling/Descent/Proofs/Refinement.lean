import Descent.Proofs.Repetition

/-! Parsers that move cursors agree with the meaning of their grammars. -/

namespace Descent

/-- A run ends exactly where the grammar has an answer, with the payload, the start and the end or
the failing position or the fault of that answer. The repetitions that start with a match mean what
their names say. -/
theorem parse_agrees_with_meaning (defs : Definitions) (body : Body) :
    (∀ g i a, (g.parse (body.cursor i) defs).outcome = a.outcome body i ↔
      Meaning defs body.text g i a) ∧
    (∀ g i, (g.parse (body.cursor i) defs).outcome ≠ .exhausted ↔
      ∃ a, Meaning defs body.text g i a) ∧
    (∀ part i a, Meaning defs body.text (.oneOrMore part) i a ↔
      FollowedBy (Meaning defs body.text part)
        (Repeats Maybe.toList (Meaning defs body.text part)) i a) ∧
    (∀ item separator i a, Meaning defs body.text (.separatedBy item separator) i a ↔
      FollowedBy (Meaning defs body.text item)
        (Repeats Maybe.items (Meaning defs body.text (.sequence [separator, item]))) i a) := by
  refine ⟨?_, ?_, ?_, ?_⟩
  · intro g i a
    constructor
    · intro ends
      rcases g.parse_sound defs body i with unsettled | ⟨b, meaning, yields⟩
      · exact absurd (ends.symm.trans unsettled) (a.outcome_ne_exhausted body i)
      · have same : a = b := Answer.outcome_injective body i (ends.symm.trans yields)
        rw [same]
        exact meaning
    · exact fun meaning => Grammar.parse_complete meaning
  · intro g i
    constructor
    · intro settled
      rcases g.parse_sound defs body i with unsettled | ⟨a, meaning, _⟩
      · exact absurd unsettled settled
      · exact ⟨a, meaning⟩
    · rintro ⟨a, meaning⟩
      rw [(Grammar.parse_complete meaning).outcome_eq]
      exact a.outcome_ne_exhausted body i
  · intro part i a
    have repeated : Meaning defs body.text (.many part) =
        Repeats Maybe.toList (Meaning defs body.text part) := by
      funext j b
      exact propext Meaning.many_iff
    rw [← repeated]
    exact Meaning.oneOrMore_iff
  · intro item separator i a
    exact Meaning.separatedBy_iff

end Descent
