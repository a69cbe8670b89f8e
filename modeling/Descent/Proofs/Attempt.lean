import Descent.Proofs.Search

/-! How a run from a position ends, by positions alone. -/

namespace Descent.Grammar

variable {defs : Definitions} {body : Body} {g other part : Grammar} {parts : List Grammar}
  {i j k e : Nat} {value value' : Maybe} {r : Result}

def Matches (g : Grammar) (defs : Definitions) (body : Body) (i : Nat) (value : Maybe) (j : Nat) :
    Prop :=
  (g.parse (body.cursor i) defs).outcome = .done (.success value (body.cursor j) i)

def Fails (g : Grammar) (defs : Definitions) (body : Body) (i e : Nat) : Prop :=
  (g.parse (body.cursor i) defs).outcome = .done (.failure (body.cursor e) e)

theorem exists_answer (ends : (g.parse (body.cursor i) defs).outcome = .done r) :
    ∃ a, Meaning defs body.text g i a ∧ a.outcome body i = .done r := by
  rcases g.parse_sound defs body i with unsettled | ⟨a, meaning, yields⟩
  · rw [ends] at unsettled
    cases unsettled
  · exact ⟨a, meaning, yields.outcome_eq.symm.trans ends⟩

theorem outcome_eq_iff (a : Answer) :
    (g.parse (body.cursor i) defs).outcome = a.outcome body i ↔ Meaning defs body.text g i a := by
  constructor
  · intro ends
    rcases g.parse_sound defs body i with unsettled | ⟨b, meaning, yields⟩
    · exact absurd (ends.symm.trans unsettled) (a.outcome_ne_exhausted body i)
    · have same : a = b := Answer.outcome_injective body i (ends.symm.trans yields)
      rw [same]
      exact meaning
  · intro meaning
    exact parse_complete meaning

theorem matches_iff :
    g.Matches defs body i value j ↔ Meaning defs body.text g i (.matched value j) :=
  outcome_eq_iff (.matched value j)

theorem fails_iff : g.Fails defs body i e ↔ Meaning defs body.text g i (.failed e) :=
  outcome_eq_iff (.failed e)

theorem matches_eq :
    g.Matches defs body = fun i value j => Meaning defs body.text g i (.matched value j) := by
  funext i value j
  exact propext matches_iff

theorem fails_eq : g.Fails defs body = fun i e => Meaning defs body.text g i (.failed e) := by
  funext i e
  exact propext fails_iff

theorem matches_or_fails (ends : (g.parse (body.cursor i) defs).outcome = .done r) :
    (∃ value, g.Matches defs body i value r.stop ∧ r = .success value (body.cursor r.stop) i) ∨
      (g.Fails defs body i r.stop ∧ r = .failure (body.cursor r.stop) r.stop) := by
  obtain ⟨a, meaning, same⟩ := exists_answer ends
  cases a with
  | matched value j =>
      cases same
      exact .inl ⟨value, ends, rfl⟩
  | failed e =>
      cases same
      exact .inr ⟨ends, rfl⟩
  | raised fault => cases same

theorem Matches.unique (first : g.Matches defs body i value j)
    (second : g.Matches defs body i value' k) : value = value' ∧ j = k := by
  have same := (matches_iff.mp first).unique (matches_iff.mp second)
  exact Answer.matched.inj same

theorem Matches.not_fails (first : g.Matches defs body i value j) : ¬ g.Fails defs body i e := by
  intro second
  have same := (matches_iff.mp first).unique (fails_iff.mp second)
  cases same

theorem outcome_congr
    (same : ∀ a, Meaning defs body.text g i a ↔ Meaning defs body.text other i a) :
    (g.parse (body.cursor i) defs).outcome = (other.parse (body.cursor i) defs).outcome := by
  rcases g.parse_sound defs body i with unsettled | ⟨a, meaning, yields⟩
  · rcases other.parse_sound defs body i with unsettled' | ⟨a, meaning, _⟩
    · exact unsettled.trans unsettled'.symm
    · have settled := (outcome_eq_iff a).mpr ((same a).mpr meaning)
      exact absurd (settled.symm.trans unsettled) (a.outcome_ne_exhausted body i)
  · exact yields.outcome_eq.trans ((outcome_eq_iff a).mpr ((same a).mp meaning)).symm

theorem parse_congr
    (same : ∀ a, Meaning defs body.text g i a ↔ Meaning defs body.text other i a)
    (lent : (g.parse (body.cursor i) defs).lent = (other.parse (body.cursor i) defs).lent) :
    g.parse (body.cursor i) defs = other.parse (body.cursor i) defs := by
  have outcome := outcome_congr same
  cases left : g.parse (body.cursor i) defs with
  | mk _ _ =>
      cases right : other.parse (body.cursor i) defs with
      | mk _ _ =>
          rw [left, right] at outcome lent
          rw [Reply.mk.injEq]
          exact ⟨outcome, lent⟩

theorem sequence_nil_matches_iff :
    (sequence []).Matches defs body i value j ↔ value = .just (.list []) ∧ j = i := by
  rw [matches_iff]
  constructor
  · intro meaning
    cases meaning
    exact ⟨rfl, rfl⟩
  · intro same
    rw [same.1, same.2]
    exact .sequence_nil i

theorem not_sequence_nil_fails : ¬ (sequence []).Fails defs body i e := by
  intro failed
  cases fails_iff.mp failed

theorem sequence_cons_matches_iff :
    (sequence (part :: parts)).Matches defs body i value k ↔
      ∃ first j values, part.Matches defs body i first j ∧
        (sequence parts).Matches defs body j (.just (.list values)) k ∧
        value = .just (.list (first.toList ++ values)) := by
  simp only [matches_iff]
  constructor
  · exact Meaning.sequence_cons_matched
  · intro found
    obtain ⟨first, j, values, begins, later, rfl⟩ := found
    exact .sequence_next begins later

theorem sequence_cons_fails_iff :
    (sequence (part :: parts)).Fails defs body i e ↔
      part.Fails defs body i e ∨
        ∃ first j, part.Matches defs body i first j ∧ (sequence parts).Fails defs body j e := by
  simp only [matches_iff, fails_iff]
  constructor
  · intro meaning
    generalize whole : Answer.failed e = a at meaning
    cases Meaning.sequence_cons_iff.mp meaning with
    | stop begins stops =>
        subst whole
        exact .inl begins
    | @next j first b begins later =>
        cases b with
        | matched value stop => cases whole
        | raised fault => cases whole
        | failed position =>
            cases whole
            exact .inr ⟨first, j, begins, later⟩
  · intro failed
    rcases failed with begins | ⟨first, j, begins, later⟩
    · exact .sequence_stop begins rfl
    · exact .sequence_next begins later

theorem skip_matches_iff :
    (skip part).Matches defs body i value j ↔
      value = .nothing ∧ ∃ inner, part.Matches defs body i inner j := by
  simp only [matches_iff]
  constructor
  · intro meaning
    cases meaning with
    | skip_matched inner => exact ⟨rfl, _, inner⟩
    | skip_stop inner stops => simp at stops
  · intro found
    obtain ⟨rfl, inner, meaning⟩ := found
    exact .skip_matched meaning

theorem skip_fails_iff : (skip part).Fails defs body i e ↔ part.Fails defs body i e := by
  simp only [fails_iff]
  constructor
  · intro meaning
    cases meaning with
    | skip_stop inner stops => exact inner
  · intro meaning
    exact .skip_stop meaning rfl

end Descent.Grammar
