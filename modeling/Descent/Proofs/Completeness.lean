import Descent.Proofs.Approximation
import Descent.Proofs.Soundness
import Mathlib.Data.Finset.Prod
import Mathlib.Order.Interval.Finset.Nat

/-! The bounds of a run are large enough for every answer. -/

namespace Descent

namespace Grammar

/-- What a run at position `i` does that has the answer; a repetition does it with any number of
attempts that exceeds what is left of the text. -/
def Realizes (rounds : Nat) (rules : String → Parser) (body : Body) : Grammar → Nat → Answer → Prop
  | many part, i, a =>
    ∀ attempts, body.text.length - i < attempts →
      (Parser.many attempts (part.parser rounds rules)).Yields body i a
  | g, i, a => (g.parser rounds rules).Yields body i a

theorem Realizes.yields {rounds : Nat} {rules : String → Parser} {body : Body} {g : Grammar}
    {i : Nat} {a : Answer} (realizes : Realizes rounds rules body g i a)
    (enough : body.text.length - i < rounds) : (g.parser rounds rules).Yields body i a := by
  cases g with
  | many part => exact realizes rounds enough
  | _ => exact realizes

/-- Rules that are not settled any further by unfolding them once more between positions `start`
and the end. -/
structure Closed (defs : Definitions) (body : Body) (rounds start : Nat)
    (rules : String → Parser) : Prop where
  unfold : ∀ name g i a, start ≤ i → i ≤ max start body.text.length →
    defs.lookup name = some g → (g.parser rounds rules).Yields body i a →
    (rules name).Yields body i a
  undefined : ∀ name i, defs.lookup name = none →
    (rules name).Yields body i (.raised (.undefined name))

theorem Closed.realizes {defs : Definitions} {body : Body} {rounds start : Nat}
    {rules : String → Parser} (closed : Closed defs body rounds start rules)
    (enough : body.text.length - start < rounds) {g : Grammar} {i : Nat} {a : Answer}
    (meaning : Meaning defs body.text g i a) (low : start ≤ i)
    (high : i ≤ max start body.text.length) : Realizes rounds rules body g i a := by
  have rest : ∀ {i : Nat}, start ≤ i → body.text.length - i < rounds := fun _ => by omega
  induction meaning with
  | oneOf set i => exact .character _ i
  | noneOf set i => exact .character _ i
  | word w i => exact .word w i
  | wordIgnoringCase w i => exact .wordIgnoringCase w i
  | endOfText i => exact .endOfText i
  | sequence_nil i => exact .sequence_nil i
  | sequence_stop _ stops ih => exact .sequence_stop ((ih low high).yields (rest low)) stops
  | sequence_next first _ ih ihLater =>
      have near := first.within
      simp only [Answer.Within] at near
      exact .sequence_next ((ih low high).yields (rest low))
        ((ihLater (by omega) (by omega)).yields (rest (by omega)))
  | choice_nil deepest i => exact .choice_nil deepest i
  | choice_first _ holds ih => exact .choice_first ((ih low high).yields (rest low)) holds
  | choice_later first _ holds ih ihLater =>
      exact .choice_later ((ih low high).yields (rest low)) first.within.1
        ((ihLater low high).yields (rest low)) holds
  | choice_failed first later ih ihLater =>
      refine .choice_failed ((ih low high).yields (rest low)) first.within.1
        ((ihLater low high).yields (rest low)) ?_
      rintro rfl
      exact later.choice_false_failed
  | both_nil _ ih => exact .both_nil ((ih low high).yields (rest low))
  | both_first _ stops ih => exact .both_first ((ih low high).yields (rest low)) stops
  | both_other _ _ stops ih ihStop =>
      exact .both_other ((ih low high).yields (rest low)) ((ihStop low high).yields (rest low))
        stops
  | both_next _ _ _ ih ihCheck ihLater =>
      exact .both_next ((ih low high).yields (rest low)) ((ihCheck low high).yields (rest low))
        ((ihLater low high).yields (rest low))
  | many_failed _ ih =>
      intro attempts left
      obtain ⟨n, rfl⟩ := Nat.exists_eq_add_of_lt left
      exact .many_failed _ ((ih low high).yields (rest low))
  | many_still _ still ih =>
      intro attempts left
      obtain ⟨n, rfl⟩ := Nat.exists_eq_add_of_lt left
      exact .many_still _ ((ih low high).yields (rest low)) still
  | many_raised _ ih =>
      intro attempts left
      obtain ⟨n, rfl⟩ := Nat.exists_eq_add_of_lt left
      exact .many_raised _ ((ih low high).yields (rest low))
  | many_next first advances _ ih ihLater =>
      have near := first.within
      simp only [Answer.Within] at near
      intro attempts left
      obtain ⟨n, rfl⟩ := Nat.exists_eq_add_of_lt left
      -- A match that advances leaves less of the text, so one attempt less is enough after it.
      exact .many_next _ ((ih low high).yields (rest low)) advances
        (ihLater (by omega) (by omega) _ (by omega))
  | skip_matched _ ih => exact .skip_matched ((ih low high).yields (rest low))
  | skip_stop _ stops ih => exact .skip_stop ((ih low high).yields (rest low)) stops
  | option_some _ holds ih => exact .option_some _ ((ih low high).yields (rest low)) holds
  | option_none _ ih => exact .option_none _ ((ih low high).yields (rest low))
  | peek_matched _ ih => exact .peek_matched ((ih low high).yields (rest low))
  | peek_stop _ stops ih => exact .peek_stop ((ih low high).yields (rest low)) stops
  | not_matched _ ih => exact .not_matched ((ih low high).yields (rest low))
  | not_failed _ ih => exact .not_failed ((ih low high).yields (rest low))
  | not_raised _ ih => exact .not_raised ((ih low high).yields (rest low))
  | map_done _ applied ih => exact .map_done ((ih low high).yields (rest low)) applied
  | map_raised _ applied ih => exact .map_raised ((ih low high).yields (rest low)) applied
  | map_absent _ absent ih => exact .map_absent ((ih low high).yields (rest low)) absent
  | map_stop _ stops ih => exact .map_stop ((ih low high).yields (rest low)) stops
  | rule found _ ih =>
      exact closed.unfold _ _ _ _ low high found ((ih low high).yields (rest low))
  | rule_undefined missing => exact closed.undefined _ _ missing

end Grammar

namespace Definitions

def settled (defs : Definitions) (body : Body) (rounds start depth : Nat) :
    Finset (String × Nat) :=
  ((defs.map Prod.fst).toFinset ×ˢ Finset.Icc start (max start body.text.length)).filter
    fun place => ((defs.parser rounds depth place.1) (body.cursor place.2)).outcome.isSettled

theorem settled_subset (defs : Definitions) (body : Body) (rounds start depth : Nat) :
    defs.settled body rounds start depth ⊆ defs.settled body rounds start (depth + 1) := by
  intro place member
  simp only [settled, Finset.mem_filter, Outcome.isSettled_iff] at member ⊢
  refine ⟨member.1, ?_⟩
  rw [← (defs.parser_approx_succ rounds depth place.1 _).eq_of_ne member.2]
  exact member.2

theorem card_settled_le (defs : Definitions) (body : Body) (rounds start depth : Nat) :
    (defs.settled body rounds start depth).card ≤
      defs.length * (body.text.length - start + 1) := by
  have names : (defs.map Prod.fst).toFinset.card ≤ defs.length := by
    simpa using (defs.map Prod.fst).toFinset_card_le
  have places : (Finset.Icc start (max start body.text.length)).card =
      body.text.length - start + 1 := by
    rw [Nat.card_Icc]
    omega
  calc
    _ ≤ ((defs.map Prod.fst).toFinset ×ˢ Finset.Icc start (max start body.text.length)).card :=
      Finset.card_filter_le _ _
    _ = (defs.map Prod.fst).toFinset.card * (body.text.length - start + 1) := by
      rw [Finset.card_product, places]
    _ ≤ _ := Nat.mul_le_mul_right _ names

/-- Each unfolding that settles anything settles a new name and position, of which there are only
so many. -/
theorem exists_settled_eq (defs : Definitions) (body : Body) (rounds start : Nat) :
    ∃ depth ≤ defs.length * (body.text.length - start + 1),
      defs.settled body rounds start (depth + 1) = defs.settled body rounds start (depth + 2) := by
  by_contra none
  push Not at none
  have grows : ∀ depth ≤ defs.length * (body.text.length - start + 1) + 1,
      depth ≤ (defs.settled body rounds start (depth + 1)).card := by
    intro depth
    induction depth with
    | zero => exact fun _ => Nat.zero_le _
    | succ depth ih =>
        intro bound
        have strict := Finset.card_lt_card
          ((defs.settled_subset body rounds start (depth + 1)).ssubset_of_ne
            (none depth (by omega)))
        have before := ih (by omega)
        omega
  have most := defs.card_settled_le body rounds start
    (defs.length * (body.text.length - start + 1) + 1 + 1)
  have least := grows _ (Nat.le_refl _)
  omega

/-- With the bounds of a run from `start`, the rules are closed from there to the end. -/
theorem exists_closed (defs : Definitions) (body : Body) (rounds start : Nat) :
    ∃ depth ≤ Grammar.depthFor defs (body.cursor start),
      Grammar.Closed defs body rounds start (defs.parser rounds depth) := by
  obtain ⟨depth, bound, same⟩ := defs.exists_settled_eq body rounds start
  refine ⟨depth + 1, ?_, ?_, ?_⟩
  · simp only [Grammar.depthFor, Body.cursor, List.length_drop]
    omega
  · intro name g i a low high found yields
    have unfolded : (defs.parser rounds (depth + 2) name).Yields body i a := by
      simp only [Parser.Yields, Definitions.parser, found]
      exact yields
    have later : (name, i) ∈ defs.settled body rounds start (depth + 2) := by
      have named : name ∈ (defs.map Prod.fst).toFinset := by
        rw [List.mem_toFinset]
        exact defs.mem_names_of_lookup found
      simp only [settled, Finset.mem_filter, Finset.mem_product, Finset.mem_Icc,
        Outcome.isSettled_iff]
      exact ⟨⟨named, low, high⟩, unfolded.outcome_eq ▸ a.outcome_ne_exhausted body i⟩
    rw [← same] at later
    simp only [settled, Finset.mem_filter, Outcome.isSettled_iff] at later
    have equal := (defs.parser_approx_succ rounds (depth + 1) name _).eq_of_ne later.2
    exact equal.trans unfolded
  · intro name i missing
    simp [Parser.Yields, Definitions.parser, missing]

end Definitions

/-- Every answer is what a run within its bounds ends with. -/
theorem Grammar.parse_complete {defs : Definitions} {body : Body} {g : Grammar} {i : Nat}
    {a : Answer} (meaning : Meaning defs body.text g i a) :
    Parser.Yields body (g.parse · defs) i a := by
  let rounds := roundsFor (body.cursor i)
  have enough : body.text.length - i < rounds := by
    simp only [rounds, roundsFor, Body.cursor, List.length_drop]
    omega
  obtain ⟨depth, bound, closed⟩ := defs.exists_closed body rounds i
  have yields : (g.parser rounds (defs.parser rounds depth)).Yields body i a :=
    (closed.realizes enough meaning (Nat.le_refl i) (Nat.le_max_left _ _)).yields enough
  have settles := g.parser_approx (Nat.le_refl rounds) (defs.parser_approx_of_le rounds bound)
    (body.cursor i)
  have same := settles.eq_of_ne (yields.outcome_eq ▸ a.outcome_ne_exhausted body i)
  exact same.symm.trans yields

/-- A position has at most one answer. -/
theorem Meaning.unique {defs : Definitions} {text : Text} {g : Grammar} {i : Nat} {a b : Answer}
    (first : Meaning defs text g i a) (second : Meaning defs text g i b) : a = b := by
  let body : Body := { text, name := [] }
  have left : Parser.Yields body (g.parse · defs) i a := Grammar.parse_complete first
  have right : Parser.Yields body (g.parse · defs) i b := Grammar.parse_complete second
  exact Answer.outcome_injective body i (left.symm.trans right)

end Descent
