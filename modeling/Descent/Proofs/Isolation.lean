import Descent.Proofs.Approximation
import Descent.Proofs.Lending

/-! Grammars as contexts whose names stand for any parsers. Where such a parser leaves the cursor
that it is lent makes no difference. -/

namespace Descent

def Parser.Alike (p q : Parser) : Prop := ∀ c, (p c).outcome = (q c).outcome

theorem Parser.Alike.approx {p q : Parser} (alike : p.Alike q) : p.Approx q :=
  fun c => .inr (alike c)

theorem Parser.Alike.symm {p q : Parser} (alike : p.Alike q) : q.Alike p :=
  fun c => (alike c).symm

namespace Grammar

/-- Alike parsers in the same places of a grammar make parsers that are alike. -/
theorem parser_alike {parts others : String → Parser}
    (alike : ∀ name, (parts name).Alike (others name)) (context : Grammar) (rounds : Nat) :
    (context.parser rounds parts).Alike (context.parser rounds others) := by
  -- Neither of the two runs settles more than the other.
  have there := context.parser_approx (Nat.le_refl rounds) fun name => (alike name).approx
  have back := context.parser_approx (Nat.le_refl rounds) fun name => (alike name).symm.approx
  exact fun c => (there c).antisymm (back c)

/-- How a run ends if repetitions are let go on for as long as they do. -/
def EndsWith (g : Grammar) (parts : String → Parser) (c : Cursor) (outcome : Outcome Result) :
    Prop :=
  outcome ≠ .exhausted ∧ ∃ rounds, (g.parser rounds parts c).outcome = outcome

theorem EndsWith.unique {g : Grammar} {parts : String → Parser} {c : Cursor}
    {a b : Outcome Result} (first : g.EndsWith parts c a) (second : g.EndsWith parts c b) :
    a = b := by
  have more : ∀ {rounds rounds' : Nat}, rounds ≤ rounds' →
      (g.parser rounds parts c).outcome.Approx (g.parser rounds' parts c).outcome :=
    fun le => g.parser_approx le (fun _ => .refl _) c
  obtain ⟨settled, rounds, rfl⟩ := first
  obtain ⟨settled', rounds', rfl⟩ := second
  rcases Nat.le_total rounds rounds' with le | le
  · exact (more le).eq_of_ne settled
  · exact ((more le).eq_of_ne settled').symm

end Grammar

/-- Parsers that are alike end alike in every context, and the contexts that copy the cursor keep it
where it is although the parsers may move theirs. -/
theorem ends_alike_of_parts_alike (parts others : String → Parser)
    (alike : ∀ name, (parts name).Alike (others name)) (context : Grammar) (c : Cursor) :
    (∀ rounds, (context.parser rounds parts c).outcome =
      (context.parser rounds others c).outcome) ∧
    (∀ outcome, context.EndsWith parts c outcome ↔ context.EndsWith others c outcome) ∧
    (∀ a b, context.EndsWith parts c a → context.EndsWith others c b → a = b) ∧
    (context.handling? = some .copied → ∀ rounds, (context.parser rounds parts c).lent = c) := by
  have same : ∀ rounds, (context.parser rounds parts c).outcome =
      (context.parser rounds others c).outcome :=
    fun rounds => context.parser_alike alike rounds c
  have transfer : ∀ outcome,
      context.EndsWith parts c outcome ↔ context.EndsWith others c outcome := by
    intro outcome
    simp only [Grammar.EndsWith, same]
  refine ⟨same, transfer, ?_, ?_⟩
  · intro a b first second
    exact ((transfer a).mp first).unique second
  · intro copied rounds
    exact context.parser_lent_of_copied rounds parts copied c

/-- A parser that runs off with its cursor even where it fails, and one that does not. The negation
looks at its cursor again after the attempt. -/
theorem ends_alike_of_parts_alike_not :
    ∃ (tidy stray : String → Parser) (context : Grammar) (c : Cursor) (r : Result),
      tidy = (fun _ => .word "ab") ∧
      stray = (fun _ c => { outcome := (Parser.word "ab" c).outcome, lent := c.advanceBy 7 }) ∧
      context = .many (.choice false [.skip (.rule "part"), .not (.rule "part")]) ∧
      c = Cursor.start "abxab" [] ∧
      (∀ name, (tidy name).Alike (stray name)) ∧ (tidy "part" c).lent ≠ (stray "part" c).lent ∧
      r = .success (.just (.list [.text "x"])) (c.advanceBy 5) 0 ∧
      context.EndsWith tidy c (.done r) ∧ context.EndsWith stray c (.done r) ∧
      (context.parser 4 stray c).lent = c := by
  let tidy : String → Parser := fun _ => .word "ab"
  let stray : String → Parser := fun _ c =>
    { outcome := (Parser.word "ab" c).outcome, lent := c.advanceBy 7 }
  let context : Grammar := .many (.choice false [.skip (.rule "part"), .not (.rule "part")])
  let c : Cursor := Cursor.start "abxab" []
  let r : Result := .success (.just (.list [.text "x"])) (c.advanceBy 5) 0
  have alike : ∀ name, (tidy name).Alike (stray name) := fun _ _ => rfl
  have apart : (tidy "part" c).lent ≠ (stray "part" c).lent := by
    intro same
    exact absurd (congrArg Cursor.position same) (by decide)
  have ends : context.EndsWith tidy c (.done r) := ⟨nofun, 4, rfl⟩
  obtain ⟨_, transfer, _, _⟩ := ends_alike_of_parts_alike tidy stray alike context c
  obtain ⟨_, _, _, kept⟩ :=
    ends_alike_of_parts_alike stray tidy (fun name => (alike name).symm) context c
  exact ⟨tidy, stray, context, c, r, rfl, rfl, rfl, rfl, alike, apart, rfl, ends,
    (transfer _).mp ends, kept rfl 4⟩

end Descent
