import Descent.Proofs.Attempt

/-! Chains of steps from position to position, and the repetitions that go through them. -/

namespace Descent

variable {α β : Type} {step : Nat → α → Nat → Prop} {fails : Nat → Nat → Prop}
  {i j k : Nat} {x : α} {xs ys : List α}

inductive Chain (step : Nat → α → Nat → Prop) : Nat → List α → Nat → Prop where
  | nil (i : Nat) : Chain step i [] i
  | cons {i j k : Nat} {x : α} {xs : List α} (first : step i x j) (advances : i < j)
      (later : Chain step j xs k) : Chain step i (x :: xs) k

/-- A chain that cannot go on: at its end a step fails or does not advance. -/
structure Greedy (step : Nat → α → Nat → Prop) (fails : Nat → Nat → Prop) (i : Nat)
    (xs : List α) (j : Nat) : Prop where
  chain : Chain step i xs j
  stuck : (∃ e, fails j e) ∨ ∃ x k, step j x k ∧ k ≤ j

namespace Chain

theorem length_le (chain : Chain step i xs j) : i + xs.length ≤ j := by
  induction chain with
  | nil i => exact Nat.le_refl i
  | cons first advances later ih =>
      rw [List.length_cons]
      omega

theorem le (chain : Chain step i xs j) : i ≤ j := by
  have longer := chain.length_le
  omega

theorem map_iff {step' : Nat → β → Nat → Prop} {f : α → β} {zs : List β}
    (each : ∀ i z j, step' i z j ↔ ∃ x, z = f x ∧ step i x j) :
    Chain step' i zs j ↔ ∃ xs, zs = xs.map f ∧ Chain step i xs j := by
  constructor
  · intro chain
    induction chain with
    | nil i => exact ⟨[], rfl, .nil i⟩
    | cons first advances later ih =>
        obtain ⟨x, rfl, inner⟩ := (each _ _ _).mp first
        obtain ⟨xs, rfl, rest⟩ := ih
        exact ⟨x :: xs, rfl, .cons inner advances rest⟩
  · intro whole
    obtain ⟨xs, rfl, chain⟩ := whole
    induction chain with
    | nil i => exact .nil i
    | cons first advances later ih =>
        exact .cons ((each _ _ _).mpr ⟨_, rfl, first⟩) advances ih

end Chain

namespace Greedy

theorem cons (first : step i x j) (advances : i < j) (later : Greedy step fails j xs k) :
    Greedy step fails i (x :: xs) k :=
  { chain := .cons first advances later.chain
    stuck := later.stuck }

theorem map_iff {step' : Nat → β → Nat → Prop} {f : α → β} {zs : List β}
    (each : ∀ i z j, step' i z j ↔ ∃ x, z = f x ∧ step i x j) :
    Greedy step' fails i zs j ↔ ∃ xs, zs = xs.map f ∧ Greedy step fails i xs j := by
  constructor
  · intro greedy
    obtain ⟨xs, same, chain⟩ := (Chain.map_iff each).mp greedy.chain
    refine ⟨xs, same, chain, ?_⟩
    rcases greedy.stuck with failed | ⟨z, k, last, still⟩
    · exact .inl failed
    · obtain ⟨x, _, inner⟩ := (each _ _ _).mp last
      exact .inr ⟨x, k, inner, still⟩
  · intro whole
    obtain ⟨xs, same, greedy⟩ := whole
    refine ⟨(Chain.map_iff each).mpr ⟨xs, same, greedy.chain⟩, ?_⟩
    rcases greedy.stuck with failed | ⟨x, k, last, still⟩
    · exact .inl failed
    · exact .inr ⟨f x, k, (each _ _ _).mpr ⟨x, rfl, last⟩, still⟩

/-- If each position allows one step only, no chain gets further than one that cannot go on. -/
theorem le_of_chain
    (unique : ∀ {i x y j k}, step i x j → step i y k → x = y ∧ j = k)
    (apart : ∀ {i x j e}, step i x j → ¬ fails i e)
    (greedy : Greedy step fails i xs k) (chain : Chain step i ys j) : j ≤ k := by
  induction chain generalizing xs with
  | nil i => exact greedy.chain.le
  | cons first advances later ih =>
      -- The other chain cannot end here, where a step advances, so it takes the same one.
      obtain ⟨whole, stuck⟩ := greedy
      cases whole with
      | nil i =>
          rcases stuck with ⟨e, failed⟩ | ⟨y, m, last, still⟩
          · exact absurd failed (apart first)
          · have same := (unique first last).2
            omega
      | cons other further rest =>
          obtain ⟨_, rfl⟩ := unique first other
          exact ih ⟨rest, stuck⟩

end Greedy

/-- A repetition matches along a chain that cannot go on. -/
theorem Repeats.matched_iff {collect : Maybe → List Payload} {step : Nat → Answer → Prop}
    {value : Maybe} :
    Repeats collect step i (.matched value j) ↔
      ∃ values, Greedy (fun i value j => step i (.matched value j)) (fun i e => step i (.failed e))
          i values j ∧
        value = .just (.list (values.flatMap collect)) := by
  constructor
  · intro repeats
    generalize whole : Answer.matched value j = a at repeats
    induction repeats generalizing value j with
    | failed last =>
        cases whole
        exact ⟨[], ⟨.nil _, .inl ⟨_, last⟩⟩, rfl⟩
    | still last still =>
        cases whole
        exact ⟨[], ⟨.nil _, .inr ⟨_, _, last, still⟩⟩, rfl⟩
    | raised last => cases whole
    | @next i m given b first advances later ih =>
        rcases later.list_or_raised with ⟨rest, stop, rfl⟩ | ⟨fault, rfl⟩
        · obtain ⟨values, greedy, same⟩ := ih rfl
          cases whole
          cases same
          exact ⟨given :: values, greedy.cons first advances, rfl⟩
        · cases whole
  · intro found
    obtain ⟨values, ⟨chain, stuck⟩, rfl⟩ := found
    induction chain with
    | nil i =>
        rcases stuck with ⟨e, last⟩ | ⟨value, k, last, still⟩
        · exact .failed last
        · exact .still last still
    | cons first advances later ih => exact .next first advances (ih stuck)

namespace Grammar

variable {defs : Definitions} {body : Body} {part : Grammar} {value : Maybe}

theorem many_matches_iff :
    (many part).Matches defs body i value j ↔
      ∃ values, Greedy (part.Matches defs body) (part.Fails defs body) i values j ∧
        value = .just (.list (values.flatMap Maybe.toList)) := by
  rw [matches_iff, Meaning.many_iff, Repeats.matched_iff, matches_eq, fails_eq]

theorem not_many_fails {e : Nat} : ¬ (many part).Fails defs body i e := by
  intro failed
  rcases (Meaning.many_iff.mp (fails_iff.mp failed)).list_or_raised with ⟨_, _, same⟩ | ⟨_, same⟩
  · cases same
  · cases same

/-- A repetition matches along a chain of matches of its part, as far as any such chain goes. It
lists their payloads. At its own end it matches nothing, so repeating it once more gets no
further. -/
theorem many_takes_longest_chain (defs : Definitions) (part : Grammar) (body : Body) (i : Nat)
    (r : Result) (ends : ((many part).parse (body.cursor i) defs).outcome = .done r) :
    (∃ values, Greedy (part.Matches defs body) (part.Fails defs body) i values r.stop ∧
      r = .success (.just (.list (values.flatMap Maybe.toList))) (body.cursor r.stop) i ∧
      values.length ≤ r.stop - i) ∧
    (∀ values j, Chain (part.Matches defs body) i values j → j ≤ r.stop) ∧
    (many part).Matches defs body r.stop (.just (.list [])) r.stop ∧
    ∃ value, (many (many part)).Matches defs body i value r.stop := by
  rcases matches_or_fails ends with ⟨value, found, same⟩ | ⟨failed, _⟩
  · obtain ⟨values, greedy, rfl⟩ := many_matches_iff.mp found
    have longer := greedy.chain.length_le
    have again : (many part).Matches defs body r.stop (.just (.list [])) r.stop :=
      many_matches_iff.mpr ⟨[], ⟨.nil _, greedy.stuck⟩, rfl⟩
    -- So an outer repetition stops there too, after one round or none.
    have stays : Greedy ((many part).Matches defs body) ((many part).Fails defs body) r.stop []
        r.stop :=
      ⟨.nil _, .inr ⟨_, _, again, Nat.le_refl _⟩⟩
    refine ⟨⟨values, greedy, same, by omega⟩, ?_, again, ?_⟩
    · intro others j chain
      exact greedy.le_of_chain (fun first second => first.unique second)
        (fun first => first.not_fails) chain
    · by_cases advances : i < r.stop
      · exact ⟨_, many_matches_iff.mpr ⟨_, stays.cons found advances, rfl⟩⟩
      · have here : i = r.stop := by omega
        rw [here]
        exact ⟨_, many_matches_iff.mpr ⟨[], stays, rfl⟩⟩
  · exact absurd failed not_many_fails

theorem many_takes_longest_chain_letters :
    ∃ (part : Grammar) (body : Body) (r : Result),
      part = .firstOf [.sequence ["a", "b"], .skip "a", .endOfText] ∧
      body = { text := "aba", name := [] } ∧
      r = .success (.just (.list [.list [.text "a", .text "b"]])) (body.cursor 3) 0 ∧
      ((Grammar.many part).parse (body.cursor 0)).outcome = .done r ∧
      (∃ values, Greedy (part.Matches [] body) (part.Fails [] body) 0 values r.stop ∧
        r = .success (.just (.list (values.flatMap Maybe.toList))) (body.cursor r.stop) 0 ∧
        values.length ≤ r.stop - 0) ∧
      (Grammar.many part).Matches [] body r.stop (.just (.list [])) r.stop ∧
      ∃ value, (Grammar.many (.many part)).Matches [] body 0 value r.stop := by
  let part : Grammar := .firstOf [.sequence ["a", "b"], .skip "a", .endOfText]
  let body : Body := { text := "aba", name := [] }
  let r : Result := .success (.just (.list [.list [.text "a", .text "b"]])) (body.cursor 3) 0
  have run : ((Grammar.many part).parse (body.cursor 0)).outcome = .done r := rfl
  obtain ⟨chain, _, again, twice⟩ := many_takes_longest_chain [] part body 0 r run
  exact ⟨part, body, r, rfl, rfl, rfl, run, chain, again, twice⟩

end Grammar

end Descent
