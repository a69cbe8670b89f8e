import Descent.Proofs.Attempt

/-! Repetitions that are written in different ways and match the same. -/

namespace Descent

inductive Answer.Alike (collect collect' : Maybe → List Payload) : Answer → Answer → Prop where
  | matched {value value' : Maybe} {j : Nat} (same : collect value = collect' value') :
      Alike collect collect' (.matched value j) (.matched value' j)
  | failed (e e' : Nat) : Alike collect collect' (.failed e) (.failed e')
  | raised (fault : Fault) : Alike collect collect' (.raised fault) (.raised fault)

theorem Repeats.carry {collect collect' : Maybe → List Payload} {step step' : Nat → Answer → Prop}
    {inside : Nat → Prop} {i : Nat} {a : Answer}
    (each : ∀ i a, inside i → step i a → ∃ b, step' i b ∧ Answer.Alike collect collect' a b)
    (stays : ∀ i value j, inside i → step i (.matched value j) → inside j)
    (repeats : Repeats collect step i a) (start : inside i) : Repeats collect' step' i a := by
  induction repeats with
  | failed last =>
      obtain ⟨b, other, alike⟩ := each _ _ start last
      cases alike
      exact .failed other
  | still last still =>
      obtain ⟨b, other, alike⟩ := each _ _ start last
      cases alike
      exact .still other still
  | raised last =>
      obtain ⟨b, other, alike⟩ := each _ _ start last
      cases alike
      exact .raised other
  | next first advances later ih =>
      obtain ⟨b, other, alike⟩ := each _ _ start first
      cases alike with
      | matched same =>
          rw [same]
          exact .next other advances (ih (stays _ _ _ start first))

namespace Meaning

variable {defs : Definitions} {text : Text} {part : Grammar} {i j : Nat} {value : Maybe}
  {a b : Answer}

theorem emptyWord_matched (inside : i ≤ text.length) :
    Meaning defs text (.skip (.word [])) i (.matched .nothing i) := by
  have meaning : Meaning defs text (.word []) i _ := .word [] i
  rw [Answer.word, if_pos ⟨inside, Text.hasAt_nil text i⟩] at meaning
  exact .skip_matched meaning

theorem emptyWord_failed (outside : text.length < i) :
    Meaning defs text (.skip (.word [])) i (.failed i) := by
  have meaning : Meaning defs text (.word []) i _ := .word [] i
  rw [Answer.word, if_neg (by omega)] at meaning
  exact .skip_stop meaning rfl

theorem pair_of_part (inside : i ≤ text.length) (meaning : Meaning defs text part i a) :
    ∃ b, Meaning defs text (.sequence [.skip (.word []), part]) i b ∧
      Answer.Alike Maybe.toList Maybe.items a b := by
  have empty : Meaning defs text (.skip (.word [])) i (.matched .nothing i) :=
    emptyWord_matched inside
  cases a with
  | matched value j =>
      have rest := Meaning.sequence_next meaning (.sequence_nil j)
      refine ⟨_, .sequence_next empty rest, .matched ?_⟩
      simp [Maybe.toList, Maybe.nothing]
  | failed e => exact ⟨_, .sequence_next empty (.sequence_stop meaning rfl), .failed e e⟩
  | raised fault => exact ⟨_, .sequence_next empty (.sequence_stop meaning rfl), .raised fault⟩

theorem part_of_pair (inside : i ≤ text.length)
    (meaning : Meaning defs text (.sequence [.skip (.word []), part]) i b) :
    ∃ a, Meaning defs text part i a ∧ Answer.Alike Maybe.items Maybe.toList b a := by
  have empty : Meaning defs text (.skip (.word [])) i (.matched .nothing i) :=
    emptyWord_matched inside
  have found : ∃ a, Meaning defs text part i a := by
    cases sequence_cons_iff.mp meaning with
    | stop begins stops =>
        rw [begins.unique empty] at stops
        cases stops
    | next begins later =>
        cases begins.unique empty
        cases sequence_cons_iff.mp later with
        | stop begins _ => exact ⟨_, begins⟩
        | next begins _ => exact ⟨_, begins⟩
  -- The pair has one answer only, which is the one made of the answer of the part.
  obtain ⟨a, inner⟩ := found
  obtain ⟨c, whole, alike⟩ := pair_of_part inside inner
  rw [meaning.unique whole]
  refine ⟨a, inner, ?_⟩
  cases alike with
  | matched same => exact .matched same.symm
  | failed e e' => exact .failed e' e
  | raised fault => exact .raised fault

theorem repeats_empty_iff (begins : Meaning defs text part i (.matched value j)) :
    Repeats Maybe.items (Meaning defs text (.sequence [.skip (.word []), part])) j a ↔
      Meaning defs text (.many part) j a := by
  by_cases inside : j ≤ text.length
  · have stays : ∀ (g : Grammar) (k : Nat) (value : Maybe) (m : Nat), k ≤ text.length →
        Meaning defs text g k (.matched value m) → m ≤ text.length := by
      intro g k value m low meaning
      have high := meaning.stop_le
      omega
    rw [many_iff]
    constructor
    · intro repeats
      exact repeats.carry (fun _ _ => part_of_pair) (stays _) inside
    · intro repeats
      exact repeats.carry (fun _ _ => pair_of_part) (stays _) inside
  · -- The match ended past the end, so it did not advance, and it will not do so there again.
    have outside : text.length < j := by omega
    have still : j = i := by
      have low := begins.le_stop
      have high := begins.stop_le
      omega
    subst still
    have missing : Meaning defs text (.sequence [.skip (.word []), part]) j (.failed j) :=
      .sequence_stop (emptyWord_failed outside) rfl
    have nothing : Meaning defs text (.many part) j (.matched (.just (.list [])) j) :=
      .many_still begins (Nat.le_refl j)
    constructor
    · intro repeats
      cases repeats with
      | failed last => exact nothing
      | still last _ => cases last.unique missing
      | raised last => cases last.unique missing
      | next first _ _ => cases first.unique missing
    · intro meaning
      rw [meaning.unique nothing]
      exact .failed missing

theorem oneOrMore_iff_separatedBy :
    Meaning defs text (.oneOrMore part) i a ↔
      Meaning defs text (.separatedBy part (.skip (.word []))) i a := by
  rw [oneOrMore_iff, separatedBy_iff]
  constructor
  · intro followed
    cases followed with
    | stop begins stops => exact .stop begins stops
    | next begins later => exact .next begins ((repeats_empty_iff begins).mpr later)
  · intro followed
    cases followed with
    | stop begins stops => exact .stop begins stops
    | next begins later => exact .next begins ((repeats_empty_iff begins).mp later)

/-- Where the part does not match without advancing, its first match may be taken out. -/
theorem many_iff_option (advances : ∀ value, ¬ Meaning defs text part i (.matched value i)) :
    Meaning defs text (.many part) i a ↔
      Meaning defs text (.optionalOr (.list []) (.oneOrMore part)) i a := by
  constructor
  · intro meaning
    cases many_iff.mp meaning with
    | failed last => exact .option_none (oneOrMore_iff.mpr (.stop last rfl))
    | @still i j value last still =>
        have here : j = i := Nat.le_antisymm still last.le_stop
        subst here
        exact absurd last (advances value)
    | raised last => exact .option_some (oneOrMore_iff.mpr (.stop last rfl)) rfl
    | next first _ later =>
        have whole := oneOrMore_iff.mpr (.next first (many_iff.mpr later))
        rcases later.list_or_raised with ⟨values, k, rfl⟩ | ⟨fault, rfl⟩
        · exact .option_some whole rfl
        · exact .option_some whole rfl
  · intro meaning
    cases meaning with
    | option_some inner holds =>
        cases oneOrMore_iff.mp inner with
        | stop begins stops =>
            cases a with
            | matched value j => cases stops
            | failed e => cases holds
            | raised fault => exact .many_raised begins
        | @next j value b begins later =>
            have further : i < j := by
              refine Nat.lt_of_le_of_ne begins.le_stop ?_
              intro here
              subst here
              exact advances value begins
            exact .many_next begins further later
    | option_none inner =>
        generalize whole : Answer.failed _ = b at inner
        cases oneOrMore_iff.mp inner with
        | stop begins stops =>
            subst whole
            exact .many_failed begins
        | next begins later =>
            rcases (many_iff.mp later).list_or_raised with ⟨_, _, rfl⟩ | ⟨_, rfl⟩
            · cases whole
            · cases whole

end Meaning

namespace Grammar

/-- One match or more are the same as matches with empty separators between them. Any number of
matches is the same as one or more or else none, unless the first one does not advance. -/
theorem repetitions_agree (defs : Definitions) (part : Grammar) (body : Body) (i : Nat) :
    (oneOrMore part).parse (body.cursor i) defs =
      (separatedBy part (.skip (.word []))).parse (body.cursor i) defs ∧
    ((∀ value, ¬ part.Matches defs body i value i) →
      (many part).parse (body.cursor i) defs =
        (optionalOr (.list []) (oneOrMore part)).parse (body.cursor i) defs) := by
  constructor
  · exact parse_congr (fun _ => Meaning.oneOrMore_iff_separatedBy) rfl
  · intro advances
    simp only [matches_iff] at advances
    exact parse_congr (fun _ => Meaning.many_iff_option advances) rfl

theorem repetitions_agree_letters :
    ∃ (part : Grammar) (body : Body) (r : Result),
      part = .firstOf [.skip "a", "b", .endOfText] ∧ body = { text := "ab", name := [] } ∧
      r = .success (.just (.list [.text "b"])) (body.cursor 2) 0 ∧
      (∀ value, ¬ part.Matches [] body 0 value 0) ∧
      ((Grammar.many part).parse (body.cursor 0)).outcome = .done r ∧
      (Grammar.oneOrMore part).parse (body.cursor 0) =
        (Grammar.separatedBy part (.skip (.word []))).parse (body.cursor 0) ∧
      (Grammar.many part).parse (body.cursor 0) =
        (Grammar.optionalOr (.list []) (.oneOrMore part)).parse (body.cursor 0) := by
  let part : Grammar := .firstOf [.skip "a", "b", .endOfText]
  let body : Body := { text := "ab", name := [] }
  let r : Result := .success (.just (.list [.text "b"])) (body.cursor 2) 0
  have first : part.Matches [] body 0 .nothing 1 := rfl
  have advances : ∀ value, ¬ part.Matches [] body 0 value 0 := by
    intro value still
    have same := (first.unique still).2
    omega
  obtain ⟨separated, option⟩ := repetitions_agree [] part body 0
  exact ⟨part, body, r, rfl, rfl, rfl, advances, rfl, separated, option advances⟩

end Grammar

end Descent
