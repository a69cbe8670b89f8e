import Descent.Proofs.Yields

/-! A run that is not cut short by its bounds ends with an answer of the grammar. -/

namespace Descent

namespace Parser

def Sound (body : Body) (means : Nat → Answer → Prop) (part : Parser) : Prop :=
  ∀ i, (part (body.cursor i)).outcome = .exhausted ∨ ∃ a, means i a ∧ part.Yields body i a

namespace Sound

variable {defs : Definitions} {body : Body} {part first : Grammar} {parts others : List Grammar}
  {p q : Parser} {run : Grammar → Parser}

theorem of_yields {means : Nat → Answer → Prop} {answer : Nat → Answer}
    (meaning : ∀ i, means i (answer i)) (yields : ∀ i, p.Yields body i (answer i)) :
    Sound body means p :=
  fun i => .inr ⟨answer i, meaning i, yields i⟩

theorem of_inner {means whole : Nat → Answer → Prop} (inner : Sound body means p)
    (short : ∀ i, (p (body.cursor i)).outcome = .exhausted →
      (q (body.cursor i)).outcome = .exhausted)
    (answers : ∀ i a, means i a → p.Yields body i a → ∃ b, whole i b ∧ q.Yields body i b) :
    Sound body whole q := by
  intro i
  rcases inner i with unsettled | ⟨a, meaning, yields⟩
  · exact .inl (short i unsettled)
  · exact .inr (answers i a meaning yields)

theorem sequence
    (each : ∀ part ∈ parts, Sound body (Meaning defs body.text part) (run part)) :
    Sound body (Meaning defs body.text (.sequence parts)) (Parser.sequence (parts.map run)) := by
  induction parts with
  | nil => exact of_yields .sequence_nil .sequence_nil
  | cons part parts ih =>
      intro i
      have rest := ih fun part member => each part (List.mem_cons_of_mem _ member)
      rcases each part List.mem_cons_self i with unsettled | ⟨a, meaning, yields⟩
      · left
        simp only [List.map_cons, sequence_cons, unsettled, Outcome.bind_exhausted]
      · cases a with
        | failed e => exact .inr ⟨_, .sequence_stop meaning rfl, .sequence_stop yields rfl⟩
        | raised fault => exact .inr ⟨_, .sequence_stop meaning rfl, .sequence_stop yields rfl⟩
        | matched value j =>
            rcases rest j with unsettled | ⟨a, later, yieldsLater⟩
            · left
              rw [List.map_cons, sequence_cons, yields]
              simp only [Answer.outcome_matched, Outcome.bind_done, unsettled,
                Outcome.bind_exhausted]
            · exact .inr ⟨_, .sequence_next meaning later, .sequence_next yields yieldsLater⟩

theorem choice (deepest : Bool)
    (each : ∀ part ∈ parts, Sound body (Meaning defs body.text part) (run part)) :
    Sound body (Meaning defs body.text (.choice deepest parts))
      (Parser.choice deepest (parts.map run)) := by
  induction parts with
  | nil => exact of_yields (.choice_nil deepest) (.choice_nil deepest)
  | cons part parts ih =>
      intro i
      have rest := ih fun part member => each part (List.mem_cons_of_mem _ member)
      rcases each part List.mem_cons_self i with unsettled | ⟨a, meaning, yields⟩
      · left
        simp only [List.map_cons, Parser.choice, firstSuccess, unsettled, Outcome.bind_exhausted]
      · cases a with
        | matched value j => exact .inr ⟨_, .choice_first meaning rfl, .choice_first yields rfl⟩
        | raised fault => exact .inr ⟨_, .choice_first meaning rfl, .choice_first yields rfl⟩
        | failed e =>
            have ahead : i ≤ e := meaning.within.1
            rcases rest i with unsettled | ⟨a, later, yieldsLater⟩
            · left
              cases deepest with
              | false => rw [List.map_cons, choice_false_cons _ _ _ _ _ yields, unsettled]
              | true =>
                  rw [List.map_cons, choice_true_cons _ _ _ _ _ yields ahead, unsettled]
                  rfl
            · cases a with
              | matched value k =>
                  exact .inr ⟨_, .choice_later meaning later rfl,
                    .choice_later yields ahead yieldsLater rfl⟩
              | raised fault =>
                  exact .inr ⟨_, .choice_later meaning later rfl,
                    .choice_later yields ahead yieldsLater rfl⟩
              | failed f =>
                  have start : deepest = false → f = i := by
                    rintro rfl
                    exact later.choice_false_failed
                  exact .inr ⟨_, .choice_failed meaning later,
                    .choice_failed yields ahead yieldsLater start⟩

theorem both (start : Sound body (Meaning defs body.text first) p)
    (each : ∀ part ∈ others, Sound body (Meaning defs body.text part) (run part)) :
    Sound body (Meaning defs body.text (.both first others)) (Parser.both p (others.map run)) := by
  intro i
  rcases start i with unsettled | ⟨a, meaning, yields⟩
  · left
    simp only [Parser.both, unsettled, Outcome.bind_exhausted]
  cases a with
  | failed e => exact .inr ⟨_, .both_first meaning rfl, .both_first yields rfl⟩
  | raised fault => exact .inr ⟨_, .both_first meaning rfl, .both_first yields rfl⟩
  | matched value j =>
      induction others with
      | nil => exact .inr ⟨_, .both_nil meaning, .both_nil yields⟩
      | cons part others ih =>
          rcases each part List.mem_cons_self i with unsettled | ⟨a, check, yieldsCheck⟩
          · left
            simp only [Parser.both, List.map_cons, firstFailure, yields.outcome_eq,
              Answer.outcome_matched, Outcome.bind_done, Result.succeeded, if_true, unsettled,
              Outcome.bind_exhausted]
          · cases a with
            | failed e =>
                exact .inr ⟨_, .both_other meaning check rfl, .both_other yields yieldsCheck rfl⟩
            | raised fault =>
                exact .inr ⟨_, .both_other meaning check rfl, .both_other yields yieldsCheck rfl⟩
            | matched other k =>
                have step := both_cons p (run part) (others.map run) _ _ _ _ _ _ _ yields
                  yieldsCheck
                rcases ih fun part member => each part (List.mem_cons_of_mem _ member) with
                  unsettled | ⟨a, later, yieldsLater⟩
                · exact .inl (step.trans unsettled)
                · exact .inr ⟨_, .both_next meaning check later,
                    .both_next yields yieldsCheck yieldsLater⟩

theorem many (rounds : Nat) (inner : Sound body (Meaning defs body.text part) p) :
    Sound body (Meaning defs body.text (.many part)) (Parser.many rounds p) := by
  induction rounds with
  | zero => exact fun _ => .inl rfl
  | succ rounds ih =>
      intro i
      rcases inner i with unsettled | ⟨a, meaning, yields⟩
      · left
        simp only [many_succ, unsettled, Outcome.bind_exhausted]
      · cases a with
        | failed e => exact .inr ⟨_, .many_failed meaning, .many_failed rounds yields⟩
        | raised fault => exact .inr ⟨_, .many_raised meaning, .many_raised rounds yields⟩
        | matched value j =>
            by_cases advances : i < j
            · rcases ih j with unsettled | ⟨a, later, yieldsLater⟩
              · left
                rw [many_succ, yields]
                simp [Result.stop, advances, unsettled]
              · exact .inr ⟨_, .many_next meaning advances later,
                  .many_next rounds yields advances yieldsLater⟩
            · have still : j ≤ i := Nat.not_lt.mp advances
              exact .inr ⟨_, .many_still meaning still, .many_still rounds yields still⟩

theorem skip (inner : Sound body (Meaning defs body.text part) p) :
    Sound body (Meaning defs body.text (.skip part)) (Parser.skip p) := by
  apply inner.of_inner
  · intro i unsettled
    simp only [Parser.skip, unsettled, Outcome.bind_exhausted]
  · intro i a meaning yields
    cases a with
    | matched value j => exact ⟨_, .skip_matched meaning, .skip_matched yields⟩
    | failed e => exact ⟨_, .skip_stop meaning rfl, .skip_stop yields rfl⟩
    | raised fault => exact ⟨_, .skip_stop meaning rfl, .skip_stop yields rfl⟩

theorem option (default : Maybe) (inner : Sound body (Meaning defs body.text part) p) :
    Sound body (Meaning defs body.text (.option default part)) (Parser.option default p) := by
  apply inner.of_inner
  · intro i unsettled
    simp only [Parser.option, unsettled, Outcome.bind_exhausted]
  · intro i a meaning yields
    cases a with
    | matched value j => exact ⟨_, .option_some meaning rfl, .option_some default yields rfl⟩
    | failed e => exact ⟨_, .option_none meaning, .option_none default yields⟩
    | raised fault => exact ⟨_, .option_some meaning rfl, .option_some default yields rfl⟩

theorem peek (inner : Sound body (Meaning defs body.text part) p) :
    Sound body (Meaning defs body.text (.peek part)) (Parser.peek p) := by
  apply inner.of_inner
  · intro i unsettled
    simp only [Parser.peek, unsettled, Outcome.bind_exhausted]
  · intro i a meaning yields
    cases a with
    | matched value j => exact ⟨_, .peek_matched meaning, .peek_matched yields⟩
    | failed e => exact ⟨_, .peek_stop meaning rfl, .peek_stop yields rfl⟩
    | raised fault => exact ⟨_, .peek_stop meaning rfl, .peek_stop yields rfl⟩

theorem not (inner : Sound body (Meaning defs body.text part) p) :
    Sound body (Meaning defs body.text (.not part)) (Parser.not p) := by
  apply inner.of_inner
  · intro i unsettled
    simp only [Parser.not, unsettled]
  · intro i a meaning yields
    cases a with
    | matched value j => exact ⟨_, .not_matched meaning, .not_matched yields⟩
    | failed e => exact ⟨_, .not_failed meaning, .not_failed yields⟩
    | raised fault => exact ⟨_, .not_raised meaning, .not_raised yields⟩

theorem map (f : Payload → Except Fault Payload)
    (inner : Sound body (Meaning defs body.text part) p) :
    Sound body (Meaning defs body.text (.map f part)) (Parser.map f p) := by
  apply inner.of_inner
  · intro i unsettled
    simp only [Parser.map, unsettled, Outcome.bind_exhausted]
  · intro i a meaning yields
    cases a with
    | failed e => exact ⟨_, .map_stop meaning rfl, .map_stop yields rfl⟩
    | raised fault => exact ⟨_, .map_stop meaning rfl, .map_stop yields rfl⟩
    | matched value j =>
        obtain ⟨present, payload⟩ := value
        cases present with
        | false => exact ⟨_, .map_absent meaning rfl, .map_absent yields rfl⟩
        | true =>
            cases applied : f payload with
            | ok image => exact ⟨_, .map_done meaning applied, .map_done yields applied⟩
            | error fault => exact ⟨_, .map_raised meaning applied, .map_raised yields applied⟩

end Sound

end Parser

namespace Grammar

theorem parser_sound (defs : Definitions) (body : Body) (rounds : Nat) {rules : String → Parser}
    (sound : ∀ name, Parser.Sound body (Meaning defs body.text (.rule name)) (rules name))
    (g : Grammar) : Parser.Sound body (Meaning defs body.text g) (g.parser rounds rules) := by
  induction g with
  | oneOf set => exact .of_yields (.oneOf set) (.character _)
  | noneOf set => exact .of_yields (.noneOf set) (.character _)
  | word w => exact .of_yields (.word w) (.word w)
  | wordIgnoringCase w => exact .of_yields (.wordIgnoringCase w) (.wordIgnoringCase w)
  | endOfText => exact .of_yields .endOfText .endOfText
  | sequence parts ih => rw [parser, parsers_eq_map]; exact .sequence ih
  | choice deepest parts ih => rw [parser, parsers_eq_map]; exact .choice deepest ih
  | both first others ihFirst ih => rw [parser, parsers_eq_map]; exact .both ihFirst ih
  | many part ih => exact .many rounds ih
  | skip part ih => exact .skip ih
  | option default part ih => exact .option default ih
  | peek part ih => exact .peek ih
  | not part ih => exact .not ih
  | map f part ih => exact .map f ih
  | rule name => exact sound name

end Grammar

theorem Definitions.parser_sound (defs : Definitions) (body : Body) (rounds depth : Nat)
    (name : String) :
    Parser.Sound body (Meaning defs body.text (.rule name)) (defs.parser rounds depth name) := by
  induction depth generalizing name with
  | zero => exact fun _ => .inl rfl
  | succ depth ih =>
      intro i
      cases found : defs.lookup name with
      | none =>
          refine .inr ⟨_, .rule_undefined found, ?_⟩
          simp [Parser.Yields, Definitions.parser, found]
      | some g =>
          rcases g.parser_sound defs body rounds ih i with unsettled | ⟨a, meaning, yields⟩
          · left
            simp [Definitions.parser, found, unsettled]
          · refine .inr ⟨a, .rule found meaning, ?_⟩
            simp only [Parser.Yields, Definitions.parser, found]
            exact yields

theorem Grammar.parse_sound (defs : Definitions) (body : Body) (g : Grammar) :
    Parser.Sound body (Meaning defs body.text g) (g.parse · defs) :=
  fun i => g.parser_sound defs body _ (defs.parser_sound body _ _) i

end Descent
