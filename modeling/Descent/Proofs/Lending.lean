import Descent.Grammar.Parse

/-! Where a run leaves the cursor that it was lent. -/

namespace Descent

/-- A grammar matches with the very cursor that it is lent, or with a copy of it. -/
inductive Handling where
  | direct
  | copied

def Handling.after : Handling → Cursor → Result → Cursor
  | direct, _, .success _ state _ => state
  | direct, c, .failure .. => c
  | copied, c, _ => c

namespace Grammar

/-- What the outermost shape says, which is nothing where a grammar does as its part does. -/
def handling? : Grammar → Option Handling
  | oneOf _ | noneOf _ | word _ | wordIgnoringCase _ | endOfText | not _ => some .direct
  | sequence _ | choice .. | both .. | many _ | option .. | peek _ => some .copied
  | skip _ | map .. | rule _ => none

inductive Handles (defs : Definitions) : Grammar → Handling → Prop where
  | shape {g : Grammar} {handling : Handling} (known : g.handling? = some handling) :
      Handles defs g handling
  | skip {part : Grammar} {handling : Handling} (inner : Handles defs part handling) :
      Handles defs (.skip part) handling
  | map {f : Payload → Except Fault Payload} {part : Grammar} {handling : Handling}
      (inner : Handles defs part handling) : Handles defs (.map f part) handling
  | rule {name : String} {g : Grammar} {handling : Handling} (found : defs.lookup name = some g)
      (body : Handles defs g handling) : Handles defs (.rule name) handling

namespace Handles

variable {defs : Definitions} {g part : Grammar} {handling : Handling}

theorem skip_iff : (Grammar.skip part).Handles defs handling ↔ part.Handles defs handling := by
  constructor
  · intro whole
    cases whole with
    | shape known => simp [handling?] at known
    | skip inner => exact inner
  · exact .skip

theorem map_iff {f : Payload → Except Fault Payload} :
    (Grammar.map f part).Handles defs handling ↔ part.Handles defs handling := by
  constructor
  · intro whole
    cases whole with
    | shape known => simp [handling?] at known
    | map inner => exact inner
  · exact .map

theorem rule_iff {name : String} (found : defs.lookup name = some g) :
    (Grammar.rule name).Handles defs handling ↔ g.Handles defs handling := by
  constructor
  · intro whole
    cases whole with
    | shape known => simp [handling?] at known
    | rule other body =>
        rw [found] at other
        rw [Option.some.inj other]
        exact body
  · exact .rule found

theorem shape_iff {own : Handling} (known : g.handling? = some own) :
    g.Handles defs handling ↔ own = handling := by
  constructor
  · intro whole
    cases whole with
    | shape other => exact Option.some.inj (known.symm.trans other)
    | skip _ => simp [handling?] at known
    | map _ => simp [handling?] at known
    | rule _ _ => simp [handling?] at known
  · rintro rfl
    exact .shape known

theorem unique {other : Handling} (first : g.Handles defs handling)
    (second : g.Handles defs other) : handling = other := by
  induction first with
  | shape known => exact (shape_iff known).mp second
  | skip _ ih => exact ih (skip_iff.mp second)
  | map _ ih => exact ih (map_iff.mp second)
  | rule found _ ih => exact ih ((rule_iff found).mp second)

end Handles

end Grammar

inductive Reply.Direct (c : Cursor) : Reply → Prop where
  | consume (value : Payload) (n : Nat) : Direct c (.consume value c n)
  | refuse : Direct c (.refuse c)
  | raised (fault : Fault) : Direct c { outcome := .raised fault, lent := c }
  | exhausted : Direct c { outcome := .exhausted, lent := c }

namespace Parser

theorem character_direct (accepts : CodePoint → Bool) (c : Cursor) :
    (character accepts c).Direct c := by
  rw [character]
  split
  · split
    · exact .consume _ 1
    · exact .refuse
  · exact .refuse

theorem word_direct (w : Text) (c : Cursor) : (word w c).Direct c := by
  rw [word]
  split
  · exact .consume _ _
  · exact .refuse

theorem wordIgnoringCase_direct (w : Text) (c : Cursor) : (wordIgnoringCase w c).Direct c := by
  simp only [wordIgnoringCase]
  split
  · exact .consume _ _
  · exact .refuse

theorem endOfText_direct (c : Cursor) : (endOfText c).Direct c := by
  rw [endOfText]
  split
  · exact .consume _ 0
  · exact .refuse

theorem not_direct (part : Parser) (c : Cursor) : (not part c).Direct c := by
  rw [not]
  split
  · split
    · exact .refuse
    · exact character_direct _ c
  · exact .raised _
  · exact .exhausted

end Parser

theorem Grammar.parser_direct (rounds : Nat) (rules : String → Parser) {g : Grammar}
    (direct : g.handling? = some .direct) (c : Cursor) : (g.parser rounds rules c).Direct c := by
  cases g <;> cases direct
  case oneOf set => exact Parser.character_direct _ c
  case noneOf set => exact Parser.character_direct _ c
  case word w => exact Parser.word_direct w c
  case wordIgnoringCase w => exact Parser.wordIgnoringCase_direct w c
  case endOfText => exact Parser.endOfText_direct c
  case not part => exact Parser.not_direct _ c

/-- A grammar that copies the cursor leaves it alone, whatever its parts do and however it ends. -/
theorem Grammar.parser_lent_of_copied (rounds : Nat) (rules : String → Parser) {g : Grammar}
    (copied : g.handling? = some .copied) (c : Cursor) : (g.parser rounds rules c).lent = c := by
  cases g <;> cases copied <;> rfl

def Reply.Leaves (reply : Reply) (handling : Handling) (c : Cursor) : Prop :=
  ∀ r, reply.outcome = .done r → reply.lent = handling.after c r

namespace Reply.Leaves

variable {reply : Reply} {handling : Handling} {c : Cursor}

theorem of_direct (direct : reply.Direct c) : reply.Leaves .direct c := by
  intro r ends
  cases direct <;> cases ends <;> rfl

theorem bind {next : Result → Outcome Result} (inner : reply.Leaves handling c)
    (keeps : ∀ r r', next r = .done r' → handling.after c r' = handling.after c r) :
    ({ reply with outcome := reply.outcome >>= next } : Reply).Leaves handling c := by
  intro r' ends
  obtain ⟨r, part, rest⟩ := Outcome.bind_eq_done.mp ends
  rw [inner r part, keeps r r' rest]

theorem skip {part : Parser} (inner : (part c).Leaves handling c) :
    (Parser.skip part c).Leaves handling c := by
  apply inner.bind
  intro r r' rest
  cases r with
  | success value state start => cases rest; cases handling <;> rfl
  | failure state start => cases rest; rfl

theorem map (f : Payload → Except Fault Payload) {part : Parser}
    (inner : (part c).Leaves handling c) : (Parser.map f part c).Leaves handling c := by
  apply inner.bind
  intro r r' rest
  cases r with
  | failure state start => cases rest; rfl
  | success value state start =>
      by_cases present : value.present = true
      · simp only [present, if_true] at rest
        obtain ⟨image, _, same⟩ := Outcome.bind_eq_done.mp rest
        cases same
        cases handling <;> rfl
      · simp only [present, Bool.false_eq_true, if_false] at rest
        cases rest
        rfl

end Reply.Leaves

namespace Grammar

/-- Only skips, mappings and names lend on the cursor that they were lent. -/
theorem parser_leaves (rounds : Nat) (rules : String → Parser) {g : Grammar}
    {handling : Handling} (known : g.handling? = some handling) (c : Cursor) :
    (g.parser rounds rules c).Leaves handling c := by
  cases handling with
  | direct => exact .of_direct (g.parser_direct rounds rules known c)
  | copied => exact fun _ _ => g.parser_lent_of_copied rounds rules known c

def Predicts (defs : Definitions) (g : Grammar) (part : Parser) : Prop :=
  ∀ c r, (part c).outcome = .done r →
    ∃ handling, g.Handles defs handling ∧ (part c).Leaves handling c

theorem parser_predicts (defs : Definitions) (rounds : Nat) {rules : String → Parser}
    (known : ∀ name, Predicts defs (.rule name) (rules name)) (g : Grammar) :
    Predicts defs g (g.parser rounds rules) := by
  have own : ∀ {g : Grammar} {handling : Handling}, g.handling? = some handling →
      Predicts defs g (g.parser rounds rules) :=
    fun shape c _ _ => ⟨_, .shape shape, parser_leaves rounds rules shape c⟩
  induction g with
  | skip part ih =>
      intro c r ends
      obtain ⟨s, inner, _⟩ := Outcome.bind_eq_done.mp ends
      obtain ⟨handling, handles, leaves⟩ := ih c s inner
      exact ⟨handling, .skip handles, leaves.skip⟩
  | map f part ih =>
      intro c r ends
      obtain ⟨s, inner, _⟩ := Outcome.bind_eq_done.mp ends
      obtain ⟨handling, handles, leaves⟩ := ih c s inner
      exact ⟨handling, .map handles, leaves.map f⟩
  | rule name => exact known name
  | _ => exact own rfl

end Grammar

theorem Definitions.parser_predicts (defs : Definitions) (rounds depth : Nat) (name : String) :
    Grammar.Predicts defs (.rule name) (defs.parser rounds depth name) := by
  induction depth generalizing name with
  | zero => exact fun _ _ ends => nomatch ends
  | succ depth ih =>
      intro c r ends
      simp only [Definitions.parser] at ends ⊢
      cases found : defs.lookup name with
      | none => simp [found] at ends
      | some g =>
          simp only [found] at ends ⊢
          -- One unfolding deeper the body is run with the rules of the induction hypothesis.
          obtain ⟨handling, handles, leaves⟩ := g.parser_predicts defs rounds ih c r ends
          exact ⟨handling, .rule found handles, leaves⟩

theorem Grammar.parse_predicts (defs : Definitions) (g : Grammar) :
    Grammar.Predicts defs g (g.parse · defs) :=
  fun c => g.parser_predicts defs _ (defs.parser_predicts _ _) c

/-- A run that fails leaves the cursor it was lent where it was. One that succeeds leaves it there
or at the end of the match, and which of the two is settled by the outermost shape of the grammar,
where skips, mappings and names count as what they stand for. -/
theorem lent_by_shape (defs : Definitions) :
    (∀ (g : Grammar) (body : Body) (i : Nat) (r : Result),
      (g.parse (body.cursor i) defs).outcome = .done r →
      (r.succeeded = false → (g.parse (body.cursor i) defs).lent = body.cursor i) ∧
      ∃ handling, g.Handles defs handling ∧ (r.succeeded = true →
        (g.parse (body.cursor i) defs).lent =
          match handling with
          | .direct => r.state
          | .copied => body.cursor i)) ∧
    (∀ (g : Grammar) (a b : Handling), g.Handles defs a → g.Handles defs b → a = b) ∧
    (∀ part, (Grammar.oneOrMore part).Handles defs .copied) ∧
    (∀ item separator, (Grammar.separatedBy item separator).Handles defs .copied) ∧
    (∀ part h, (Grammar.skip part).Handles defs h ↔ part.Handles defs h) ∧
    (∀ f part h, (Grammar.map f part).Handles defs h ↔ part.Handles defs h) ∧
    ∀ name (g : Grammar) h, defs.lookup name = some g →
      ((Grammar.rule name).Handles defs h ↔ g.Handles defs h) := by
  refine ⟨?_, fun _ _ _ => Grammar.Handles.unique, fun _ => .map (.shape rfl),
    fun _ _ => .map (.shape rfl), fun _ _ => Grammar.Handles.skip_iff,
    fun _ _ _ => Grammar.Handles.map_iff, fun _ _ _ => Grammar.Handles.rule_iff⟩
  intro g body i r ends
  obtain ⟨handling, handles, leaves⟩ := g.parse_predicts defs (body.cursor i) r ends
  have lent := leaves r ends
  cases r with
  | success value state start =>
      refine ⟨nofun, handling, handles, fun _ => ?_⟩
      cases handling with
      | direct => exact lent
      | copied => exact lent
  | failure state start =>
      refine ⟨fun _ => ?_, handling, handles, nofun⟩
      cases handling with
      | direct => exact lent
      | copied => exact lent

/-- A name for a negation is skipped, and moves the cursor; a repetition of it does not. -/
theorem lent_by_shape_negation :
    ∃ (defs : Definitions) (body : Body) (g : Grammar) (r s : Result),
      defs = [("other", .not ";")] ∧ body = { text := "ab;", name := [] } ∧
      g = .skip (.rule "other") ∧
      (g.parse (body.cursor 1) defs).outcome = .done r ∧
      r = .success .nothing (body.cursor 2) 1 ∧
      (g.parse (body.cursor 1) defs).lent = body.cursor 2 ∧
      ((Grammar.many g).parse (body.cursor 1) defs).outcome = .done s ∧
      s = .success (.just (.list [])) (body.cursor 2) 1 ∧
      ((Grammar.many g).parse (body.cursor 1) defs).lent = body.cursor 1 := by
  let defs : Definitions := [("other", .not ";")]
  let body : Body := { text := "ab;", name := [] }
  let g : Grammar := .skip (.rule "other")
  have each := (lent_by_shape defs).1
  have direct : g.Handles defs .direct := .skip (.rule rfl (.shape rfl))
  have copied : (Grammar.many g).Handles defs .copied := .shape rfl
  obtain ⟨_, _, handles, lent⟩ := each g body 1 (.success .nothing (body.cursor 2) 1) rfl
  obtain ⟨_, _, handlesMany, lentMany⟩ :=
    each (.many g) body 1 (.success (.just (.list [])) (body.cursor 2) 1) rfl
  cases handles.unique direct
  cases handlesMany.unique copied
  exact ⟨defs, body, g, _, _, rfl, rfl, rfl, rfl, rfl, lent rfl, rfl, rfl, lentMany rfl⟩

end Descent
