import Descent.Grammar.Parse

/-! A run depends on what follows its cursor, and not on what stands before it. -/

namespace Descent

variable (front name : Text)

def Body.behind (body : Body) : Body := { text := front ++ body.text, name }

def Cursor.behind (c : Cursor) : Cursor :=
  { body := c.body.behind front name, position := front.length + c.position, rest := c.rest }

def Result.behind : Result → Result
  | .success value state start =>
    .success value (state.behind front name) (front.length + start)
  | .failure state start => .failure (state.behind front name) (front.length + start)

def Reply.behind (reply : Reply) : Reply :=
  { outcome := Result.behind front name <$> reply.outcome, lent := reply.lent.behind front name }

variable {front name}

theorem Body.length_behind (body : Body) :
    (body.behind front name).length = front.length + body.length := List.length_append

theorem Cursor.behind_advanceBy (c : Cursor) (n : Nat) :
    (c.behind front name).advanceBy n = (c.advanceBy n).behind front name := by
  simp only [Cursor.behind, Cursor.advanceBy, Nat.add_assoc]

theorem Cursor.behind_inBody (c : Cursor) : (c.behind front name).inBody = c.inBody := by
  have same : (c.behind front name).position ≤ (c.behind front name).body.length ↔
      c.position ≤ c.body.length := by
    simp only [Cursor.behind, Body.length_behind]
    omega
  simp only [Cursor.inBody, same]
  rfl

theorem Cursor.behind_atEnd (c : Cursor) : (c.behind front name).atEnd = c.atEnd := by
  have same : (c.behind front name).position = (c.behind front name).body.length ↔
      c.position = c.body.length := by
    simp only [Cursor.behind, Body.length_behind]
    omega
  rw [Bool.eq_iff_iff]
  simp only [Cursor.atEnd, Bool.and_eq_true, beq_iff_eq, same]
  rfl

namespace Result

@[simp] theorem behind_stop (r : Result) :
    (r.behind front name).stop = front.length + r.stop := by
  cases r <;> rfl

@[simp] theorem behind_succeeded (r : Result) :
    (r.behind front name).succeeded = r.succeeded := by
  cases r <;> rfl

@[simp] theorem behind_value (r : Result) : (r.behind front name).value = r.value := by
  cases r <;> rfl

@[simp] theorem behind_state (r : Result) :
    (r.behind front name).state = r.state.behind front name := by
  cases r <;> rfl

@[simp] theorem behind_start (r : Result) :
    (r.behind front name).start = front.length + r.start := by
  cases r <;> rfl

end Result

theorem Outcome.bind_behind {α : Type} {f : α → α} {outcome : Outcome Result}
    {next next' : Result → Outcome α}
    (each : ∀ r, next' (r.behind front name) = f <$> next r) :
    (Result.behind front name <$> outcome) >>= next' = f <$> (outcome >>= next) := by
  rw [map_bind, bind_map_left]
  exact bind_congr each

namespace Parser

/-- The parser does the same whatever stands in front of the text and however it is called. -/
def Local (part : Parser) : Prop :=
  ∀ (front name : Text) (c : Cursor), part (c.behind front name) = (part c).behind front name

namespace Local

variable {part first : Parser} {parts others : List Parser}

theorem outcome_eq (here : Local part) (c : Cursor) :
    (part (c.behind front name)).outcome = Result.behind front name <$> (part c).outcome :=
  congrArg Reply.outcome (here front name c)

theorem of_outcome (run : Cursor → Outcome Result)
    (same : ∀ front name c, run (c.behind front name) = Result.behind front name <$> run c) :
    Local fun c => { outcome := run c, lent := c } :=
  fun front name c => congrArg (Reply.mk · (c.behind front name)) (same front name c)

theorem consume (value : Payload) (c : Cursor) (n : Nat) :
    Reply.consume value (c.behind front name) n = (Reply.consume value c n).behind front name := by
  simp only [Reply.consume, Reply.behind, Cursor.behind_advanceBy]
  rfl

theorem refuse (c : Cursor) :
    Reply.refuse (c.behind front name) = (Reply.refuse c).behind front name := rfl

theorem character (accepts : CodePoint → Bool) : Local (Parser.character accepts) := by
  intro front name c
  have rest : (c.behind front name).rest = c.rest := rfl
  simp only [Parser.character, rest]
  split
  · split
    · exact consume _ c 1
    · exact refuse c
  · exact refuse c

theorem word (w : Text) : Local (Parser.word w) := by
  intro front name c
  have rest : (c.behind front name).rest = c.rest := rfl
  simp only [Parser.word, rest, Cursor.behind_inBody]
  split
  · exact consume _ c _
  · exact refuse c

theorem wordIgnoringCase (w : Text) : Local (Parser.wordIgnoringCase w) := by
  intro front name c
  have rest : (c.behind front name).rest = c.rest := rfl
  simp only [Parser.wordIgnoringCase, rest]
  split
  · exact consume _ c _
  · exact refuse c

theorem endOfText : Local Parser.endOfText := by
  intro front name c
  simp only [Parser.endOfText, Cursor.behind_atEnd]
  split
  · exact consume _ c 0
  · exact refuse c

theorem follow_behind (each : ∀ part ∈ parts, Local part) (start : Nat) (values : List Payload)
    (c : Cursor) : follow (front.length + start) values parts (c.behind front name) =
      Result.behind front name <$> follow start values parts c := by
  induction parts generalizing start values c with
  | nil => rfl
  | cons part parts ih =>
      simp only [follow, (each part List.mem_cons_self).outcome_eq]
      apply Outcome.bind_behind
      intro r
      cases r with
      | success value state _ =>
          exact ih (fun part member => each part (List.mem_cons_of_mem _ member)) start _ state
      | failure state _ => rfl

theorem sequence (each : ∀ part ∈ parts, Local part) : Local (Parser.sequence parts) :=
  of_outcome _ fun _ _ c => follow_behind each c.position [] c

theorem further_behind (best : Option Result) (r : Result) :
    further (best.map (Result.behind front name)) (r.behind front name) =
      (further best r).map (Result.behind front name) := by
  cases best with
  | none => rfl
  | some b =>
      simp only [further, Option.map_some, Result.behind_stop, Nat.add_lt_add_iff_left]
      split <;> rfl

theorem firstSuccess_behind (each : ∀ part ∈ parts, Local part) (deepest : Bool) (c : Cursor)
    (best : Option Result) :
    firstSuccess deepest (c.behind front name) (best.map (Result.behind front name)) parts =
      Result.behind front name <$> firstSuccess deepest c best parts := by
  induction parts generalizing best with
  | nil => cases best <;> rfl
  | cons part parts ih =>
      simp only [firstSuccess, (each part List.mem_cons_self).outcome_eq]
      apply Outcome.bind_behind
      intro r
      rw [Result.behind_succeeded]
      cases r with
      | success value state _ => rfl
      | failure state _ =>
          have rest := ih fun part member => each part (List.mem_cons_of_mem _ member)
          cases deepest with
          | false => exact rest best
          | true =>
              -- Both positions that are compared are larger by what is in front.
              simp only [if_true, further_behind]
              exact rest _

theorem choice (deepest : Bool) (each : ∀ part ∈ parts, Local part) :
    Local (Parser.choice deepest parts) :=
  of_outcome _ fun _ _ c => firstSuccess_behind each deepest c none

theorem firstFailure_behind (each : ∀ part ∈ others, Local part) (c : Cursor) :
    firstFailure (c.behind front name) others =
      Option.map (Result.behind front name) <$> firstFailure c others := by
  induction others with
  | nil => rfl
  | cons part others ih =>
      simp only [firstFailure, (each part List.mem_cons_self).outcome_eq]
      apply Outcome.bind_behind
      intro r
      rw [Result.behind_succeeded]
      cases r with
      | success value state _ =>
          exact ih fun part member => each part (List.mem_cons_of_mem _ member)
      | failure state _ => rfl

theorem both (start : Local first) (each : ∀ part ∈ others, Local part) :
    Local (Parser.both first others) := by
  apply of_outcome
  intro front name c
  rw [start.outcome_eq]
  apply Outcome.bind_behind
  intro r
  rw [Result.behind_succeeded]
  cases r with
  | failure state _ => rfl
  | success value state _ =>
      simp only [Result.succeeded, if_true, firstFailure_behind each]
      rw [map_bind, bind_map_left]
      apply bind_congr
      intro check
      cases check <;> rfl

theorem repeatFrom_behind (inner : Local part) (start rounds : Nat) (values : List Payload)
    (c : Cursor) : repeatFrom part (front.length + start) rounds values (c.behind front name) =
      Result.behind front name <$> repeatFrom part start rounds values c := by
  induction rounds generalizing values c with
  | zero => rfl
  | succ rounds ih =>
      simp only [repeatFrom, inner.outcome_eq]
      apply Outcome.bind_behind
      intro r
      have place : (c.behind front name).position = front.length + c.position := rfl
      simp only [Result.behind_succeeded, Result.behind_stop, Result.behind_value,
        Result.behind_state, place, Nat.add_lt_add_iff_left]
      split
      · exact ih _ r.state
      · rfl

theorem many (rounds : Nat) (inner : Local part) : Local (Parser.many rounds part) :=
  of_outcome _ fun _ _ c => repeatFrom_behind inner c.position rounds [] c

theorem option (default : Maybe) (inner : Local part) : Local (Parser.option default part) := by
  apply of_outcome
  intro front name c
  rw [inner.outcome_eq]
  apply Outcome.bind_behind
  intro r
  cases r <;> rfl

theorem peek (inner : Local part) : Local (Parser.peek part) := by
  apply of_outcome
  intro front name c
  rw [inner.outcome_eq]
  apply Outcome.bind_behind
  intro r
  cases r <;> rfl

theorem not (inner : Local part) : Local (Parser.not part) := by
  intro front name c
  simp only [Parser.not, inner.outcome_eq]
  cases (part c).outcome with
  | raised fault => rfl
  | exhausted => rfl
  | done r =>
      cases r with
      | success value state _ => rfl
      | failure state _ => exact character _ front name c

theorem of_part (inner : Local part) (next : Result → Outcome Result)
    (each : ∀ front name r, next (r.behind front name) = Result.behind front name <$> next r) :
    Local fun c => { part c with outcome := (part c).outcome >>= next } := by
  intro front name c
  simp only [inner front name c, Reply.behind, Outcome.bind_behind (each front name)]

theorem skip (inner : Local part) : Local (Parser.skip part) := by
  apply inner.of_part
  intro front name r
  cases r <;> rfl

theorem map (f : Payload → Except Fault Payload) (inner : Local part) :
    Local (Parser.map f part) := by
  apply inner.of_part
  intro front name r
  cases r with
  | failure state start => rfl
  | success value state start =>
      by_cases present : value.present = true
      · simp only [Result.behind, present, if_true]
        cases f value.value <;> rfl
      · simp only [Result.behind, present, Bool.false_eq_true, if_false]
        rfl

end Local

end Parser

namespace Grammar

theorem parser_local (rounds : Nat) {rules : String → Parser}
    (here : ∀ name, (rules name).Local) (g : Grammar) : (g.parser rounds rules).Local := by
  have all : ∀ parts : List Grammar, (∀ part ∈ parts, (part.parser rounds rules).Local) →
      ∀ part ∈ parsers rounds rules parts, part.Local := by
    intro parts each
    rw [parsers_eq_map, List.forall_mem_map]
    exact each
  induction g with
  | oneOf set => exact .character _
  | noneOf set => exact .character _
  | word w => exact .word w
  | wordIgnoringCase w => exact .wordIgnoringCase w
  | endOfText => exact .endOfText
  | sequence parts ih => exact .sequence (all parts ih)
  | choice deepest parts ih => exact .choice deepest (all parts ih)
  | both first others ihFirst ih => exact .both ihFirst (all others ih)
  | many part ih => exact .many rounds ih
  | skip part ih => exact .skip ih
  | option default part ih => exact .option default ih
  | peek part ih => exact .peek ih
  | not part ih => exact .not ih
  | map f part ih => exact .map f ih
  | rule name => exact here name

end Grammar

theorem Definitions.parser_local (defs : Definitions) (rounds depth : Nat) (name : String) :
    (defs.parser rounds depth name).Local := by
  induction depth generalizing name with
  | zero => exact fun _ _ _ => rfl
  | succ depth ih =>
      intro front title c
      simp only [Definitions.parser]
      cases defs.lookup name with
      | none => rfl
      | some g => exact g.parser_local rounds ih front title c

/-- The bounds of a run depend on nothing but what follows the cursor, too. -/
theorem Grammar.parse_behind (defs : Definitions) (g : Grammar) (front name : Text) (c : Cursor) :
    g.parse (c.behind front name) defs = (g.parse c defs).behind front name :=
  g.parser_local _ (defs.parser_local _ _) front name c

inductive Outcome.Agree {α : Type} (related : α → α → Prop) : Outcome α → Outcome α → Prop where
  | done {a b : α} (both : related a b) : Agree related (.done a) (.done b)
  | raised (fault : Fault) : Agree related (.raised fault) (.raised fault)
  | exhausted : Agree related .exhausted .exhausted

structure Result.AheadBy (k : Nat) (r s : Result) : Prop where
  succeeded : r.succeeded = s.succeeded
  value : r.value = s.value
  start : r.start = k + s.start
  stop : r.stop = k + s.stop
  rest : r.state.rest = s.state.rest

theorem Result.aheadBy_behind (front name : Text) (s : Result) :
    (s.behind front name).AheadBy front.length s where
  succeeded := s.behind_succeeded
  value := s.behind_value
  start := s.behind_start
  stop := s.behind_stop
  rest := by rw [s.behind_state]; rfl

theorem Outcome.agree_behind (front name : Text) (outcome : Outcome Result) :
    (Result.behind front name <$> outcome).Agree (Result.AheadBy front.length) outcome := by
  cases outcome with
  | done s => exact .done (s.aheadBy_behind front name)
  | raised fault => exact .raised fault
  | exhausted => exact .exhausted

theorem Outcome.Agree.bind {α β : Type} {related : α → α → Prop} {after : β → β → Prop}
    {outcome outcome' : Outcome α} {next next' : α → Outcome β}
    (agree : outcome.Agree related outcome')
    (each : ∀ a b, related a b → (next a).Agree after (next' b)) :
    (outcome >>= next).Agree after (outcome' >>= next') := by
  cases agree with
  | done both => exact each _ _ both
  | raised fault => exact .raised fault
  | exhausted => exact .exhausted

theorem Body.cursor_eq_behind (text name title : Text) {k : Nat} (inside : k ≤ text.length) :
    Body.cursor { text, name } k =
      (Body.cursor { text := text.drop k, name := title } 0).behind (text.take k) name := by
  have size : (text.take k).length = k := List.length_take_of_le inside
  simp only [Body.cursor, Cursor.behind, Body.behind, List.take_append_drop, size, Nat.add_zero,
    List.drop_zero]

/-- A run inside a text and a run at the start of what is left there end in the same way, under any
names of the two texts. All positions differ by what is in front. -/
theorem parse_drop (defs : Definitions) (g : Grammar) (text name title : Text) (k : Nat)
    (inside : k ≤ text.length) :
    let whole := g.parse (Body.cursor { text, name } k) defs
    let rest := g.parse (Body.cursor { text := text.drop k, name := title } 0) defs
    whole.outcome.Agree (Result.AheadBy k) rest.outcome ∧
      whole.lent.position = k + rest.lent.position := by
  intro whole rest
  have size : (text.take k).length = k := List.length_take_of_le inside
  have same : whole = rest.behind (text.take k) name := by
    rw [← g.parse_behind, ← Body.cursor_eq_behind text name title inside]
  have agree := Outcome.agree_behind (text.take k) name rest.outcome
  rw [size] at agree
  rw [same]
  exact ⟨agree, congrArg (· + rest.lent.position) size⟩

theorem parse_drop_deepest :
    ∃ (g : Grammar) (text : Text),
      g = .choice true ["z", .sequence [.wordIgnoringCase "AB", .map Payload.first "c"]] ∧
      text = "no,abx" ∧ 3 ≤ text.length ∧
      (g.parse (Body.cursor { text, name := "whole" } 3)).outcome =
        .done (.failure (Body.cursor { text, name := "whole" } 5) 5) ∧
      (g.parse (Body.cursor { text := text.drop 3, name := "rest" } 0)).outcome =
        .done (.failure (Body.cursor { text := text.drop 3, name := "rest" } 2) 2) ∧
      (Result.failure (Body.cursor { text, name := "whole" } 5) 5).AheadBy 3
        (.failure (Body.cursor { text := text.drop 3, name := "rest" } 2) 2) := by
  let g : Grammar := .choice true ["z", .sequence [.wordIgnoringCase "AB", .map Payload.first "c"]]
  let text : Text := "no,abx"
  have inside : 3 ≤ text.length := by decide
  obtain ⟨agree, _⟩ := parse_drop [] g text "whole" "rest" 3 inside
  have whole : (g.parse (Body.cursor { text, name := "whole" } 3)).outcome =
      .done (.failure (Body.cursor { text, name := "whole" } 5) 5) := rfl
  have rest : (g.parse (Body.cursor { text := text.drop 3, name := "rest" } 0)).outcome =
      .done (.failure (Body.cursor { text := text.drop 3, name := "rest" } 2) 2) := rfl
  rw [whole, rest] at agree
  cases agree with
  | done both => exact ⟨g, text, rfl, rfl, inside, whole, rest, both⟩

end Descent
