import Descent.Grammar.Parse
import Mathlib.Data.List.Forall2

/-! Larger bounds only settle runs that smaller ones leave open. -/

namespace Descent

namespace Outcome

variable {α β : Type}

def isSettled : Outcome α → Bool
  | exhausted => false
  | _ => true

theorem isSettled_iff (a : Outcome α) : a.isSettled = true ↔ a ≠ exhausted := by
  cases a <;> simp [isSettled]

/-- The outcomes agree unless the first one is open. -/
def Approx (a b : Outcome α) : Prop := a = exhausted ∨ a = b

namespace Approx

theorem refl (a : Outcome α) : a.Approx a := .inr rfl

theorem open_left (a : Outcome α) : exhausted.Approx a := .inl rfl

theorem trans {a b c : Outcome α} (first : a.Approx b) (second : b.Approx c) : a.Approx c := by
  rcases first with rfl | rfl
  · exact open_left c
  · exact second

theorem antisymm {a b : Outcome α} (first : a.Approx b) (second : b.Approx a) : a = b := by
  rcases first with rfl | rfl
  · rcases second with rfl | rfl <;> rfl
  · rfl

theorem eq_of_ne {a b : Outcome α} (related : a.Approx b) (settled : a ≠ exhausted) : a = b :=
  related.resolve_left settled

theorem bind {a b : Outcome α} {f g : α → Outcome β} (related : a.Approx b)
    (next : ∀ x, (f x).Approx (g x)) : (a >>= f).Approx (b >>= g) := by
  rcases related with rfl | rfl
  · exact open_left _
  · cases a with
    | done x => exact next x
    | raised fault => exact refl _
    | exhausted => exact refl _

end Approx

end Outcome

namespace Parser

def Approx (p q : Parser) : Prop := ∀ c, (p c).outcome.Approx (q c).outcome

namespace Approx

variable {p q first first' : Parser} {parts parts' : List Parser}

theorem refl (p : Parser) : Approx p p := fun _ => .refl _

theorem trans {r : Parser} (left : Approx p q) (right : Approx q r) : Approx p r :=
  fun c => (left c).trans (right c)

theorem sequence (related : List.Forall₂ Approx parts parts') :
    Approx (Parser.sequence parts) (Parser.sequence parts') := by
  have step : ∀ (start : Nat) (values : List Payload) (c : Cursor),
      (follow start values parts c).Approx (follow start values parts' c) := by
    induction related with
    | nil => exact fun _ _ _ => .refl _
    | cons head _ ih =>
        intro start values c
        apply Outcome.Approx.bind (head c)
        intro r
        cases r with
        | success value state _ => exact ih start _ state
        | failure state _ => exact .refl _
  exact fun c => step c.position [] c

theorem choice (deepest : Bool) (related : List.Forall₂ Approx parts parts') :
    Approx (Parser.choice deepest parts) (Parser.choice deepest parts') := by
  have step : ∀ (c : Cursor) (best : Option Result),
      (firstSuccess deepest c best parts).Approx (firstSuccess deepest c best parts') := by
    induction related with
    | nil => exact fun _ _ => .refl _
    | cons head _ ih =>
        intro c best
        apply Outcome.Approx.bind (head c)
        intro r
        cases r with
        | success value state _ => exact .refl _
        | failure state _ => exact ih c _
  exact fun c => step c none

theorem both (start : Approx first first') (related : List.Forall₂ Approx parts parts') :
    Approx (Parser.both first parts) (Parser.both first' parts') := by
  have step : ∀ c : Cursor, (firstFailure c parts).Approx (firstFailure c parts') := by
    induction related with
    | nil => exact fun _ => .refl _
    | cons head _ ih =>
        intro c
        apply Outcome.Approx.bind (head c)
        intro r
        cases r with
        | success value state _ => exact ih c
        | failure state _ => exact .refl _
  intro c
  apply Outcome.Approx.bind (start c)
  intro r
  cases r with
  | success value state _ => exact .bind (step c) fun _ => .refl _
  | failure state _ => exact .refl _

theorem many {rounds rounds' : Nat} (le : rounds ≤ rounds') (related : Approx p q) :
    Approx (Parser.many rounds p) (Parser.many rounds' q) := by
  have step : ∀ (start : Nat) (values : List Payload) (c : Cursor),
      (repeatFrom p start rounds values c).Approx (repeatFrom q start rounds' values c) := by
    induction rounds generalizing rounds' with
    | zero => exact fun _ _ _ => .open_left _
    | succ rounds ih =>
        intro start values c
        cases rounds' with
        | zero => exact absurd le (Nat.not_succ_le_zero rounds)
        | succ rounds' =>
            apply Outcome.Approx.bind (related c)
            intro r
            split
            · exact ih (Nat.le_of_succ_le_succ le) start _ r.state
            · exact .refl _
  exact fun c => step c.position [] c

theorem skip (related : Approx p q) : Approx (Parser.skip p) (Parser.skip q) :=
  fun c => .bind (related c) fun _ => .refl _

theorem option (default : Maybe) (related : Approx p q) :
    Approx (Parser.option default p) (Parser.option default q) :=
  fun c => .bind (related c) fun _ => .refl _

theorem peek (related : Approx p q) : Approx (Parser.peek p) (Parser.peek q) :=
  fun c => .bind (related c) fun _ => .refl _

theorem map (f : Payload → Except Fault Payload) (related : Approx p q) :
    Approx (Parser.map f p) (Parser.map f q) :=
  fun c => .bind (related c) fun _ => .refl _

theorem not (related : Approx p q) : Approx (Parser.not p) (Parser.not q) := by
  intro c
  rw [Parser.not]
  rcases related c with unsettled | same
  · rw [unsettled]
    exact .open_left _
  · rw [same]
    exact .refl _

end Approx

end Parser

namespace Grammar

/-- A grammar settles no less with more attempts and with rules that settle more. -/
theorem parser_approx {rounds rounds' : Nat} (le : rounds ≤ rounds')
    {rules rules' : String → Parser} (related : ∀ name, (rules name).Approx (rules' name))
    (g : Grammar) :
    (g.parser rounds rules).Approx (g.parser rounds' rules') := by
  have all : ∀ parts : List Grammar,
      (∀ part ∈ parts, (part.parser rounds rules).Approx (part.parser rounds' rules')) →
      List.Forall₂ Parser.Approx (parsers rounds rules parts) (parsers rounds' rules' parts) := by
    intro parts each
    rw [parsers_eq_map, parsers_eq_map, List.forall₂_map_left_iff, List.forall₂_map_right_iff,
      List.forall₂_same]
    exact each
  induction g with
  | oneOf set => exact .refl _
  | noneOf set => exact .refl _
  | word w => exact .refl _
  | wordIgnoringCase w => exact .refl _
  | endOfText => exact .refl _
  | sequence parts ih => exact .sequence (all parts ih)
  | choice deepest parts ih => exact .choice deepest (all parts ih)
  | both first others ihFirst ih => exact .both ihFirst (all others ih)
  | many part ih => exact .many le ih
  | skip part ih => exact .skip ih
  | option default part ih => exact .option default ih
  | peek part ih => exact .peek ih
  | not part ih => exact .not ih
  | map f part ih => exact .map f ih
  | rule name => exact related name

end Grammar

namespace Definitions

theorem mem_names_of_lookup (defs : Definitions) {name : String} {g : Grammar}
    (found : defs.lookup name = some g) : name ∈ defs.map Prod.fst := by
  obtain ⟨front, back, rfl, _⟩ := List.lookup_eq_some_iff.mp found
  simp

theorem parser_approx_succ (defs : Definitions) (rounds depth : Nat) (name : String) :
    (defs.parser rounds depth name).Approx (defs.parser rounds (depth + 1) name) := by
  induction depth generalizing name with
  | zero => exact fun _ => .open_left _
  | succ depth ih =>
      intro c
      simp only [Definitions.parser]
      cases defs.lookup name with
      | none => exact .refl _
      | some g => exact g.parser_approx (Nat.le_refl rounds) ih c

theorem parser_approx_of_le (defs : Definitions) (rounds : Nat) {depth depth' : Nat}
    (le : depth ≤ depth') (name : String) :
    (defs.parser rounds depth name).Approx (defs.parser rounds depth' name) := by
  induction le with
  | refl => exact .refl _
  | step _ ih => exact ih.trans (defs.parser_approx_succ rounds _ name)

end Definitions

end Descent
