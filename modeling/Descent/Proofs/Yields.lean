import Descent.Proofs.Laws
import Descent.Proofs.Meaning

/-! Parsers obey the rules that meanings are made of. -/

namespace Descent

theorem Body.cursor_advanceBy (body : Body) (i n : Nat) :
    (body.cursor i).advanceBy n = body.cursor (i + n) := by
  simp only [Body.cursor, Cursor.advanceBy, List.drop_drop]

@[simp] theorem Body.cursor_position (body : Body) (i : Nat) : (body.cursor i).position = i := rfl

theorem Body.cursor_rest_head? (body : Body) (i : Nat) :
    (body.cursor i).rest.head? = body.text[i]? := List.head?_drop

theorem Body.cursor_inBody (body : Body) (i : Nat) :
    (body.cursor i).inBody = true ↔ i ≤ body.text.length := by
  have size : body.length = body.text.length := rfl
  have left : (body.cursor i).rest.isEmpty = false ↔ i < body.text.length := by
    simp [Body.cursor]
  rw [Cursor.inBody, Bool.or_eq_true, decide_eq_true_iff, Bool.not_eq_true', left]
  simp only [cursor_position]
  change i < _ ∨ i ≤ body.length ↔ _
  omega

theorem Body.cursor_atEnd (body : Body) (i : Nat) :
    (body.cursor i).atEnd = true ↔ i = body.text.length := by
  have left : (body.cursor i).rest.isEmpty = true ↔ body.text.length ≤ i := by
    simp [Body.cursor]
  rw [Cursor.atEnd, Bool.and_eq_true, beq_iff_eq, left]
  change _ ∧ i = body.text.length ↔ _
  omega

def Answer.outcome (body : Body) (i : Nat) : Answer → Outcome Result
  | matched value stop => .done (.success value (body.cursor stop) i)
  | failed position => .done (.failure (body.cursor position) position)
  | raised fault => .raised fault

@[simp] theorem Answer.outcome_matched (body : Body) (i stop : Nat) (value : Maybe) :
    (matched value stop).outcome body i = .done (.success value (body.cursor stop) i) := rfl

@[simp] theorem Answer.outcome_failed (body : Body) (i position : Nat) :
    (failed position).outcome body i = .done (.failure (body.cursor position) position) := rfl

@[simp] theorem Answer.outcome_raised (body : Body) (i : Nat) (fault : Fault) :
    (raised fault).outcome body i = .raised fault := rfl

theorem Answer.outcome_ne_exhausted (body : Body) (i : Nat) (a : Answer) :
    a.outcome body i ≠ .exhausted := by
  cases a <;> simp

theorem Answer.outcome_injective (body : Body) (i : Nat) {a b : Answer}
    (same : a.outcome body i = b.outcome body i) : a = b := by
  have position : ∀ j k, body.cursor j = body.cursor k → j = k := fun j k equal =>
    congrArg Cursor.position equal
  cases a <;> cases b <;> simp at same ⊢ <;> grind

theorem Answer.outcome_prepend (body : Body) (i j : Nat) (values : List Payload) (a : Answer) :
    (a.prepend values).outcome body i =
      a.outcome body j >>= fun r => .done (r.after i values) := by
  cases a <;> rfl

namespace Parser

def Yields (body : Body) (part : Parser) (i : Nat) (a : Answer) : Prop :=
  (part (body.cursor i)).outcome = a.outcome body i

namespace Yields

variable {body : Body} {part first : Parser} {parts others : List Parser} {i j k e f : Nat}
  {value other : Maybe} {a : Answer} {fault : Fault}

theorem outcome_eq (yields : Yields body part i a) :
    (part (body.cursor i)).outcome = a.outcome body i := yields

theorem character (accepts : CodePoint → Bool) (i : Nat) :
    Yields body (Parser.character accepts) i (.character accepts body.text i) := by
  have head := body.cursor_rest_head? i
  unfold Yields Parser.character Answer.character
  rw [← head]
  cases (body.cursor i).rest with
  | nil => rfl
  | cons x rest =>
      simp only [List.head?_cons]
      split
      · simp only [Reply.consume, Body.cursor_advanceBy, Answer.outcome_matched]
        rfl
      · rfl

theorem word (w : Text) (i : Nat) :
    Yields body (Parser.word w) i (.word w body.text i) := by
  have inside : body.text.hasAt w i = true →
      ((!w.isEmpty || (body.cursor i).inBody) = true ↔ i ≤ body.text.length) := by
    intro found
    have long := ((Text.hasAt_iff body.text w i).mp found).length_le
    rw [List.length_drop] at long
    rw [Bool.or_eq_true, body.cursor_inBody]
    cases w with
    | nil => simp
    | cons x w => simp only [List.length_cons] at long; simp; omega
  have condition : ((body.cursor i).rest.startsWith w && (!w.isEmpty || (body.cursor i).inBody)) =
      true ↔ i ≤ body.text.length ∧ body.text.hasAt w i = true := by
    rw [Bool.and_eq_true, and_comm]
    exact and_congr_left inside
  unfold Yields Parser.word Answer.word
  by_cases holds : i ≤ body.text.length ∧ body.text.hasAt w i = true
  · rw [if_pos (condition.mpr holds), if_pos holds]
    simp only [Reply.consume, Body.cursor_advanceBy, Answer.outcome_matched]
    rfl
  · rw [if_neg (mt condition.mp holds), if_neg holds]
    rfl

theorem wordIgnoringCase (w : Text) (i : Nat) :
    Yields body (Parser.wordIgnoringCase w) i (.wordIgnoringCase w body.text i) := by
  have rest : (body.cursor i).rest = body.text.drop i := rfl
  simp only [Yields, Parser.wordIgnoringCase, Answer.wordIgnoringCase, rest]
  split
  · simp only [Reply.consume, Body.cursor_advanceBy, Answer.outcome_matched]
    rfl
  · rfl

theorem endOfText (i : Nat) :
    Yields body Parser.endOfText i (.endOfText body.text i) := by
  unfold Yields Parser.endOfText Answer.endOfText
  by_cases last : i = body.text.length
  · rw [if_pos ((body.cursor_atEnd i).mpr last), if_pos last]
    simp only [Reply.consume, Body.cursor_advanceBy, Answer.outcome_matched]
    rfl
  · rw [if_neg (mt (body.cursor_atEnd i).mp last), if_neg last]
    rfl

theorem of_bind {whole : Parser} {next : Result → Outcome Result} {b : Answer}
    (inner : Yields body part i b)
    (same : (whole (body.cursor i)).outcome = (part (body.cursor i)).outcome >>= next)
    (ends : b.outcome body i >>= next = a.outcome body i) : Yields body whole i a := by
  calc
    (whole (body.cursor i)).outcome = (part (body.cursor i)).outcome >>= next := same
    _ = b.outcome body i >>= next := by rw [inner.outcome_eq]
    _ = a.outcome body i := ends

theorem stop_of_bind {whole : Parser} {next : Result → Outcome Result}
    (inner : Yields body part i a) (stops : a.isMatch = false)
    (same : (whole (body.cursor i)).outcome = (part (body.cursor i)).outcome >>= next)
    (passes : ∀ c position, next (.failure c position) = .done (.failure c position)) :
    Yields body whole i a := by
  apply inner.of_bind same
  cases a with
  | matched value stop => simp at stops
  | failed position => exact passes _ _
  | raised fault => rfl

theorem pass_of_bind {whole : Parser} {next : Result → Outcome Result}
    (inner : Yields body part i a) (holds : a.isFailure = false)
    (same : (whole (body.cursor i)).outcome = (part (body.cursor i)).outcome >>= next)
    (passes : ∀ value c start, next (.success value c start) = .done (.success value c start)) :
    Yields body whole i a := by
  apply inner.of_bind same
  cases a with
  | matched value stop => exact passes _ _ _
  | failed position => simp at holds
  | raised fault => rfl

theorem sequence_nil (i : Nat) :
    Yields body (Parser.sequence []) i (.matched (.just (.list [])) i) := rfl

theorem sequence_stop (first : Yields body part i a) (stops : a.isMatch = false) :
    Yields body (Parser.sequence (part :: parts)) i a :=
  first.stop_of_bind stops rfl fun _ _ => rfl

theorem sequence_next (first : Yields body part i (.matched value j))
    (later : Yields body (Parser.sequence parts) j a) :
    Yields body (Parser.sequence (part :: parts)) i (a.prepend value.toList) := by
  apply first.of_bind (sequence_cons part parts (body.cursor i))
  rw [Answer.outcome_prepend body i j, ← later.outcome_eq]
  rfl

theorem choice_nil (deepest : Bool) (i : Nat) :
    Yields body (Parser.choice deepest []) i (.failed i) := rfl

theorem choice_first {deepest : Bool} (first : Yields body part i a)
    (holds : a.isFailure = false) : Yields body (Parser.choice deepest (part :: parts)) i a :=
  first.pass_of_bind holds rfl fun _ _ _ => rfl

theorem choice_later {deepest : Bool} (first : Yields body part i (.failed e)) (ahead : i ≤ e)
    (later : Yields body (Parser.choice deepest parts) i a) (holds : a.isFailure = false) :
    Yields body (Parser.choice deepest (part :: parts)) i a := by
  cases deepest with
  | false =>
      have same := choice_false_cons _ parts _ _ _ first.outcome_eq
      exact same.trans later.outcome_eq
  | true =>
      have same := choice_true_cons _ parts _ _ _ first.outcome_eq ahead
      exact later.pass_of_bind holds same fun _ _ _ => rfl

theorem choice_failed {deepest : Bool} (first : Yields body part i (.failed e)) (ahead : i ≤ e)
    (later : Yields body (Parser.choice deepest parts) i (.failed f))
    (start : deepest = false → f = i) :
    Yields body (Parser.choice deepest (part :: parts)) i
      (.failed (if deepest then max e f else i)) := by
  cases deepest with
  | false =>
      have same := choice_false_cons _ parts _ _ _ first.outcome_eq
      rw [start rfl] at later
      exact same.trans later.outcome_eq
  | true =>
      apply later.of_bind (choice_true_cons _ parts _ _ _ first.outcome_eq ahead)
      simp only [Answer.outcome_failed, Outcome.bind_done, Result.settle, Result.better,
        Result.stop, Result.state, if_true]
      by_cases further : e < f
      · have most : max e f = f := by omega
        rw [most]
        exact congrArg Outcome.done (if_pos further)
      · have most : max e f = e := by omega
        rw [most]
        exact congrArg Outcome.done (if_neg further)

theorem both_first (stop : Yields body first i a) (stops : a.isMatch = false) :
    Yields body (Parser.both first others) i a :=
  stop.stop_of_bind stops rfl fun _ _ => rfl

theorem both_nil (alone : Yields body first i a) : Yields body (Parser.both first []) i a := by
  apply alone.of_bind rfl
  cases a with
  | matched value stop => rfl
  | failed position => rfl
  | raised fault => rfl

theorem both_other (start : Yields body first i (.matched value j)) (stop : Yields body part i a)
    (stops : a.isMatch = false) : Yields body (Parser.both first (part :: others)) i a := by
  have checks := stop.outcome_eq
  apply start.of_bind rfl
  cases a with
  | matched value stop => simp at stops
  | failed position => simp [firstFailure, checks]
  | raised fault => simp [firstFailure, checks]

theorem both_next (start : Yields body first i (.matched value j))
    (check : Yields body part i (.matched other k))
    (later : Yields body (Parser.both first others) i a) :
    Yields body (Parser.both first (part :: others)) i a := by
  have same := both_cons _ _ others _ _ _ _ _ _ _ start.outcome_eq check.outcome_eq
  exact same.trans later.outcome_eq

theorem many_failed (rounds : Nat) (last : Yields body part i (.failed e)) :
    Yields body (Parser.many (rounds + 1) part) i (.matched (.just (.list [])) i) :=
  last.of_bind (many_succ rounds part (body.cursor i)) rfl

theorem many_still (rounds : Nat) (last : Yields body part i (.matched value j))
    (still : j ≤ i) :
    Yields body (Parser.many (rounds + 1) part) i (.matched (.just (.list [])) i) := by
  have ends : ¬ i < j := Nat.not_lt.mpr still
  apply last.of_bind (many_succ rounds part (body.cursor i))
  simp [Result.stop, ends]

theorem many_raised (rounds : Nat) (last : Yields body part i (.raised fault)) :
    Yields body (Parser.many (rounds + 1) part) i (.raised fault) :=
  last.of_bind (many_succ rounds part (body.cursor i)) rfl

theorem many_next (rounds : Nat) (first : Yields body part i (.matched value j))
    (advances : i < j) (later : Yields body (Parser.many rounds part) j a) :
    Yields body (Parser.many (rounds + 1) part) i (a.prepend value.toList) := by
  apply first.of_bind (many_succ rounds part (body.cursor i))
  rw [Answer.outcome_prepend body i j, ← later.outcome_eq]
  simp [Result.stop, advances]

theorem skip_matched (inner : Yields body part i (.matched value j)) :
    Yields body (Parser.skip part) i (.matched .nothing j) :=
  inner.of_bind rfl rfl

theorem skip_stop (inner : Yields body part i a) (stops : a.isMatch = false) :
    Yields body (Parser.skip part) i a :=
  inner.stop_of_bind stops rfl fun _ _ => rfl

theorem option_some (default : Maybe) (inner : Yields body part i a)
    (holds : a.isFailure = false) : Yields body (Parser.option default part) i a :=
  inner.pass_of_bind holds rfl fun _ _ _ => rfl

theorem option_none (default : Maybe) (inner : Yields body part i (.failed e)) :
    Yields body (Parser.option default part) i (.matched default i) :=
  inner.of_bind rfl rfl

theorem peek_matched (inner : Yields body part i (.matched value j)) :
    Yields body (Parser.peek part) i (.matched value i) :=
  inner.of_bind rfl rfl

theorem peek_stop (inner : Yields body part i a) (stops : a.isMatch = false) :
    Yields body (Parser.peek part) i a :=
  inner.stop_of_bind stops rfl fun _ _ => rfl

theorem not_matched (inner : Yields body part i (.matched value j)) :
    Yields body (Parser.not part) i (.failed i) := by
  have checks := inner.outcome_eq
  simp [Yields, Parser.not, checks, Reply.refuse, Result.failureAt]

theorem not_failed (inner : Yields body part i (.failed e)) :
    Yields body (Parser.not part) i (.character (fun _ => true) body.text i) := by
  have checks := inner.outcome_eq
  have any : Yields body (Parser.character fun _ => true) i _ := character _ i
  simp only [Yields, Parser.not, checks, Answer.outcome_failed, Result.succeeded,
    Bool.false_eq_true, if_false]
  rw [← any]
  simp [Parser.any, Parser.noneOf]

theorem not_raised (inner : Yields body part i (.raised fault)) :
    Yields body (Parser.not part) i (.raised fault) := by
  have checks := inner.outcome_eq
  simp [Yields, Parser.not, checks]

theorem map_done {f : Payload → Except Fault Payload} {payload image : Payload}
    (inner : Yields body part i (.matched (.just payload) j)) (applied : f payload = .ok image) :
    Yields body (Parser.map f part) i (.matched (.just image) j) := by
  apply inner.of_bind rfl
  simp [Maybe.just, applied, Outcome.ofExcept]

theorem map_raised {f : Payload → Except Fault Payload} {payload : Payload}
    (inner : Yields body part i (.matched (.just payload) j)) (applied : f payload = .error fault) :
    Yields body (Parser.map f part) i (.raised fault) := by
  apply inner.of_bind rfl
  simp [Maybe.just, applied, Outcome.ofExcept]

theorem map_absent {f : Payload → Except Fault Payload}
    (inner : Yields body part i (.matched value j)) (absent : value.present = false) :
    Yields body (Parser.map f part) i (.matched value j) := by
  apply inner.of_bind rfl
  simp [absent]

theorem map_stop {f : Payload → Except Fault Payload} (inner : Yields body part i a)
    (stops : a.isMatch = false) : Yields body (Parser.map f part) i a :=
  inner.stop_of_bind stops rfl fun _ _ => rfl

end Yields

end Parser

end Descent
