import Descent.Proofs.Meaning

/-! How sequences, choices, conjunctions and repetitions unroll by one part. -/

namespace Descent

namespace Result

@[simp] def after (start : Nat) (values : List Payload) : Result → Result
  | success value state _ => success (value.prepend values) state start
  | failure state first => failure state first

theorem after_after (start inner : Nat) (values more : List Payload) (r : Result) :
    (r.after inner more).after start values = r.after start (values ++ more) := by
  cases r with
  | failure state first => rfl
  | success value state first => simp only [after, Maybe.prepend_prepend]

def better (best r : Result) : Result := if best.stop < r.stop then r else best

def settle (best : Result) : Result → Result
  | success value state start => success value state start
  | failure state start => best.better (failure state start)

end Result

namespace Parser

open Result

theorem follow_after (start : Nat) (values : List Payload) (parts : List Parser) (c : Cursor) :
    follow start values parts c =
      follow c.position [] parts c >>= fun r => .done (r.after start values) := by
  induction parts generalizing start values c with
  | nil => simp [follow]
  | cons part parts ih =>
      simp only [follow]
      cases (part c).outcome with
      | raised fault => rfl
      | exhausted => rfl
      | done r =>
          cases r with
          | failure state first => rfl
          | success value state first =>
              simp only [Outcome.bind_done, List.nil_append]
              rw [ih start (values ++ value.toList), ih c.position value.toList, bind_assoc]
              simp only [Outcome.bind_done, after_after]

theorem sequence_cons (part : Parser) (parts : List Parser) (c : Cursor) :
    (sequence (part :: parts) c).outcome = (part c).outcome >>= fun r =>
      match r with
      | .success value state _ =>
        (sequence parts state).outcome >>= fun later => .done (later.after c.position value.toList)
      | .failure state first => .done (.failure state first) := by
  simp only [sequence, follow]
  cases (part c).outcome with
  | raised fault => rfl
  | exhausted => rfl
  | done r =>
      cases r with
      | failure state first => rfl
      | success value state first =>
          simp only [Outcome.bind_done, List.nil_append]
          exact follow_after _ _ _ _

theorem repeatFrom_after (part : Parser) (start rounds : Nat) (values : List Payload)
    (c : Cursor) :
    repeatFrom part start rounds values c =
      repeatFrom part c.position rounds [] c >>= fun r => .done (r.after start values.reverse) := by
  induction rounds generalizing start values c with
  | zero => rfl
  | succ rounds ih =>
      simp only [repeatFrom]
      cases (part c).outcome with
      | raised fault => rfl
      | exhausted => rfl
      | done r =>
          simp only [Outcome.bind_done, List.append_nil]
          split
          · rw [ih start (r.value.toList ++ values), ih c.position r.value.toList, bind_assoc]
            simp only [Outcome.bind_done, after_after, List.reverse_append]
          · simp

theorem many_succ (rounds : Nat) (part : Parser) (c : Cursor) :
    (many (rounds + 1) part c).outcome = (part c).outcome >>= fun r =>
      if r.succeeded && c.position < r.stop then
        (many rounds part r.state).outcome >>= fun later =>
          .done (later.after c.position r.value.toList)
      else .done (.success (.just (.list [])) c c.position) := by
  simp only [many, repeatFrom]
  cases (part c).outcome with
  | raised fault => rfl
  | exhausted => rfl
  | done r =>
      simp only [Outcome.bind_done, List.append_nil]
      split
      · rw [repeatFrom_after]
        have single : r.value.toList.reverse = r.value.toList := by
          unfold Maybe.toList
          split <;> rfl
        rw [single]
      · rfl

theorem choice_false_cons (part : Parser) (parts : List Parser) (c state : Cursor) (start : Nat)
    (first : (part c).outcome = .done (.failure state start)) :
    (choice false (part :: parts) c).outcome = (choice false parts c).outcome := by
  simp [choice, firstSuccess, first]

private theorem firstSuccess_better (c : Cursor) (parts : List Parser) (best : Result)
    (state : Cursor) (start : Nat) :
    (firstSuccess true c (some (.failure state start)) parts >>= fun later =>
        .done (best.settle later)) =
      firstSuccess true c (some (best.better (.failure state start))) parts := by
  induction parts generalizing state start with
  | nil => rfl
  | cons part parts ih =>
      simp only [firstSuccess, further]
      cases (part c).outcome with
      | raised fault => rfl
      | exhausted => rfl
      | done s =>
          cases s with
          | success value place first => rfl
          | failure place first =>
              simp only [Outcome.bind_done, succeeded, Bool.false_eq_true, if_false, if_true]
              -- Both runs go on with the better of two failures, which is one of them.
              by_cases further : (Result.failure state start).stop < (Result.failure place first).stop
              · have rest := ih place first
                grind [better]
              · have rest := ih state start
                grind [better]

theorem choice_true_cons (part : Parser) (parts : List Parser) (c state : Cursor) (start : Nat)
    (first : (part c).outcome = .done (.failure state start)) (ahead : c.position ≤ state.position) :
    (choice true (part :: parts) c).outcome =
      (choice true parts c).outcome >>= fun later =>
        .done ((Result.failure state start).settle later) := by
  simp only [choice, firstSuccess, first, Outcome.bind_done, succeeded, Bool.false_eq_true,
    if_false, if_true, further]
  cases parts with
  | nil =>
      have behind : ¬ (Result.failure state start).stop < (Result.failureAt c).stop :=
        Nat.not_lt.mpr ahead
      simp only [firstSuccess, Option.getD_some, Option.getD_none, Outcome.bind_done]
      rw [failureAt, settle, better, ← failureAt, if_neg behind]
  | cons next parts =>
      simp only [firstSuccess]
      cases (next c).outcome with
      | raised fault => rfl
      | exhausted => rfl
      | done s =>
          cases s with
          | success value place first => rfl
          | failure place first =>
              simp only [Outcome.bind_done, succeeded, Bool.false_eq_true, if_false, if_true,
                further]
              rw [firstSuccess_better, better]
              split <;> rfl

theorem both_cons (first part : Parser) (others : List Parser) (c j k : Cursor)
    (value other : Maybe) (start stop : Nat)
    (begins : (first c).outcome = .done (.success value j start))
    (check : (part c).outcome = .done (.success other k stop)) :
    (both first (part :: others) c).outcome = (both first others c).outcome := by
  simp [both, firstFailure, begins, check]

end Parser

end Descent
