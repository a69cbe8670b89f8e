import Descent.Proofs.Completeness
import Descent.Proofs.Lending

/-! What holds of every result, and of every cursor that was lent. -/

namespace Descent

theorem Reply.Direct.lent_into {reply : Reply} {body : Body} {i : Nat}
    (direct : reply.Direct (body.cursor i)) : ∃ j, reply.lent = body.cursor j := by
  cases direct with
  | consume value n => exact ⟨i + n, body.cursor_advanceBy i n⟩
  | refuse => exact ⟨i, rfl⟩
  | raised fault => exact ⟨i, rfl⟩
  | exhausted => exact ⟨i, rfl⟩

namespace Parser

def LendsInto (part : Parser) : Prop :=
  ∀ (body : Body) (i : Nat), ∃ j, (part (body.cursor i)).lent = body.cursor j

theorem LendsInto.of_lent {part : Parser} (same : ∀ c, (part c).lent = c) : LendsInto part :=
  fun body i => ⟨i, same (body.cursor i)⟩

end Parser

theorem Grammar.parser_lendsInto (rounds : Nat) {rules : String → Parser}
    (lends : ∀ name, (rules name).LendsInto) (g : Grammar) :
    (g.parser rounds rules).LendsInto := by
  have own : ∀ {g : Grammar} {handling : Handling}, g.handling? = some handling →
      (g.parser rounds rules).LendsInto := by
    intro g handling known
    cases handling with
    | direct => exact fun body i => (g.parser_direct rounds rules known (body.cursor i)).lent_into
    | copied => exact .of_lent (g.parser_lent_of_copied rounds rules known)
  induction g with
  | skip part ih => exact ih
  | map f part ih => exact ih
  | rule name => exact lends name
  | _ => exact own rfl

theorem Definitions.parser_lendsInto (defs : Definitions) (rounds depth : Nat) (name : String) :
    (defs.parser rounds depth name).LendsInto := by
  induction depth generalizing name with
  | zero => exact .of_lent fun _ => rfl
  | succ depth ih =>
      intro body i
      simp only [Definitions.parser]
      split
      · exact Grammar.parser_lendsInto rounds ih _ body i
      · exact ⟨i, rfl⟩

/-- An attempt at position `i` that ended, and the cursor it was lent. -/
structure Result.Coherent (body : Body) (i : Nat) (r : Result) (lent : Cursor) : Prop where
  stop_eq : r.stop = r.state.position
  state_body : r.state.body = body
  state_current : r.state.current? = body.at? r.state.position
  lent_body : lent.body = body
  lent_current : lent.current? = body.at? lent.position
  success : r.succeeded = true → r.start = i ∧ i ≤ r.stop
  failure : r.succeeded = false →
    r.value = .nothing ∧ r.start = r.stop ∧ r.matched = [] ∧ i ≤ r.stop
  inside : i ≤ body.length → r.stop ≤ body.length
  outside : body.length ≤ i → r.succeeded = true → r.stop = i
  endOfText : r.succeeded = false →
    (r.describe = ("unexpected end-of-file" : Text) ↔ body.length ≤ r.stop)

theorem Body.cursor_current? (body : Body) (i : Nat) :
    (body.cursor i).current? = body.at? (body.cursor i).position :=
  (Cursor.valid_cursor body i).current?

theorem Result.describe_failure (body : Body) (e : Nat) :
    (Result.failure (body.cursor e) e).describe = ("unexpected end-of-file" : Text) ↔
      body.length ≤ e := by
  have current : (Bookmark.ofCursor (body.cursor e)).current? = body.text[e]? := by
    have inside : ¬ (e : Int) < 0 := by omega
    change body.at? (e : Int) = _
    rw [Body.at?, if_neg inside, Int.toNat_natCast]
  have size : body.length = body.text.length := rfl
  rw [size, ← List.getElem?_eq_none_iff, ← current]
  unfold Result.describe Verdict.describe
  simp only [Result.verdict, Verdict.succeeded, Option.isSome_none, Bool.false_eq_true, if_false]
  cases (Bookmark.ofCursor (body.cursor e)).current? with
  | none => simp
  | some c =>
      simp only [reduceCtorEq, iff_false]
      intro same
      have first : some (CodePoint.ofChar 'e') = some (CodePoint.ofChar 'u') :=
        congrArg List.head? same
      exact absurd first (by decide)

theorem Result.coherent_of_answer {body : Body} {i : Nat} {a : Answer} {r : Result}
    {lent : Cursor} (within : a.Within body.text i) (ends : a.outcome body i = .done r)
    (back : ∃ j, lent = body.cursor j) : r.Coherent body i lent := by
  have size : body.length = body.text.length := rfl
  obtain ⟨j, rfl⟩ := back
  cases a with
  | raised fault => simp at ends
  | matched value stop =>
      simp only [Answer.outcome_matched, Outcome.done.injEq] at ends
      subst ends
      simp only [Answer.Within] at within
      have never : (Result.success value (body.cursor stop) i).succeeded ≠ false := by simp
      have high : i ≤ body.length → stop ≤ body.length := by omega
      have still : body.length ≤ i → stop = i := by omega
      exact
        { stop_eq := rfl
          state_body := rfl
          state_current := body.cursor_current? stop
          lent_body := rfl
          lent_current := body.cursor_current? j
          success := fun _ => ⟨rfl, within.1⟩
          failure := fun failed => absurd failed never
          inside := high
          outside := fun outside _ => still outside
          endOfText := fun failed => absurd failed never }
  | failed e =>
      simp only [Answer.outcome_failed, Outcome.done.injEq] at ends
      subst ends
      simp only [Answer.Within] at within
      have never : (Result.failure (body.cursor e) e).succeeded ≠ true := by simp
      have high : i ≤ body.length → e ≤ body.length := by omega
      have nothing : (Result.failure (body.cursor e) e).matched = [] := by
        rw [Result.matched_eq]
        exact List.drop_eq_nil_of_le (List.length_take_le _ _)
      exact
        { stop_eq := rfl
          state_body := rfl
          state_current := body.cursor_current? e
          lent_body := rfl
          lent_current := body.cursor_current? j
          success := fun matched => absurd matched never
          failure := fun _ => ⟨rfl, rfl, nothing, within.1⟩
          inside := high
          outside := fun _ matched => absurd matched never
          endOfText := fun _ => Result.describe_failure body e }

/-- Every attempt that ends is coherent: positions stay in the text, a match starts where the
attempt does, and a failure matches nothing. -/
theorem parse_coherent (defs : Definitions) (g : Grammar) (body : Body) (i : Nat) (r : Result)
    (ends : (g.parse (body.cursor i) defs).outcome = .done r) :
    r.Coherent body i (g.parse (body.cursor i) defs).lent := by
  have back : ∃ j, (g.parse (body.cursor i) defs).lent = body.cursor j :=
    g.parser_lendsInto _ (defs.parser_lendsInto _ _) body i
  rcases g.parse_sound defs body i with unsettled | ⟨a, meaning, yields⟩
  · exact absurd (ends.symm.trans unsettled) nofun
  · exact Result.coherent_of_answer meaning.within (yields.outcome_eq.symm.trans ends) back

theorem parse_coherent_peek :
    ∃ (body : Body) (g : Grammar) (r : Result),
      body = { text := "b,a,", name := [] } ∧ g = .peek (.separatedBy "a" ",") ∧
      r = .success (.just (.list [.text "a"])) (body.cursor 2) 2 ∧
      (g.parse (body.cursor 2)).outcome = .done r ∧
      r.Coherent body 2 (g.parse (body.cursor 2)).lent :=
  ⟨{ text := "b,a,", name := [] }, .peek (.separatedBy "a" ","), _, rfl, rfl, rfl, rfl,
    parse_coherent [] _ _ _ _ rfl⟩

end Descent
