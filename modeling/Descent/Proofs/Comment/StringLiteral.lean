import Descent.Proofs.Comment.Delimited

/-! Which string literals are passed over, and what becomes of the others. -/

namespace Descent.Comment

open Grammar

variable {x y : CodePoint} {text : Text}

inductive LiteralUnit (x y : CodePoint) where
  | plain (c : CodePoint) (noQuote : c ≠ x) (noEscape : c ≠ y)
  | escaped (c : CodePoint)
  deriving DecidableEq

namespace LiteralUnit

def write : LiteralUnit x y → Text
  | plain c _ _ => [c]
  | escaped c => [y, c]

def writeAll (units : List (LiteralUnit x y)) : Text := units.flatMap write

/-- A unit is passed over, unless its last character could escape the quote behind it. -/
theorem closing?_unit (other : y ≠ x) (unit : LiteralUnit x y)
    (follows : unit = .escaped y → text.head? ≠ some x) :
    closing? x y (unit.write ++ text) = (closing? x y text).map (· + unit.write.length) := by
  cases unit with
  | plain c noQuote noEscape => exact closing?_cons noQuote fun same => absurd same noEscape
  | escaped c =>
      by_cases quote : c = x
      · subst quote
        exact closing?_escaped other text
      · have next : closing? x y (c :: text) = (closing? x y text).map (· + 1) := by
          refine closing?_cons quote fun same => ?_
          subst same
          exact follows rfl
        have first : closing? x y (y :: c :: text) = (closing? x y (c :: text)).map (· + 1) :=
          closing?_cons other fun _ same => quote (Option.some.inj same)
        calc
          closing? x y (y :: c :: text) = ((closing? x y text).map (· + 1)).map (· + 1) := by
            rw [first, next]
          _ = (closing? x y text).map (· + 2) := by
            rw [Option.map_map]
            rfl

theorem head?_write (other : y ≠ x) (unit : LiteralUnit x y) (text : Text) :
    (unit.write ++ text).head? ≠ some x := by
  intro same
  cases unit with
  | plain c noQuote _ => exact noQuote (Option.some.inj same)
  | escaped c => exact other (Option.some.inj same)

theorem append_cons (unit : LiteralUnit x y) (units : List (LiteralUnit x y)) (text : Text) :
    writeAll (unit :: units) ++ text = unit.write ++ (writeAll units ++ text) :=
  List.append_assoc _ _ _

theorem closing?_units (other : y ≠ x) (units : List (LiteralUnit x y))
    (follows : units.getLast? = some (.escaped y) → text.head? ≠ some x) :
    closing? x y (writeAll units ++ text) =
      (closing? x y text).map (· + (writeAll units).length) := by
  induction units with
  | nil => simp [writeAll]
  | cons unit units ih =>
      have tail : unit = .escaped y → (writeAll units ++ text).head? ≠ some x := by
        cases units with
        | nil => exact fun same => follows (congrArg some same)
        | cons next units =>
            intro _
            rw [append_cons]
            exact head?_write other next _
      have rest : units.getLast? = some (.escaped y) → text.head? ≠ some x := by
        intro last
        apply follows
        rw [List.getLast?_cons, last]
        rfl
      have long : (writeAll (unit :: units)).length = (writeAll units).length + unit.write.length :=
        List.length_append.trans (Nat.add_comm _ _)
      calc
        closing? x y (writeAll (unit :: units) ++ text) =
            (closing? x y (writeAll units ++ text)).map (· + unit.write.length) := by
          rw [append_cons]
          exact closing?_unit other unit tail
        _ = (closing? x y text).map (· + (writeAll (unit :: units)).length) := by
          rw [ih rest, Option.map_map, long]
          exact congrArg (Option.map · _) (funext fun n => Nat.add_assoc n _ _)

/-- The quote behind an escaped escape is taken for an escaped quote. -/
theorem closing?_literal (other : y ≠ x) (units : List (LiteralUnit x y)) (rest : Text) :
    closing? x y (writeAll units ++ x :: rest) =
      if units.getLast? = some (.escaped y) then
        (closing? x y rest).map (· + ((writeAll units).length + 1))
      else some ((writeAll units).length + 1) := by
  split
  · -- The first escape is taken alone, so that the second one pairs with the quote.
    rename_i last
    have noQuote (t : Text) : (y :: t).head? ≠ some x := fun same => other (Option.some.inj same)
    obtain ⟨front, rfl⟩ := List.getLast?_eq_some_iff.mp last
    have behind : writeAll (front ++ [.escaped y]) ++ x :: rest =
        writeAll front ++ y :: y :: x :: rest := by
      rw [writeAll, List.flatMap_append, List.append_assoc]
      rfl
    have size : (writeAll (front ++ [LiteralUnit.escaped y] : List (LiteralUnit x y))).length =
        (writeAll front).length + 2 := by
      rw [writeAll, List.flatMap_append, List.length_append]
      rfl
    have before : closing? x y (y :: y :: x :: rest) = (closing? x y rest).map (· + 3) := by
      rw [closing?_cons other fun _ => noQuote _, closing?_escaped other, Option.map_map]
      rfl
    rw [behind, closing?_units other front fun _ => noQuote _, before, size, Option.map_map]
    exact congrArg (Option.map · _) (funext fun n => by simp only [Function.comp_apply]; omega)
  · rename_i last
    rw [closing?_units other units fun same => absurd same last, closing?_quote, Option.map_some,
      Nat.add_comm]

end LiteralUnit

open LiteralUnit

inductive Quotation where
  | single
  | double

namespace Quotation

def quote : Quotation → CodePoint
  | single => '\x27'
  | double => '\x22'

def grammar : Quotation → Grammar
  | single => singleQuoted
  | double => doubleQuoted

def literal (kind : Quotation) (units : List (LiteralUnit kind.quote '\x5c')) : Text :=
  kind.quote :: (writeAll units ++ [kind.quote])

theorem quote_ne (kind : Quotation) : ('\x5c' : CodePoint) ≠ kind.quote := by
  cases kind <;> decide

theorem grammar_eq (kind : Quotation) :
    kind.grammar = quotedBy (.word [kind.quote]) (.word ['\x5c', kind.quote]) := by
  cases kind <;> rfl

theorem literal_append (kind : Quotation) (units : List (LiteralUnit kind.quote '\x5c'))
    (rest : Text) :
    kind.literal units ++ rest = kind.quote :: (writeAll units ++ kind.quote :: rest) := by
  rw [literal, List.cons_append, List.append_assoc]
  rfl

theorem take_literal (kind : Quotation) (units : List (LiteralUnit kind.quote '\x5c'))
    (rest : Text) (n : Nat) :
    kind.quote :: (writeAll units ++ kind.quote :: rest).take (n + ((writeAll units).length + 1)) =
      kind.literal units ++ rest.take n := by
  rw [literal_append, Nat.add_comm, Nat.add_assoc, List.take_length_add_append, Nat.add_comm,
    List.take_succ_cons]

end Quotation

theorem closing?_pos {n : Nat} (closes : closing? x y text = some n) : 0 < n := by
  revert closes
  fun_cases closing? x y text with
  | case1 => exact nofun
  | case2 =>
      rintro ⟨⟩
      exact Nat.one_pos
  | case3 => exact nofun
  | case4 =>
      rintro ⟨⟩
      exact Nat.one_pos
  | case5 c d rest =>
      intro closes
      obtain ⟨m, _, rfl⟩ := Option.map_eq_some_iff.mp closes
      exact Nat.succ_pos (m + 1)
  | case6 c d rest =>
      intro closes
      obtain ⟨m, _, rfl⟩ := Option.map_eq_some_iff.mp closes
      exact Nat.succ_pos m

/-- A literal is read alone, unless the quote that ends it is taken for an escaped one: then the
string goes on to the next quote that closes it, or does not end. -/
theorem literal_meaning (kind : Quotation) (units : List (LiteralUnit kind.quote '\x5c'))
    (front rest : Text) :
    Meaning [] (front ++ (kind.literal units ++ rest)) kind.grammar front.length
      (if units.getLast? = some (.escaped '\x5c') then
        match closing? kind.quote '\x5c' rest with
        | some n => .matched (.just (.text (kind.literal units ++ rest.take n)))
            (front.length + (kind.literal units).length + n)
        | none => .failed (front ++ (kind.literal units ++ rest)).length
      else .matched (.just (.text (kind.literal units)))
        (front.length + (kind.literal units).length)) := by
  have size : (kind.literal units).length = (writeAll units).length + 2 := by
    rw [Quotation.literal, List.length_cons, List.length_append]
    rfl
  have read := quotedBy_closing kind.quote_ne front (writeAll units ++ kind.quote :: rest)
  rw [closing?_literal kind.quote_ne, ← kind.literal_append, ← kind.grammar_eq] at read
  split
  · rename_i last
    rw [if_pos last] at read
    cases closes : closing? kind.quote '\x5c' rest with
    | some n =>
        rw [closes] at read
        have stop : front.length + (1 + (n + ((writeAll units).length + 1))) =
            front.length + (kind.literal units).length + n := by omega
        simp only [Option.map_some, kind.take_literal, stop] at read
        exact read
    | none =>
        rw [closes] at read
        exact read
  · rename_i last
    have stop : front.length + (1 + (0 + ((writeAll units).length + 1))) =
        front.length + (kind.literal units).length := by omega
    have whole := kind.take_literal units rest 0
    rw [if_neg last, ← Nat.zero_add ((writeAll units).length + 1)] at read
    simp only [whole, stop, List.take_zero, List.append_nil] at read
    exact read

/-- Exactly the literals are passed over whose last unit is not an escaped backslash. -/
theorem stringLiteral_read (kind : Quotation) (units : List (LiteralUnit kind.quote '\x5c'))
    (front rest name : Text) :
    let literal := kind.literal units
    let body : Body := { text := front ++ (literal ++ rest), name }
    let alone : Result := .success (.just (.text literal))
      (body.cursor (front.length + literal.length)) front.length
    ∃ r, (kind.grammar.parse (body.cursor front.length)).outcome = .done r ∧
      (r = alone ↔ units.getLast? ≠ some (.escaped '\x5c')) ∧
      r = if units.getLast? = some (.escaped '\x5c') then
          match closing? kind.quote '\x5c' rest with
          | some n => .success (.just (.text (literal ++ rest.take n)))
              (body.cursor (front.length + literal.length + n)) front.length
          | none => .failure (body.cursor body.text.length) body.text.length
        else alone := by
  intro literal body alone
  have read : Meaning [] body.text kind.grammar front.length _ :=
    literal_meaning kind units front rest
  have complete : Parser.Yields body (kind.grammar.parse · []) front.length _ :=
    Grammar.parse_complete read
  have finished := complete.outcome_eq
  by_cases last : units.getLast? = some (.escaped '\x5c')
  · simp only [if_pos last] at finished ⊢
    cases closes : closing? kind.quote '\x5c' rest with
    | some n =>
        simp only [closes] at finished ⊢
        refine ⟨_, finished, iff_of_false ?_ (not_not_intro last), rfl⟩
        intro same
        have positive := closing?_pos closes
        have position : front.length + literal.length + n = front.length + literal.length :=
          congrArg (fun r : Result => r.state.position) same
        omega
    | none =>
        simp only [closes] at finished ⊢
        exact ⟨_, finished, iff_of_false nofun (not_not_intro last), rfl⟩
  · simp only [if_neg last] at finished ⊢
    exact ⟨_, finished, iff_of_true rfl last, rfl⟩

/-- The backslashes belong together, but the second one is taken to escape the quote. -/
theorem escaped_backslash_unread :
    ∃ text : Text, text = "\x27\x5c\x5c\x27" ∧ text = Quotation.single.literal [.escaped '\x5c'] ∧
      (singleQuoted.parse (Cursor.start text [])).outcome =
        .done (.failure (({ text, name := [] } : Body).cursor 4) 4) :=
  ⟨_, rfl, rfl, rfl⟩

end Descent.Comment
