import Descent.Numeral
import Descent.Text.Charset
import Mathlib.Data.Nat.Digits.Lemmas

/-! What digits of a base stand for, and that numbers are read as they are written. -/

namespace Descent.Numeral

variable {base : Nat} {t : Text}

def IsDigit (base : Nat) (c : CodePoint) : Prop := (digitValue? c).any (· < base) = true

instance (base : Nat) (c : CodePoint) : Decidable (IsDigit base c) :=
  inferInstanceAs (Decidable (_ = true))

def digitValue (c : CodePoint) : Nat := (digitValue? c).getD 0

def value (base : Nat) (digits : Text) : Nat := Nat.ofDigits base (digits.map digitValue).reverse

theorem IsDigit.digitValue?_eq {c : CodePoint} (digit : IsDigit base c) :
    digitValue? c = some (digitValue c) ∧ digitValue c < base := by
  obtain ⟨n, found, small⟩ := (Option.any_eq_true _ _).mp digit
  have known : digitValue c = n := by rw [digitValue, found, Option.getD_some]
  rw [known]
  exact ⟨found, of_decide_eq_true small⟩

theorem value_append (front back : Text) :
    value base (front ++ back) = value base front * base ^ back.length + value base back := by
  rw [value, value, value, List.map_append, List.reverse_append, Nat.ofDigits_append,
    List.length_reverse, List.length_map]
  ring

theorem value_singleton (c : CodePoint) : value base [c] = digitValue c := Nat.ofDigits_singleton

theorem value_cons (c : CodePoint) (digits : Text) :
    value base (c :: digits) = digitValue c * base ^ digits.length + value base digits := by
  have split : value base ([c] ++ digits) = _ := value_append [c] digits
  rwa [value_singleton] at split

theorem value_lt (large : 1 < base) (each : ∀ c ∈ t, IsDigit base c) :
    value base t < base ^ t.length := by
  have small : ∀ n ∈ (t.map digitValue).reverse, n < base := by
    intro n member
    obtain ⟨c, inside, rfl⟩ := List.mem_map.mp (List.mem_reverse.mp member)
    exact (each c inside).digitValue?_eq.2
  have bound := Nat.ofDigits_lt_base_pow_length large small
  rwa [List.length_reverse, List.length_map] at bound

/-- Every digit that is read moves what was read before it by one place. -/
theorem foldlM_push? (each : ∀ c ∈ t, IsDigit base c) (n : Nat) :
    t.foldlM (push? base) n = some (n * base ^ t.length + value base t) := by
  induction t generalizing n with
  | nil => simp [value]
  | cons c t ih =>
      obtain ⟨here, later⟩ := List.forall_mem_cons.mp each
      obtain ⟨found, small⟩ := here.digitValue?_eq
      have pushed : push? base n c = some (n * base + digitValue c) := by
        rw [push?, found]
        exact if_pos small
      calc
        (c :: t).foldlM (push? base) n = t.foldlM (push? base) (n * base + digitValue c) := by
          rw [List.foldlM_cons, pushed]
          rfl
        _ = some ((n * base + digitValue c) * base ^ t.length + value base t) := ih later _
        _ = some (n * base ^ (c :: t).length + value base (c :: t)) := by
          rw [value_cons, List.length_cons]
          congr 1
          ring

theorem read?_of_digits (inhabited : t ≠ []) (each : ∀ c ∈ t, IsDigit base c) :
    read? base t = some (value base t) := by
  rw [read?, if_neg (by simpa using inhabited), foldlM_push? each, Nat.zero_mul, Nat.zero_add]

theorem readWithin?_of_digits (limit : Option Nat) (inhabited : t ≠ [])
    (each : ∀ c ∈ t, IsDigit base c) :
    readWithin? limit base t =
      if base &&& (base - 1) = 0 ∨ ∀ most ∈ limit, t.length ≤ most then some (value base t)
      else none := by
  rw [readWithin?, read?_of_digits inhabited each]

/-- No part of the text is a run of more decimal digits than are read. -/
def Admits (limit : Option Nat) (text : Text) : Prop :=
  ∀ most ∈ limit, ∀ digits : Text, digits <:+: text → (∀ c ∈ digits, c ∈ Charset.decimal) →
    digits.length ≤ most

theorem write_ne_nil (base n : Nat) : write base n ≠ [] := by
  rw [write, ne_eq, List.map_eq_nil_iff]
  exact Nat.toDigits_ne_nil

theorem write_eq (large : 1 < base) (n : Nat) :
    write base n =
      (if n < base then [] else write base (n / base)) ++
        [CodePoint.ofChar (Nat.digitChar (n % base))] := by
  rw [write, Nat.toDigits_eq_if large]
  split
  · rename_i small
    rw [Nat.mod_eq_of_lt small]
    rfl
  · exact List.map_append

theorem digitValue_digitChar : ∀ d < 16, digitValue (CodePoint.ofChar (Nat.digitChar d)) = d := by
  decide

theorem value_write (large : 1 < base) (small : base ≤ 16) (n : Nat) :
    value base (write base n) = n := by
  induction n using Nat.strong_induction_on with
  | _ n ih =>
      have positive : 0 < base := Nat.zero_lt_of_lt large
      have last : digitValue (CodePoint.ofChar (Nat.digitChar (n % base))) = n % base :=
        digitValue_digitChar _ (Nat.lt_of_lt_of_le (Nat.mod_lt n positive) small)
      rw [write_eq large, value_append, value_singleton, last]
      split
      · rename_i single
        simp [value, Nat.mod_eq_of_lt single]
      · rename_i several
        have shorter : n / base < n := Nat.div_lt_self (by omega) large
        rw [ih (n / base) shorter, List.length_singleton, Nat.pow_one, Nat.mul_comm]
        exact Nat.div_add_mod n base

theorem mem_of_mem_write (large : 1 < base) {set : Text}
    (digits : ∀ d < base, CodePoint.ofChar (Nat.digitChar d) ∈ set) (n : Nat) :
    ∀ c ∈ write base n, c ∈ set := by
  induction n using Nat.strong_induction_on with
  | _ n ih =>
      intro c member
      rw [write_eq large] at member
      rcases List.mem_append.mp member with front | last
      · split at front
        · exact absurd front List.not_mem_nil
        · exact ih (n / base) (Nat.div_lt_self (by omega) large) c front
      · rw [List.mem_singleton.mp last]
        exact digits _ (Nat.mod_lt n (Nat.zero_lt_of_lt large))

end Descent.Numeral
