import Descent.Literal.Number
import Descent.Proofs.Language
import Descent.Proofs.Numeral

/-! The texts of numbers, all of which can be read. -/

namespace Descent

open scoped Computability

namespace Literal

theorem decimal_isDigit : ∀ c ∈ Charset.decimal, Numeral.IsDigit 10 c := by decide

def signs : Language CodePoint := 1 + Charset.language "+-"

def exponents : Language CodePoint :=
  Charset.language "eE" * (signs * Charset.words Charset.decimal)

def point : Language CodePoint := {("." : Text)}

def fractions : Language CodePoint :=
  Charset.words Charset.decimal * (point * (1 + Charset.words Charset.decimal)) +
    point * Charset.words Charset.decimal

def floats : Language CodePoint :=
  signs * (fractions * (1 + exponents) + Charset.words Charset.decimal * exponents)

end Literal

namespace Double.Literal

variable {s t whole fraction rest : Text}

theorem sign_append (signed : s ∈ Descent.Literal.signs)
    (unsigned : ∀ c ∈ t.head?, c ≠ '-' ∧ c ≠ '+') : ∃ negative, sign (s ++ t) = (negative, t) := by
  rcases signed with rfl | ⟨c, member, rfl⟩
  · cases t with
    | nil => exact ⟨false, rfl⟩
    | cons c t =>
        obtain ⟨noMinus, noPlus⟩ := unsigned c rfl
        exact ⟨false, by rw [List.nil_append, sign, if_neg noMinus, if_neg noPlus]⟩
  · have kind : c = '+' ∨ c = '-' := by simpa [Text.ofString] using member
    rcases kind with rfl | rfl
    · exact ⟨false, rfl⟩
    · exact ⟨true, rfl⟩

theorem span_digits (digits : ∀ c ∈ whole, c.isDigit = true)
    (other : ∀ c ∈ rest.head?, c.isDigit = false) :
    (whole ++ rest).takeWhile CodePoint.isDigit = whole ∧
      (whole ++ rest).dropWhile CodePoint.isDigit = rest := by
  rw [List.takeWhile_append_of_pos digits, List.dropWhile_append_of_pos digits]
  cases rest with
  | nil => exact ⟨List.append_nil whole, rfl⟩
  | cons c rest =>
      have here : c.isDigit = false := other c rfl
      rw [List.takeWhile_cons_of_neg (by simp [here]), List.dropWhile_cons_of_neg (by simp [here]),
        List.append_nil]
      exact ⟨rfl, rfl⟩

theorem isDigit_of_decimal : ∀ c ∈ Charset.decimal, c.isDigit = true := by decide

theorem exponent?_of_exponents (scaled : rest ∈ 1 + Descent.Literal.exponents) :
    (exponent? rest).isSome = true ∧ ∀ c ∈ rest.head?, c = 'e' ∨ c = 'E' := by
  rcases scaled with rfl | ⟨_, ⟨c, member, rfl⟩, _, ⟨s, signed, digits, decimal, rfl⟩, rfl⟩
  · exact ⟨rfl, nofun⟩
  · have letter : c = 'e' ∨ c = 'E' := by simpa [Text.ofString] using member
    obtain ⟨inhabited, each⟩ := Charset.mem_words.mp decimal
    have unsigned : ∀ c ∈ Charset.decimal, c ≠ '-' ∧ c ≠ '+' := by decide
    obtain ⟨negative, split⟩ := sign_append signed fun c first =>
      unsigned c (each c (List.mem_of_mem_head? first))
    have read := Numeral.read?_of_digits inhabited fun c inside =>
      Descent.Literal.decimal_isDigit c (each c inside)
    refine ⟨?_, fun d first => Option.some.inj first ▸ letter⟩
    change (exponent? (c :: (s ++ digits))).isSome = true
    simp only [exponent?, if_pos letter, split, read]
    rfl

theorem read?_of_point {negative : Bool} {exponent : Int}
    (split : sign t = (negative, whole ++ ('.' : CodePoint) :: (fraction ++ rest)))
    (digits : ∀ c ∈ whole ++ fraction, c.isDigit = true) (inhabited : whole ++ fraction ≠ [])
    (noDigit : ∀ c ∈ rest.head?, c.isDigit = false) (scale : exponent? rest = some exponent) :
    read? t = some { negative, whole, fraction, exponent } := by
  have point : ∀ c ∈ (('.' : CodePoint) :: (fraction ++ rest)).head?, c.isDigit = false := by
    rintro c ⟨⟩
    rfl
  have present : ¬ (whole.isEmpty && fraction.isEmpty) = true := by
    simpa [← List.append_eq_nil_iff] using inhabited
  obtain ⟨first, second⟩ := List.forall_mem_append.mp digits
  obtain ⟨wholeRead, afterWhole⟩ := span_digits first point
  obtain ⟨fractionRead, afterFraction⟩ := span_digits second noDigit
  simp only [read?, split, wholeRead, afterWhole, fractionRead, afterFraction, if_pos,
    if_neg present, scale]
  rfl

theorem read?_of_no_point {negative : Bool} {exponent : Int}
    (split : sign t = (negative, whole ++ rest)) (digits : ∀ c ∈ whole, c.isDigit = true)
    (inhabited : whole ≠ []) (noDigit : ∀ c ∈ rest.head?, c.isDigit = false)
    (noPoint : ∀ c ∈ rest.head?, c ≠ '.') (scale : exponent? rest = some exponent) :
    read? t = some { negative, whole, fraction := [], exponent } := by
  have present : ¬ (whole.isEmpty && List.isEmpty ([] : Text)) = true := by
    simpa using inhabited
  obtain ⟨wholeRead, afterWhole⟩ := span_digits digits noDigit
  simp only [read?, split, wholeRead, afterWhole]
  cases rest with
  | nil =>
      simp only [if_neg present, scale]
      rfl
  | cons c rest =>
      simp only [if_neg (noPoint c rfl), if_neg present, scale]
      rfl

theorem number_of_pointed (digits : ∀ c ∈ whole ++ fraction, c ∈ Charset.decimal)
    (inhabited : whole ++ fraction ≠ [])
    (pointed : t = whole ++ (("." : Text) ++ fraction) ∨ t = whole ∧ fraction = []) :
    t ≠ [] ∧ ∀ c ∈ t, c ∈ Charset.decimal ++ ("." : Text) := by
  obtain ⟨first, second⟩ := List.forall_mem_append.mp digits
  rcases pointed with rfl | ⟨rfl, rfl⟩
  · refine ⟨by simp [Text.ofString], fun c member => ?_⟩
    simp only [List.mem_append] at member ⊢
    rcases member with inside | inside | inside
    · exact .inl (first c inside)
    · exact .inr inside
    · exact .inl (second c inside)
  · rw [List.append_nil] at inhabited
    exact ⟨inhabited, fun c member => List.mem_append_left _ (first c member)⟩

/-- The parts of a literal, of which the fraction may come without its point if it is empty. -/
theorem read?_append (signed : s ∈ Descent.Literal.signs)
    (digits : ∀ c ∈ whole ++ fraction, c ∈ Charset.decimal) (inhabited : whole ++ fraction ≠ [])
    (scaled : rest ∈ 1 + Descent.Literal.exponents)
    (pointed : t = whole ++ (("." : Text) ++ fraction) ∨ t = whole ∧ fraction = []) :
    ∃ literal, read? (s ++ (t ++ rest)) = some literal ∧ literal.whole = whole ∧
      literal.fraction = fraction := by
  obtain ⟨scale, letter⟩ := exponent?_of_exponents scaled
  obtain ⟨exponent, scale⟩ := Option.isSome_iff_exists.mp scale
  have noDigit : ∀ c ∈ rest.head?, c.isDigit = false := by
    intro c here
    rcases letter c here with rfl | rfl <;> rfl
  have noPoint : ∀ c ∈ rest.head?, c ≠ '.' := by
    intro c here
    rcases letter c here with rfl | rfl <;> decide
  have isDigit : ∀ c ∈ whole ++ fraction, c.isDigit = true := fun c inside =>
    isDigit_of_decimal c (digits c inside)
  have unsigned : ∀ c ∈ (t ++ rest).head?, c ≠ '-' ∧ c ≠ '+' := by
    obtain ⟨present, known⟩ := number_of_pointed digits inhabited pointed
    have plain : ∀ c ∈ Charset.decimal ++ ("." : Text), c ≠ '-' ∧ c ≠ '+' := by decide
    intro c here
    rw [List.head?_append_of_ne_nil _ present] at here
    exact plain c (known c (List.mem_of_mem_head? here))
  obtain ⟨negative, split⟩ := sign_append signed unsigned
  rcases pointed with rfl | ⟨rfl, rfl⟩
  · have shape : whole ++ (("." : Text) ++ fraction) ++ rest =
        whole ++ ('.' : CodePoint) :: (fraction ++ rest) := by simp [Text.ofString]
    rw [shape] at split ⊢
    exact ⟨_, read?_of_point split isDigit inhabited noDigit scale, rfl, rfl⟩
  · rw [List.append_nil] at isDigit inhabited
    exact ⟨_, read?_of_no_point split isDigit inhabited noDigit noPoint scale, rfl, rfl⟩

end Double.Literal

theorem Literal.parts_of_floats {t : Text} (written : t ∈ Literal.floats) :
    ∃ s ∈ signs, ∃ rest ∈ 1 + exponents, ∃ whole fraction front : Text,
      t = s ++ (front ++ rest) ∧ (∀ c ∈ whole ++ fraction, c ∈ Charset.decimal) ∧
      whole ++ fraction ≠ [] ∧
      (front = whole ++ (("." : Text) ++ fraction) ∨ front = whole ∧ fraction = []) := by
  obtain ⟨s, signed, _, number, rfl⟩ := written
  rcases number with ⟨front, pointed, rest, scaled, rfl⟩ | ⟨whole, digits, rest, scaled, rfl⟩
  · rcases pointed with ⟨whole, digits, _, ⟨_, rfl, fraction, more, rfl⟩, rfl⟩ |
      ⟨_, rfl, fraction, digits, rfl⟩
    · obtain ⟨inhabited, each⟩ := Charset.mem_words.mp digits
      have later : ∀ c ∈ fraction, c ∈ Charset.decimal := by
        rcases more with rfl | more
        · exact nofun
        · exact (Charset.mem_words.mp more).2
      exact ⟨s, signed, rest, scaled, whole, fraction, _, rfl,
        List.forall_mem_append.mpr ⟨each, later⟩, by simp [inhabited], .inl rfl⟩
    · obtain ⟨inhabited, each⟩ := Charset.mem_words.mp digits
      exact ⟨s, signed, rest, scaled, [], fraction, _, rfl, each, inhabited, .inl rfl⟩
  · obtain ⟨inhabited, each⟩ := Charset.mem_words.mp digits
    refine ⟨s, signed, rest, .inr scaled, whole, [], whole, rfl, ?_, ?_, .inr ⟨rfl, rfl⟩⟩
    · rwa [List.append_nil]
    · rwa [List.append_nil]

/-- Every float that is written can be read. -/
theorem Double.read?_of_floats {t : Text} (written : t ∈ Literal.floats) :
    ∃ x, Double.read? t = some x := by
  obtain ⟨s, signed, rest, scaled, whole, fraction, front, rfl, digits, inhabited, pointed⟩ :=
    Descent.Literal.parts_of_floats written
  obtain ⟨literal, read, rfl, rfl⟩ :=
    Literal.read?_append signed digits inhabited scaled pointed
  have value := Numeral.read?_of_digits inhabited fun c inside =>
    Descent.Literal.decimal_isDigit c (digits c inside)
  rw [Double.read?, read, Option.bind_some, Literal.value?, value]
  exact ⟨_, rfl⟩

end Descent
