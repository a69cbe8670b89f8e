import Descent.Proofs.Literal.Digits
import Descent.Proofs.LowerCase

/-! Whole numbers are read by longest match, and back from every way to write them. -/

namespace Descent.Literal

open Grammar

open scoped Computability

inductive Radix where
  | hexadecimal
  | octal
  | binary
  | decimal
  deriving DecidableEq

namespace Radix

variable {text s t : Text} {i : Nat}

def base : Radix → Nat
  | hexadecimal => 16
  | octal => 8
  | binary => 2
  | decimal => 10

def digits : Radix → Text
  | hexadecimal => Charset.hexadecimal
  | octal => Charset.octal
  | binary => Charset.binary
  | decimal => Charset.decimal

def mark : Radix → Bool → Text
  | hexadecimal, capital => if capital then "0X" else "0x"
  | octal, capital => if capital then "0O" else "0o"
  | binary, capital => if capital then "0B" else "0b"
  | decimal, _ => []

def seconds : Radix → Text
  | hexadecimal => "xX"
  | octal => "oO"
  | binary => "bB"
  | decimal => Charset.decimal

def marks (radix : Radix) : Language CodePoint := Set.range radix.mark

def numerals (radix : Radix) : Language CodePoint := radix.marks * Charset.words radix.digits

theorem isDigit_of_digits (radix : Radix) : ∀ c ∈ radix.digits, Numeral.IsDigit radix.base c := by
  cases radix <;> decide

theorem digitChar_mem_digits (radix : Radix) :
    ∀ d < radix.base, CodePoint.ofChar (Nat.digitChar d) ∈ radix.digits := by
  cases radix <;> decide

theorem base_bounds (radix : Radix) : 1 < radix.base ∧ radix.base ≤ 16 := by
  cases radix <;> decide

/-- Only decimal digits are counted. -/
def Admits (limit : Option Nat) (radix : Radix) (digits : Text) : Prop :=
  radix = decimal → ∀ most ∈ limit, digits.length ≤ most

instance (limit : Option Nat) (radix : Radix) (digits : Text) :
    Decidable (radix.Admits limit digits) :=
  inferInstanceAs (Decidable (_ → _))

def evaluate (limit : Option Nat) (radix : Radix) (digits : Text) : Except Fault Payload :=
  if radix.Admits limit digits then .ok (.integer (Numeral.value radix.base digits))
  else .error .notNumeral

theorem numeral_eq (limit : Option Nat) (radix : Radix) {digits : Text}
    (word : digits ∈ Charset.words radix.digits) :
    Payload.numeral limit radix.base (.text digits) = radix.evaluate limit digits := by
  obtain ⟨inhabited, each⟩ := Charset.mem_words.mp word
  have read := Numeral.readWithin?_of_digits limit inhabited fun c inside =>
    radix.isDigit_of_digits c (each c inside)
  have counted : (radix.base &&& (radix.base - 1) = 0 ∨ ∀ most ∈ limit, digits.length ≤ most) ↔
      radix.Admits limit digits := by
    cases radix <;> simp [Admits, base]
  by_cases admitted : radix.Admits limit digits
  · rw [if_pos (counted.mpr admitted)] at read
    simp only [Payload.numeral, read, evaluate, if_pos admitted]
  · rw [if_neg (mt counted.mp admitted)] at read
    simp only [Payload.numeral, read, evaluate, if_neg admitted]

theorem seconds_disjoint {radix other : Radix} (different : radix ≠ other) :
    ∀ c ∈ radix.seconds, c ∉ other.seconds := by
  revert different
  cases radix <;> cases other <;> decide

theorem length_mark (radix : Radix) (capital : Bool) :
    (radix.mark capital).length = if radix = decimal then 0 else 2 := by
  cases radix <;> cases capital <;> rfl

theorem second_of_numerals {radix : Radix} {c : CodePoint} (written : t ∈ radix.numerals)
    (second : t[1]? = some c) : c ∈ radix.seconds := by
  rcases Language.mem_mul.mp written with ⟨_, ⟨capital, rfl⟩, digits, word, rfl⟩
  have size := radix.length_mark capital
  by_cases plain : radix = decimal
  · subst plain
    exact (Charset.mem_words.mp word).2 c (List.mem_of_getElem? second)
  · rw [if_neg plain] at size
    rw [List.getElem?_append_left (by omega)] at second
    have letter : ∀ d, (radix.mark capital)[1]? = some d → d ∈ radix.seconds := by
      cases radix <;> cases capital <;> decide
    exact letter c second

theorem length_of_numerals {radix : Radix} (written : t ∈ radix.numerals)
    (marked : radix ≠ decimal) : 1 < t.length := by
  rcases Language.mem_mul.mp written with ⟨_, ⟨capital, rfl⟩, digits, word, rfl⟩
  have size := radix.length_mark capital
  rw [if_neg marked] at size
  rw [List.length_append]
  omega

/-- The second character tells the base. -/
theorem eq_of_hasAt {radix other : Radix} (first : s ∈ radix.numerals) (second : t ∈ other.numerals)
    (here : text.hasAt s i = true) (there : text.hasAt t i = true) (long : 1 < s.length)
    (long' : 1 < t.length) : radix = other := by
  by_contra different
  have known := List.getElem?_eq_getElem long
  have same : t[1]? = some s[1] := by
    rw [← Text.getElem?_of_hasAt there long', Text.getElem?_of_hasAt here long, known]
  exact seconds_disjoint different s[1] (second_of_numerals first known)
    (second_of_numerals second same)

theorem numerals_cover (radix other : Radix) (marked : radix ≠ decimal)
    (different : radix ≠ other) : Covers radix.numerals other.numerals := by
  intro text i s first t second here there
  by_contra longer
  have long := length_of_numerals first marked
  exact different (eq_of_hasAt first second here there long (by omega))

theorem numerals_begin (radix : Radix) : BeginsIn Charset.decimal radix.numerals := by
  have digits : BeginsIn radix.digits (Charset.words radix.digits) :=
    (WrittenIn.words fun _ => id).beginsIn
  have front : BeginsIn Charset.decimal radix.marks := by
    rintro _ ⟨capital, rfl⟩
    cases radix <;> cases capital <;> decide
  refine front.mul ?_
  rintro ⟨capital, empty⟩
  have size := radix.length_mark capital
  rw [empty] at size
  by_cases plain : radix = decimal
  · subst plain
    exact digits
  · rw [if_neg plain] at size
    cases size

theorem nil_not_mem_numerals (radix : Radix) : [] ∉ radix.numerals := by
  intro empty
  rcases Language.mem_mul.mp empty with ⟨_, _, digits, word, whole⟩
  obtain ⟨_, rfl⟩ := List.append_eq_nil_iff.mp whole
  exact nil_not_mem_words _ word

theorem digits_eq {radix : Radix} {capital capital' : Bool}
    (same : radix.mark capital ++ s = radix.mark capital' ++ t) : s = t :=
  (List.append_inj same ((radix.length_mark capital).trans (radix.length_mark capital').symm)).2

open Text.LowerCase (simple runs irregular)

theorem exists_letters {radix : Radix} (marked : radix ≠ decimal) :
    ∃ small capital : CodePoint, radix.mark false = [('0' : CodePoint), small] ∧
      radix.mark true = [('0' : CodePoint), capital] ∧ small ∉ irregular ∧ 0 < small.value ∧
      ∀ run ∈ runs, run.Reaches small.value →
        (small.value : Int) - run.distance = capital.value := by
  cases radix with
  | hexadecimal => exact ⟨'x', 'X', by decide +kernel⟩
  | octal => exact ⟨'o', 'O', by decide +kernel⟩
  | binary => exact ⟨'b', 'B', by decide +kernel⟩
  | decimal => exact absurd rfl marked

theorem marks_eq_alike {radix : Radix} (marked : radix ≠ decimal) :
    radix.marks = (radix.mark false).alike := by
  have lower (capital : Bool) : Text.lower (radix.mark capital) = radix.mark false := by
    cases radix <;> cases capital <;> decide
  ext t
  constructor
  · rintro ⟨capital, rfl⟩
    exact ⟨(radix.length_mark capital).trans (radix.length_mark false).symm,
      (lower capital).trans (lower false).symm⟩
  · rintro ⟨size, same⟩
    obtain ⟨small, capital, spelled, spelled', regular, positive, only⟩ := exists_letters marked
    rw [lower, spelled] at same
    rw [spelled] at size
    obtain ⟨c, d, rfl⟩ := List.length_eq_two.mp size
    -- Letter by letter, since neither a sigma nor a dotted capital becomes part of a mark.
    have zero : ('0' : CodePoint) ∉ irregular := by decide
    have whole := Text.LowerCase.map_simple_of_lowerAfter same (by simp [zero, regular])
    obtain ⟨first, second⟩ : simple c = ('0' : CodePoint) ∧ simple d = small := by
      simpa using whole
    have digit : c = ('0' : CodePoint) :=
      or_self_iff.mp (Text.LowerCase.eq_or_eq_of_simple first (by decide) (by decide +kernel))
    subst digit
    rcases Text.LowerCase.eq_or_eq_of_simple second positive only with rfl | rfl
    · exact ⟨false, spelled⟩
    · exact ⟨true, spelled'⟩

end Radix

/-- A sign that may be missing, the mark of a base, and digits of the base. -/
structure IntegerLiteral where
  sign : Text
  radix : Radix
  capital : Bool
  digits : Text
  signed : sign ∈ signs
  written : digits ∈ Charset.words radix.digits

namespace IntegerLiteral

def number (literal : IntegerLiteral) : Text := literal.radix.mark literal.capital ++ literal.digits

def text (literal : IntegerLiteral) : Text := literal.sign ++ literal.number

def value (literal : IntegerLiteral) : Int :=
  let n : Int := Numeral.value literal.radix.base literal.digits
  if literal.sign = ("-" : Text) then -n else n

def Fits (limit : Option Nat) (literal : IntegerLiteral) : Prop :=
  literal.radix.Admits limit literal.digits

instance (limit : Option Nat) (literal : IntegerLiteral) : Decidable (literal.Fits limit) :=
  inferInstanceAs (Decidable (literal.radix.Admits limit literal.digits))

theorem number_mem (literal : IntegerLiteral) : literal.number ∈ literal.radix.numerals :=
  Language.append_mem_mul ⟨literal.capital, rfl⟩ literal.written

/-- No text is a number in two ways. -/
theorem parts_eq {a b : IntegerLiteral} (same : a.text = b.text) :
    a.sign = b.sign ∧ a.radix = b.radix ∧ a.digits = b.digits := by
  have inhabited (literal : IntegerLiteral) : literal.number ≠ [] := fun empty =>
    literal.radix.nil_not_mem_numerals (empty ▸ literal.number_mem)
  have apart (radix : Radix) : Separates signs radix.numerals :=
    signs_separate radix.numerals_begin (by decide)
  -- The first character tells the sign, the second one behind it tells the base, and the mark of a
  -- base is always equally long.
  have here : a.text.hasAt (a.sign ++ a.number) 0 = true := Text.hasAt_self a.text
  have there : a.text.hasAt (b.sign ++ b.number) 0 = true := same ▸ Text.hasAt_self b.text
  have sign : a.sign = b.sign := (apart a.radix).eq_front (apart b.radix) a.signed a.number_mem
    (inhabited a) here b.signed b.number_mem (inhabited b) there
  have number : a.number = b.number := by
    rw [text, text, sign] at same
    exact List.append_cancel_left same
  have radix : a.radix = b.radix := by
    by_cases long : 1 < a.number.length
    · have self := Text.hasAt_self a.number
      exact Radix.eq_of_hasAt a.number_mem (number ▸ b.number_mem) self self long long
    · have plain (literal : IntegerLiteral) (short : ¬ 1 < literal.number.length) :
          literal.radix = .decimal :=
        by_contra fun marked => short (Radix.length_of_numerals literal.number_mem marked)
      exact (plain a long).trans (plain b (number ▸ long)).symm
  rw [IntegerLiteral.number, IntegerLiteral.number, radix] at number
  exact ⟨sign, radix, Radix.digits_eq number⟩

theorem value_eq {a b : IntegerLiteral} (same : a.text = b.text) : a.value = b.value := by
  obtain ⟨sign, radix, digits⟩ := parts_eq same
  rw [value, value, sign, radix, digits]

theorem fits_iff {a b : IntegerLiteral} {limit : Option Nat} (same : a.text = b.text) :
    a.Fits limit ↔ b.Fits limit := by
  obtain ⟨_, radix, digits⟩ := parts_eq same
  rw [Fits, Fits, radix, digits]

/-- A number is written with its sign, and with a plus only if this is wanted. -/
def signOf (n : Int) (plus : Bool) : Text := if n < 0 then "-" else if plus then "+" else []

theorem signOf_mem (n : Int) (plus : Bool) : signOf n plus ∈ signs := by
  rw [signOf]
  split
  · exact .inr ⟨'-', by decide, rfl⟩
  · split
    · exact .inr ⟨'+', by decide, rfl⟩
    · exact .inl rfl

theorem write_mem (radix : Radix) (n : Nat) :
    Numeral.write radix.base n ∈ Charset.words radix.digits :=
  Charset.mem_words.mpr ⟨Numeral.write_ne_nil _ n,
    Numeral.mem_of_mem_write radix.base_bounds.1 radix.digitChar_mem_digits n⟩

def ofInt (radix : Radix) (capital plus : Bool) (n : Int) : IntegerLiteral where
  sign := signOf n plus
  radix := radix
  capital := capital
  digits := Numeral.write radix.base n.natAbs
  signed := signOf_mem n plus
  written := write_mem radix n.natAbs

theorem value_ofInt (radix : Radix) (capital plus : Bool) (n : Int) :
    (ofInt radix capital plus n).value = n := by
  have digits : Numeral.value radix.base (Numeral.write radix.base n.natAbs) = n.natAbs :=
    Numeral.value_write radix.base_bounds.1 radix.base_bounds.2 n.natAbs
  have minus : signOf n plus = ("-" : Text) ↔ n < 0 := by
    rw [signOf]
    split
    · rename_i negative
      exact iff_of_true rfl negative
    · rename_i positive
      refine iff_of_false ?_ positive
      cases plus <;> decide
  calc
    (ofInt radix capital plus n).value = if n < 0 then -(n.natAbs : Int) else n.natAbs := by
      rw [value]
      simp only [ofInt, digits, minus]
    _ = n := by
      split
      · omega
      · omega

theorem text_ofInt (n : Int) : (ofInt .decimal false false n).text = Text.ofInt n := by
  cases n with
  | ofNat n => rfl
  | negSucc n =>
      have minus : signOf (.negSucc n) false = "-" := if_pos (Int.negSucc_lt_zero n)
      change signOf (.negSucc n) false ++ Text.ofNat (n + 1) = _
      rw [minus]
      rfl

end IntegerLiteral

variable {defs : Definitions} {text : Text}

def Counts (limit : Option Nat) (t : Text) (result : Except Fault Maybe) : Prop :=
  ∃ (radix : Radix) (capital : Bool) (digits : Text), digits ∈ Charset.words radix.digits ∧
    t = radix.mark capital ++ digits ∧ result = (radix.evaluate limit digits).map .just

theorem numeral_counts (limit : Option Nat) (radix : Radix) {part : Grammar}
    (inner : Longest defs text radix.numerals (fun t m => ∃ mark ∈ radix.marks,
      ∃ digits ∈ Charset.words radix.digits, t = mark ++ digits ∧ m = .just (.text digits)) part) :
    Evaluates defs text radix.numerals (Counts limit)
      (.map (Payload.numeral limit radix.base) part) := by
  refine inner.map_evaluates ?_
  rintro _ _ _ ⟨_, ⟨capital, rfl⟩, digits, word, rfl, rfl⟩
  refine ⟨_, rfl, radix, capital, digits, word, rfl, ?_⟩
  rw [Radix.numeral_eq limit radix word]

theorem marked_evaluates (limit : Option Nat) (radix : Radix) {mark : String}
    (marked : radix ≠ .decimal) (spelled : Text.ofString mark = radix.mark false) :
    Evaluates defs text radix.numerals (Counts limit)
      (Literal.marked limit mark radix.digits radix.base) := by
  have start : Longest defs text radix.marks (fun _ m => m = .nothing)
      (.skip (.wordIgnoringCase (Text.ofString mark))) := by
    rw [Radix.marks_eq_alike marked, spelled]
    exact (Longest.wordIgnoringCase _).skip
  have apart : Separates radix.marks (Charset.words radix.digits) := by
    refine separates_of_length (n := 2) ?_ _
    rintro _ ⟨capital, rfl⟩
    exact (radix.length_mark capital).trans (if_neg marked)
  have digits : LongestText defs text (Charset.words radix.digits)
      (.sequence [oneOrMore (.oneOf radix.digits)]) := (LongestText.words _).sequence_singleton
  exact numeral_counts limit radix (LongestText.joined_behind start digits apart)

theorem decimal_evaluates (limit : Option Nat) :
    Evaluates defs text Radix.decimal.numerals (Counts limit)
      (.map (Payload.numeral limit 10) digits) := by
  have plain : Radix.decimal.numerals = Charset.words Charset.decimal := by
    have unmarked : Radix.decimal.marks = 1 := Set.range_const
    rw [Radix.numerals, unmarked, one_mul]
    rfl
  refine numeral_counts limit .decimal ?_
  rw [plain]
  refine digits_longest.mono ?_
  rintro t _ word rfl
  exact ⟨[], ⟨false, rfl⟩, t, word, rfl, rfl⟩

def naturals : Language CodePoint :=
  Radix.hexadecimal.numerals + (Radix.octal.numerals + (Radix.binary.numerals +
    Radix.decimal.numerals))

theorem mem_naturals {t : Text} : t ∈ naturals ↔ ∃ radix : Radix, t ∈ radix.numerals := by
  constructor
  · rintro (member | member | member | member)
    · exact ⟨_, member⟩
    · exact ⟨_, member⟩
    · exact ⟨_, member⟩
    · exact ⟨_, member⟩
  · rintro ⟨radix, member⟩
    cases radix with
    | hexadecimal => exact .inl member
    | octal => exact .inr (.inl member)
    | binary => exact .inr (.inr (.inl member))
    | decimal => exact .inr (.inr (.inr member))

theorem naturals_begin : BeginsIn Charset.decimal naturals := by
  intro t member
  obtain ⟨radix, known⟩ := mem_naturals.mp member
  exact radix.numerals_begin t known

theorem naturals_evaluate (limit : Option Nat) :
    Evaluates defs text naturals (Counts limit) (firstOf
      [marked limit "0x" Charset.hexadecimal 16, marked limit "0o" Charset.octal 8,
        marked limit "0b" Charset.binary 2, .map (Payload.numeral limit 10) digits]) := by
  have binary : Evaluates defs text (Radix.binary.numerals + Radix.decimal.numerals) (Counts limit)
      (firstOf [marked limit "0b" Charset.binary 2, .map (Payload.numeral limit 10) digits]) :=
    (marked_evaluates limit .binary nofun rfl).choice_pair (decimal_evaluates limit)
      (Radix.numerals_cover .binary .decimal nofun nofun)
  have octal : Evaluates defs text
      (Radix.octal.numerals + (Radix.binary.numerals + Radix.decimal.numerals)) (Counts limit)
      (firstOf [marked limit "0o" Charset.octal 8, marked limit "0b" Charset.binary 2,
        .map (Payload.numeral limit 10) digits]) := by
    refine (marked_evaluates limit .octal nofun rfl).choice_cons binary (.add_right ?_ ?_)
    · exact Radix.numerals_cover .octal .binary nofun nofun
    · exact Radix.numerals_cover .octal .decimal nofun nofun
  refine (marked_evaluates limit .hexadecimal nofun rfl).choice_cons octal
    (.add_right ?_ (.add_right ?_ ?_))
  · exact Radix.numerals_cover .hexadecimal .octal nofun nofun
  · exact Radix.numerals_cover .hexadecimal .binary nofun nofun
  · exact Radix.numerals_cover .hexadecimal .decimal nofun nofun

def integers : Language CodePoint := signs * naturals

theorem mem_integers {t : Text} : t ∈ integers ↔ ∃ literal : IntegerLiteral, literal.text = t := by
  constructor
  · rintro ⟨sign, signed, number, member, rfl⟩
    obtain ⟨radix, _, ⟨capital, rfl⟩, digits, written, rfl⟩ := mem_naturals.mp member
    exact ⟨{ sign, radix, capital, digits, signed, written }, rfl⟩
  · rintro ⟨literal, rfl⟩
    exact Language.append_mem_mul literal.signed (mem_naturals.mpr ⟨_, literal.number_mem⟩)

theorem sign_or_plus_longest :
    Longest defs text signs
      (fun t m => t ∈ signs ∧ m = .just (.text (if t = [] then "+" else t)))
      (optionalOr (.text "+") sign) := by
  refine Longest.option ((Longest.oneOf "+-").mono ?_) ⟨.inl rfl, rfl⟩
  rintro _ _ ⟨c, known, rfl⟩ rfl
  exact ⟨.inr ⟨c, known, rfl⟩, rfl⟩

theorem integer_evaluates (limit : Option Nat) :
    Evaluates defs text integers (fun t result => ∃ literal : IntegerLiteral, literal.text = t ∧
      result = if literal.Fits limit then .ok (.just (.integer literal.value))
        else .error .notNumeral) (integerWithin limit) := by
  have pair : Evaluates defs text integers (fun t result => ∃ literal : IntegerLiteral,
      literal.text = t ∧ result = ((literal.radix.evaluate limit literal.digits).map fun number =>
        .list [.text (if literal.sign = [] then "+" else literal.sign), number]).map .just)
      (.sequence [optionalOr (.text "+") sign, firstOf
        [marked limit "0x" Charset.hexadecimal 16, marked limit "0o" Charset.octal 8,
          marked limit "0b" Charset.binary 2, .map (Payload.numeral limit 10) digits]]) := by
    refine (Longest.evaluates_iff.mp sign_or_plus_longest).sequence_pair (naturals_evaluate limit)
      (signs_separate naturals_begin (by decide)) ?_
    rintro sign _ _ _ ⟨signed, rfl⟩ ⟨radix, capital, digits, written, rfl, rfl⟩
    refine ⟨{ sign, radix, capital, digits, signed, written }, rfl, ?_⟩
    cases radix.evaluate limit digits <;> rfl
  refine pair.map ?_
  rintro _ _ _ ⟨literal, rfl, rfl⟩
  refine ⟨_, rfl, literal, rfl, ?_⟩
  have minus : (if literal.sign = [] then ("+" : Text) else literal.sign) = ("-" : Text) ↔
      literal.sign = ("-" : Text) := by
    split
    · rename_i missing
      rw [missing]
      decide
    · exact Iff.rfl
  rw [Radix.evaluate]
  by_cases fits : literal.Fits limit
  · have admitted : literal.radix.Admits limit literal.digits := fits
    rw [if_pos admitted, if_pos fits]
    exact congrArg (Except.ok ∘ Maybe.just ∘ Payload.integer) (if_congr minus rfl rfl)
  · have refused : ¬ literal.radix.Admits limit literal.digits := fits
    rw [if_neg refused, if_neg fits]
    rfl

/-- Digits that stand in the text are not too many if no run of digits in it is too long. -/
theorem integer_produces {limit : Option Nat} (admitted : Numeral.Admits limit text) :
    Produces defs text (fun m => ∃ n, m = .just (.integer n)) (integerWithin limit) := by
  refine (integer_evaluates limit).produces ?_
  rintro _ _ _ inside ⟨literal, rfl, rfl⟩
  have part : literal.digits <:+: literal.text :=
    ⟨literal.sign ++ literal.radix.mark literal.capital, [], by
      simp [IntegerLiteral.text, IntegerLiteral.number]⟩
  have fits : literal.Fits limit := by
    intro decimal most known
    have written := (Charset.mem_words.mp literal.written).2
    rw [decimal] at written
    exact admitted most known literal.digits (part.trans inside) written
  exact ⟨_, if_pos fits, literal.value, rfl⟩

theorem integer_whole (limit : Option Nat) (literal : IntegerLiteral) (name : Text) :
    ((integerWithin limit).parse (Cursor.start literal.text name)).outcome =
      if literal.Fits limit then .done (.success (.just (.integer literal.value))
        (Body.cursor { text := literal.text, name } literal.text.length) 0)
      else .raised .notNumeral := by
  let body : Body := { text := literal.text, name }
  have here : body.text.hasAt literal.text 0 = true := Text.hasAt_self literal.text
  have member : literal.text ∈ integers := mem_integers.mpr ⟨literal, rfl⟩
  rcases Evaluates.parse (fun _ => integer_evaluates limit) body 0 with
    ⟨t, _, stands, ⟨other, rfl, rfl⟩, ends⟩ | ⟨_, none⟩
  · have whole : body.text.LongestAt integers 0 literal.text := by
      refine ⟨member, here, fun s _ found => ?_⟩
      exact ((Text.hasAt_iff _ _ _).mp found).length_le
    have same : other.text = literal.text := stands.unique whole
    refine ends.trans ?_
    rw [IntegerLiteral.value_eq same, same, Nat.zero_add]
    by_cases fits : literal.Fits limit
    · rw [if_pos ((IntegerLiteral.fits_iff same).mpr fits), if_pos fits]
      rfl
    · rw [if_neg (mt (IntegerLiteral.fits_iff same).mp fits), if_neg fits]
      rfl
  · rw [none _ member] at here
    exact absurd here nofun

/-- No text has two values. A number is read exactly where one is written, up to the end of the
longest one, as its value, unless this is a decimal one of more digits than are read. Then the run
stops with a fault. Every number is read back from its text in each of the bases, from its decimal
text if this is not too long. -/
theorem integer_reads_longest (limit : Option Nat) :
    Function.FactorsThrough IntegerLiteral.value IntegerLiteral.text ∧
    (∀ (body : Body) (i : Nat),
      (∃ literal : IntegerLiteral,
        body.text.LongestAt (Set.range IntegerLiteral.text) i literal.text ∧
        ((integerWithin limit).parse (body.cursor i)).outcome =
          if literal.Fits limit then .done (.success (.just (.integer literal.value))
            (body.cursor (i + literal.text.length)) i)
          else .raised .notNumeral) ∨
      (∃ r, ((integerWithin limit).parse (body.cursor i)).outcome = .done r ∧
        r.succeeded = false) ∧
      ∀ literal : IntegerLiteral, body.text.hasAt literal.text i = false) ∧
    ∀ (n : Int) (name : Text),
      ((∀ most ∈ limit, (Numeral.write 10 n.natAbs).length ≤ most) →
        ((integerWithin limit).parse (Cursor.start (Text.ofInt n) name)).outcome =
          .done (.success (.just (.integer n))
            (Body.cursor { text := Text.ofInt n, name } (Text.ofInt n).length) 0)) ∧
      ∀ (radix : Radix) (capital plus : Bool),
        (radix = .decimal → ∀ most ∈ limit, (Numeral.write 10 n.natAbs).length ≤ most) →
        ∃ t : Text, t = IntegerLiteral.signOf n plus ++
            (radix.mark capital ++ Numeral.write radix.base n.natAbs) ∧
          ((integerWithin limit).parse (Cursor.start t name)).outcome =
            .done (.success (.just (.integer n)) (Body.cursor { text := t, name } t.length) 0) := by
  refine ⟨fun _ _ => IntegerLiteral.value_eq, ?_, ?_⟩
  · intro body i
    have range : integers = Set.range IntegerLiteral.text := Set.ext fun t => mem_integers
    rcases Evaluates.parse (fun _ => integer_evaluates limit) body i with
      ⟨t, _, stands, ⟨literal, rfl, rfl⟩, ends⟩ | ⟨⟨e, fails⟩, none⟩
    · refine .inl ⟨literal, range ▸ stands, ends.trans ?_⟩
      split
      · rfl
      · rfl
    · exact .inr ⟨⟨_, fails, rfl⟩, fun literal => none _ (mem_integers.mpr ⟨literal, rfl⟩)⟩
  · intro n name
    have whole (radix : Radix) (capital plus : Bool)
        (short : radix = .decimal → ∀ most ∈ limit, (Numeral.write 10 n.natAbs).length ≤ most) :
        ((integerWithin limit).parse
            (Cursor.start (IntegerLiteral.ofInt radix capital plus n).text name)).outcome =
          .done (.success (.just (.integer n)) (Body.cursor
            { text := (IntegerLiteral.ofInt radix capital plus n).text, name }
            (IntegerLiteral.ofInt radix capital plus n).text.length) 0) := by
      have fits : (IntegerLiteral.ofInt radix capital plus n).Fits limit := by
        rintro rfl
        exact short rfl
      rw [integer_whole, if_pos fits, IntegerLiteral.value_ofInt]
    constructor
    · intro short
      have read := whole .decimal false false fun _ => short
      rwa [IntegerLiteral.text_ofInt] at read
    · intro radix capital plus short
      exact ⟨_, rfl, whole radix capital plus short⟩

theorem integer_reads_longest_negative :
    (∀ most ∈ some Numeral.defaultLimit, (Numeral.write 10 (-42 : Int).natAbs).length ≤ most) ∧
    (integer.parse (Cursor.start "-42" [])).outcome =
      .done (.success (.just (.integer (-42)))
        (Body.cursor { text := "-42", name := [] } 3) 0) ∧
    (integer.parse (Cursor.start "-0X2a" [])).outcome =
      .done (.success (.just (.integer (-42)))
        (Body.cursor { text := "-0X2a", name := [] } 5) 0) := by
  have short : ∀ most ∈ some Numeral.defaultLimit,
      (Numeral.write 10 (-42 : Int).natAbs).length ≤ most := by decide
  obtain ⟨decimal, marked⟩ := (integer_reads_longest (some Numeral.defaultLimit)).2.2 (-42) []
  obtain ⟨_, rfl, hexadecimal⟩ := marked .hexadecimal true false nofun
  exact ⟨short, decimal short, hexadecimal⟩

/-- Decimal digits alone are a number, but one that stops the run if they are too many. -/
theorem integer_of_digits (limit : Option Nat) {digits : Text}
    (written : digits ∈ Charset.words Charset.decimal) (name : Text) :
    (∃ literal : IntegerLiteral, literal.text = digits ∧ literal.radix = .decimal) ∧
      ((integerWithin limit).parse (Cursor.start digits name)).outcome =
        if ∀ most ∈ limit, digits.length ≤ most then
          .done (.success (.just (.integer (Numeral.value 10 digits)))
            (Body.cursor { text := digits, name } digits.length) 0)
        else .raised .notNumeral := by
  let literal : IntegerLiteral :=
    { sign := [], radix := .decimal, capital := false, digits, signed := .inl rfl, written }
  have fits : literal.Fits limit ↔ ∀ most ∈ limit, digits.length ≤ most := forall_prop_of_true rfl
  refine ⟨⟨literal, rfl, rfl⟩, (integer_whole limit literal name).trans ?_⟩
  exact if_congr fits rfl rfl

/-- No more than 4300 digits are read, although one more is a number as well. -/
theorem integer_refuses_long :
    (∃ r, (integer.parse (Cursor.start (List.replicate 4300 ('1' : CodePoint)) [])).outcome =
      .done r ∧ r.succeeded = true) ∧
    (∃ literal : IntegerLiteral,
      literal.text = List.replicate 4301 ('1' : CodePoint) ∧ literal.radix = .decimal) ∧
    (integer.parse (Cursor.start (List.replicate 4301 ('1' : CodePoint)) [])).outcome =
      .raised .notNumeral := by
  have written (n : Nat) :
      List.replicate (n + 1) ('1' : CodePoint) ∈ Charset.words Charset.decimal := by
    refine Charset.mem_words.mpr ⟨List.cons_ne_nil _ (List.replicate n _), fun c member => ?_⟩
    rw [List.eq_of_mem_replicate member]
    decide
  have bound (n : Nat) : (∀ most ∈ some Numeral.defaultLimit,
      (List.replicate n ('1' : CodePoint)).length ≤ most) ↔ n ≤ 4300 := by
    simp [Numeral.defaultLimit]
  have short := (integer_of_digits (some Numeral.defaultLimit) (written 4299) []).2
  obtain ⟨number, long⟩ := integer_of_digits (some Numeral.defaultLimit) (written 4300) []
  rw [if_pos ((bound 4300).mpr (by omega))] at short
  rw [if_neg (mt (bound 4301).mp (by omega))] at long
  exact ⟨⟨_, short, rfl⟩, number, long⟩

end Descent.Literal
