import Descent.Proofs.Literal.Digits

/-! Numbers with a fraction, an exponent or both are read by longest match. -/

namespace Descent.Literal

open Grammar

open scoped Computability

variable {defs : Definitions} {text : Text}

theorem nil_not_mem_point (L : Language CodePoint) : [] ∉ point * L :=
  nil_not_mem_mul (fun empty => List.cons_ne_nil _ _ (Set.mem_singleton_iff.mp empty).symm) L

theorem nil_not_mem_exponents : [] ∉ exponents := by
  refine nil_not_mem_mul ?_ _
  rintro ⟨c, _, same⟩
  exact List.cons_ne_nil c [] same.symm

theorem point_begins (L : Language CodePoint) : BeginsIn "." (point * L) := by
  have dot : BeginsIn "." point := (WrittenIn.singleton fun _ => id).beginsIn
  exact dot.mul fun empty => absurd (Set.mem_singleton_iff.mp empty) (List.cons_ne_nil _ _).symm

theorem exponents_begin : BeginsIn "eE" exponents := by
  have letter : BeginsIn "eE" (Charset.language "eE") := (WrittenIn.language fun _ => id).beginsIn
  refine letter.mul fun empty => ?_
  rcases empty with ⟨c, _, same⟩
  exact absurd same.symm (List.cons_ne_nil c [])

theorem fractions_mul (L : Language CodePoint) :
    fractions * L =
      Charset.words Charset.decimal * (point * ((1 + Charset.words Charset.decimal) * L)) +
        point * (Charset.words Charset.decimal * L) := by
  rw [fractions, add_mul, mul_assoc, mul_assoc, mul_assoc]

theorem unsigned_begins (L M : Language CodePoint) :
    BeginsIn (Charset.decimal ++ ("." : Text))
      (fractions * L + Charset.words Charset.decimal * M) := by
  have digits (N : Language CodePoint) :
      BeginsIn (Charset.decimal ++ ("." : Text)) (Charset.words Charset.decimal * N) :=
    fun t member c first => List.mem_append_left _ (digits_begin N t member c first)
  have dot (N : Language CodePoint) : BeginsIn (Charset.decimal ++ ("." : Text)) (point * N) :=
    fun t member c first => List.mem_append_right _ (point_begins N t member c first)
  rw [fractions_mul]
  exact ((digits _).add (dot _)).add (digits M)

theorem fractions_separate : Separates fractions (1 + exponents) := by
  have digits : WrittenIn (Charset.decimal ++ ("." : Text)) (Charset.words Charset.decimal) :=
    .words fun _ => List.mem_append_left _
  have dot : WrittenIn (Charset.decimal ++ ("." : Text)) point :=
    .singleton fun _ => List.mem_append_right _
  have written : WrittenIn (Charset.decimal ++ ("." : Text)) fractions :=
    (digits.mul (dot.mul (.add .one digits))).add (dot.mul digits)
  have letter : BeginsIn "eE" (1 + exponents) := .add .one exponents_begin
  exact letter.separates written (by decide)

theorem sign_longest : LongestText defs text signs (optional sign) :=
  (LongestText.of_text (.oneOf "+-")).optional

theorem exponent_longest : LongestText defs text exponents exponent := by
  have letter : LongestText defs text (Charset.language "eE") (.oneOf "eE") := .of_text (.oneOf _)
  have begins : BeginsIn Charset.decimal (Charset.words Charset.decimal) :=
    (WrittenIn.words fun _ => id).beginsIn
  have signed : Separates signs (Charset.words Charset.decimal) :=
    signs_separate begins (by decide)
  exact letter.sequence_cons (sign_longest.sequence_pair (.of_text digits_longest) signed)
    (separates_language _ _)

theorem fraction_longest : LongestText defs text fractions fraction := by
  have dot : LongestText defs text point (.word ".") := .of_text (.word (List.cons_ne_nil _ _))
  have digits : LongestText defs text (Charset.words Charset.decimal) digits :=
    .of_text digits_longest
  have around : LongestText defs text (Charset.words Charset.decimal *
      (point * (1 + Charset.words Charset.decimal)))
      (.sequence [Literal.digits, ".", optional Literal.digits]) :=
    digits.sequence_cons (dot.sequence_pair digits.optional (separates_singleton _ _))
      (digits_separate (point_begins _) (by decide))
  have behind : LongestText defs text (point * Charset.words Charset.decimal)
      (.sequence [".", Literal.digits]) := dot.sequence_pair digits (separates_singleton _ _)
  exact around.choice_pair behind ((digits_begin _).covers (point_begins _) (by decide)
    (nil_not_mem_mul (nil_not_mem_words _) _))

/-- Behind the digits of both there is a point in the one and a letter in the other. -/
theorem fractions_cover :
    Covers (fractions * (1 + exponents)) (Charset.words Charset.decimal * exponents) := by
  have around : Covers (Charset.words Charset.decimal *
      (point * ((1 + Charset.words Charset.decimal) * (1 + exponents))))
      (Charset.words Charset.decimal * exponents) := by
    refine .mul ?_ (digits_separate (point_begins _) (by decide))
      (digits_separate exponents_begin (by decide)) (nil_not_mem_point _) nil_not_mem_exponents
    exact (point_begins _).covers exponents_begin (by decide) (nil_not_mem_point _)
  have behind : Covers (point * (Charset.words Charset.decimal * (1 + exponents)))
      (Charset.words Charset.decimal * exponents) :=
    (point_begins _).covers (digits_begin _) (by decide) (nil_not_mem_point _)
  rw [fractions_mul]
  exact around.add_left behind

theorem floatText_longest :
    Longest defs text floats (fun t m => m = .just (.text t)) floatText := by
  have digits : LongestText defs text (Charset.words Charset.decimal) digits :=
    .of_text digits_longest
  have pointed : LongestText defs text (fractions * (1 + exponents))
      (.sequence [fraction, optional exponent]) :=
    fraction_longest.sequence_pair exponent_longest.optional fractions_separate
  have scaled := digits.sequence_pair exponent_longest
    (digits_separate exponents_begin (by decide))
  have number : LongestText defs text
      (fractions * (1 + exponents) + Charset.words Charset.decimal * exponents)
      (firstOf [.sequence [fraction, optional exponent], .sequence [Literal.digits, exponent]]) :=
    Longest.choice_pair pointed scaled fractions_cover
  exact (sign_longest.sequence_pair number
    (signs_separate (unsigned_begins _ _) (by decide))).joined

theorem float_longest :
    Longest defs text floats (fun t m => ∃ x, Double.read? t = some x ∧ m = .just (.double x))
      float := by
  refine floatText_longest.map ?_
  rintro t _ written rfl
  obtain ⟨x, read⟩ := Double.read?_of_floats written
  refine ⟨_, .double x, rfl, ?_, x, read, rfl⟩
  rw [Payload.decimal, read]

theorem exponent_produces : Produces defs text (fun m => ∃ t, m.Spells t) exponent :=
  exponent_longest.produces fun t _ _ spelled => ⟨t, spelled⟩

theorem fraction_produces : Produces defs text (fun m => ∃ t, m.Spells t) fraction :=
  fraction_longest.produces fun t _ _ spelled => ⟨t, spelled⟩

theorem float_produces : Produces defs text (fun m => ∃ x, m = .just (.double x)) float :=
  float_longest.produces fun _ _ _ ⟨x, _, same⟩ => ⟨x, same⟩

/-- Floats in one expression, with their digits before, behind or on both sides of the point. -/
theorem floats_eq :
    floats = signs *
      (Charset.words Charset.decimal * point * (Charset.language Charset.decimal)∗ *
          (1 + exponents) +
        point * Charset.words Charset.decimal * (1 + exponents) +
        Charset.words Charset.decimal * exponents) := by
  have more : 1 + Charset.words Charset.decimal = (Charset.language Charset.decimal)∗ :=
    Language.one_add_self_mul_kstar_eq_kstar _
  rw [floats, fractions, more, add_mul, ← mul_assoc]

/-- Numbers are read exactly where one is written, up to the end of the longest one, and all of its
text is converted. -/
theorem float_reads_longest (body : Body) (i : Nat) :
    (floats = signs *
      (Charset.words Charset.decimal * point * (Charset.language Charset.decimal)∗ *
          (1 + exponents) +
        point * Charset.words Charset.decimal * (1 + exponents) +
        Charset.words Charset.decimal * exponents)) ∧
    ∃ r, (float.parse (body.cursor i)).outcome = .done r ∧
      (r.succeeded = true ↔ ∃ t ∈ floats, body.text.hasAt t i = true) ∧
      (r.succeeded = false ∨ ∃ t x, body.text.LongestAt floats i t ∧
        (floatText.parse (body.cursor i)).outcome =
          .done (.success (.just (.text t)) (body.cursor (i + t.length)) i) ∧
        Double.read? t = some x ∧
        r = .success (.just (.double x)) (body.cursor (i + t.length)) i) := by
  refine ⟨floats_eq, ?_⟩
  obtain ⟨r, finished, written, result⟩ := Longest.parse (fun _ => float_longest) body i
  refine ⟨r, finished, written, ?_⟩
  rcases result with failed | ⟨t, _, stands, ⟨x, read, rfl⟩, rfl⟩
  · exact .inl failed
  · obtain ⟨r', finished', written', result'⟩ := Longest.parse (fun _ => floatText_longest) body i
    have matched : r'.succeeded = true := written'.mpr ⟨t, stands.member, stands.here⟩
    rcases result' with failed | ⟨t', _, stands', rfl, rfl⟩
    · rw [matched] at failed
      cases failed
    · have same : t' = t := stands'.unique stands
      subst same
      exact .inr ⟨t', x, stands, finished', read, rfl⟩

end Descent.Literal
