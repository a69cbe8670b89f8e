import Descent.Literal.Quoted
import Descent.Proofs.Longest
import Descent.Proofs.Numeral

/-! The texts between quotes, whose escapes all stand for something. -/

namespace Descent.Literal

open Grammar

open scoped Computability

variable {defs : Definitions} {text : Text}

theorem hexadecimal_isDigit : ∀ c ∈ Charset.hexadecimal, Numeral.IsDigit 16 c := by decide

structure FourDigits where
  digits : Text
  size : digits.length = 4
  each : ∀ c ∈ digits, c ∈ Charset.hexadecimal

namespace FourDigits

variable (four : FourDigits)

theorem isDigit : ∀ c ∈ four.digits, Numeral.IsDigit 16 c := fun c inside =>
  hexadecimal_isDigit c (four.each c inside)

theorem value_lt : Numeral.value 16 four.digits < 0x110000 := by
  have bound := Numeral.value_lt (by decide) four.isDigit
  rw [four.size] at bound
  exact Nat.lt_trans bound (by decide)

def codePoint : CodePoint := ⟨Numeral.value 16 four.digits, four.value_lt⟩

theorem codePoint_eq :
    Payload.codePoint (.text four.digits) = .ok (.text [four.codePoint]) := by
  have inhabited : four.digits ≠ [] := by
    intro empty
    have size := four.size
    rw [empty] at size
    cases size
  have read := Numeral.read?_of_digits inhabited four.isDigit
  have known : CodePoint.ofNat? (Numeral.value 16 four.digits) = some four.codePoint :=
    dif_pos four.value_lt
  simp only [Payload.codePoint, read, known]

end FourDigits

def fourDigits : Language CodePoint :=
  Charset.language Charset.hexadecimal * (Charset.language Charset.hexadecimal *
    (Charset.language Charset.hexadecimal * Charset.language Charset.hexadecimal))

theorem mem_fourDigits {t : Text} : t ∈ fourDigits ↔ ∃ four : FourDigits, four.digits = t := by
  constructor
  · rintro ⟨_, ⟨a, ha, rfl⟩, _, ⟨_, ⟨b, hb, rfl⟩, _, ⟨_, ⟨c, hc, rfl⟩, _, ⟨d, hd, rfl⟩, rfl⟩, rfl⟩,
      rfl⟩
    exact ⟨{ digits := [a, b, c, d], size := rfl, each := by simp [ha, hb, hc, hd] }, rfl⟩
  · rintro ⟨⟨digits, size, each⟩, rfl⟩
    match digits, size with
    | [a, b, c, d], _ =>
        have digit (x : CodePoint) (inside : x ∈ [a, b, c, d]) :
            [x] ∈ Charset.language Charset.hexadecimal := ⟨x, each x inside, rfl⟩
        exact ⟨_, digit a (by simp), _, ⟨_, digit b (by simp), _, ⟨_, digit c (by simp), _,
          digit d (by simp), rfl⟩, rfl⟩, rfl⟩

theorem unicodeEscape_longest :
    Longest defs text ({("u" : Text)} * fourDigits)
      (fun t m => ∃ four : FourDigits, t = ('u' : CodePoint) :: four.digits ∧
        m = .just (.text [four.codePoint]))
      unicodeEscape := by
  have letter : Longest defs text {("u" : Text)} (fun _ m => m = .nothing) (.skip "u") :=
    (Longest.word (List.cons_ne_nil _ _)).skip
  have digit : LongestText defs text (Charset.language Charset.hexadecimal) hexDigit :=
    .of_text (.oneOf _)
  have single (M : Language CodePoint) : Separates (Charset.language Charset.hexadecimal) M :=
    separates_language _ M
  have digits : LongestText defs text fourDigits
      (.sequence [hexDigit, hexDigit, hexDigit, hexDigit]) :=
    digit.sequence_cons (digit.sequence_cons (digit.sequence_pair digit (single _)) (single _))
      (single _)
  refine (LongestText.joined_behind letter digits (separates_singleton _ _)).map ?_
  rintro _ _ _ ⟨_, rfl, _, written, rfl, rfl⟩
  obtain ⟨four, rfl⟩ := mem_fourDigits.mp written
  exact ⟨_, _, rfl, four.codePoint_eq, four, rfl, rfl⟩

theorem unicodeEscape_produces : Produces defs text Maybe.IsText unicodeEscape :=
  unicodeEscape_longest.produces fun _ _ _ ⟨_, _, same⟩ => ⟨_, same⟩

theorem apply_text (escapes : Escapes) (t : Text) :
    ∃ image, escapes.apply (.text t) = .ok (.text image) :=
  match t with
  | [] => ⟨[], rfl⟩
  | [c] => ⟨escapes.meaning c, rfl⟩
  | c :: d :: t => ⟨c :: d :: t, rfl⟩

theorem escaped_produces (style : QuoteStyle) :
    Produces defs text Maybe.HasText (escaped style) := by
  have character : Produces defs text Maybe.IsText (.map style.escapes.apply any) := by
    apply (Produces.noneOf []).map
    rintro m ⟨t, rfl⟩
    obtain ⟨image, applied⟩ := apply_text style.escapes t
    exact ⟨_, _, rfl, applied, image, rfl⟩
  have meaning : Produces defs text Maybe.IsText
      (firstOf [unicodeEscape, .map style.escapes.apply any]) := by
    apply Produces.choice false
    intro part member
    rcases List.mem_pair.mp member with rfl | rfl
    · exact unicodeEscape_produces
    · exact character
  apply Produces.sequence
  intro part member
  rcases List.mem_pair.mp member with rfl | rfl
  · exact (Produces.word style.escape).skip_textual
  · exact meaning.mono fun _ text => text.textual

theorem quotedContent_produces (style : QuoteStyle) :
    Produces defs text Maybe.IsText (quotedContent style) := by
  have unit : Produces defs text Maybe.HasText
      (firstOf [escaped style, .noneOf (style.quote ++ style.escape)]) := by
    apply Produces.choice false
    intro part member
    rcases List.mem_pair.mp member with rfl | rfl
    · exact escaped_produces style
    · exact (Produces.noneOf _).mono fun _ text => text.hasText
  exact ((unit.many fun _ text => text.textual).mono fun _ list => list.hasText).joined

theorem quotedText_produces (style : QuoteStyle) :
    Produces defs text Maybe.IsText (quotedText style) := by
  have quote : Produces defs text (· = .nothing) (.skip (.word style.quote)) :=
    (Produces.word style.quote).skip
  exact (quote.sequence_skip ((quotedContent_produces style).sequence_text
    (quote.sequence_skip .sequence_nil))).head

end Descent.Literal
