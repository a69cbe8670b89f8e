import Descent.Proofs.Comment.Prefix
import Descent.Proofs.Lossless

/-! Where strings and comments end, told by the text behind their first characters. -/

namespace Descent

namespace Comment

open Grammar

variable {text front back content line : Text} {x y : CodePoint} {i : Nat}

def Unclosed (text : Text) : Prop := ¬ ("*/" : Text) <:+: text

instance (text : Text) : Decidable (Unclosed text) := inferInstanceAs (Decidable (¬ _))

theorem Unclosed.hasAt (unclosed : Unclosed text) (i : Nat) : text.hasAt "*/" i = false :=
  Text.hasAt_eq_false_of_not_infix unclosed i

theorem exists_content (text : Text) :
    (∃ content rest, text = content ++ (("*/" : Text) ++ rest) ∧
      Unclosed (content ++ ("*" : Text))) ∨ Unclosed text := by
  induction text with
  | nil => exact .inr (by decide)
  | cons c text ih =>
      by_cases close : ("*/" : Text) <+: c :: text
      · obtain ⟨rest, whole⟩ := close
        exact .inl ⟨[], rest, whole.symm, by decide⟩
      · rcases ih with ⟨content, rest, rfl, unclosed⟩ | unclosed
        · refine .inl ⟨c :: content, rest, rfl, fun here => ?_⟩
          rcases List.infix_cons_iff.mp here with front | later
          · refine close (front.trans ⟨("/" : Text) ++ rest, ?_⟩)
            simp [Text.ofString]
          · exact unclosed later
        · refine .inr fun here => ?_
          rcases List.infix_cons_iff.mp here with front | later
          · exact close front
          · exact unclosed later

theorem contentAt_of_unclosed (unclosed : Unclosed (content ++ ("*" : Text)))
    (opening rest : Text) :
    ContentAt (opening ++ (content ++ (("*/" : Text) ++ rest))) opening.length content := by
  have whole : ("*/" : Text) ++ rest = ("*" : Text) ++ (("/" : Text) ++ rest) := rfl
  refine ⟨Text.hasAt_length opening content _, ?_, ?_⟩
  · intro m low high
    obtain ⟨n, rfl⟩ := Nat.exists_eq_add_of_le low
    have inside : n + 2 ≤ (content ++ ("*" : Text)).length := by
      rw [List.length_append]
      change n + 2 ≤ content.length + 1
      omega
    rw [Text.hasAt_behind, whole, ← List.append_assoc, Text.hasAt_before inside]
    exact unclosed.hasAt n
  · rw [Text.hasAt_behind]
    exact Text.hasAt_length content "*/" rest

theorem ContentAt.next? (stands : ContentAt text i content) :
    text.next? "*/" i = some (i + content.length) :=
  (Text.next?_eq_some_iff (by decide)).mpr
    ⟨Nat.le_add_right _ _, stands.close, stands.before⟩

theorem next?_of_unclosed (unclosed : Unclosed text) (opening : Text) :
    (opening ++ text).next? "*/" opening.length = none := by
  refine (Text.next?_eq_none_iff (by decide)).mpr fun m low => ?_
  obtain ⟨n, rfl⟩ := Nat.exists_eq_add_of_le low
  rw [Text.hasAt_behind]
  exact unclosed.hasAt n

theorem lineEnd_of_broken (unbroken : ('\n' : CodePoint) ∉ line) (opening rest : Text) :
    lineEnd (opening ++ (line ++ ('\n' : CodePoint) :: rest)) opening.length =
      opening.length + (line.length + 1) := by
  have next : (opening ++ (line ++ ('\n' : CodePoint) :: rest)).next? "\n" opening.length =
      some (opening.length + line.length) := by
    refine (Text.next?_eq_some_iff (by decide)).mpr ⟨Nat.le_add_right _ _, ?_, ?_⟩
    · rw [Text.hasAt_behind]
      exact Text.hasAt_length line "\n" rest
    · intro m low below
      obtain ⟨n, rfl⟩ := Nat.exists_eq_add_of_le low
      rw [Text.hasAt_behind]
      refine (Text.hasAt_singleton_false _ '\n' n).mpr fun here => ?_
      rw [List.getElem?_append_left (by omega)] at here
      exact unbroken (List.mem_of_getElem? here)
  rw [lineEnd, next]
  exact Nat.add_assoc _ _ _

theorem lineEnd_of_unbroken (unbroken : ('\n' : CodePoint) ∉ line) (opening : Text) :
    lineEnd (opening ++ line) opening.length = opening.length + line.length := by
  have next : (opening ++ line).next? "\n" opening.length = none := by
    refine (Text.next?_eq_none_iff (by decide)).mpr fun m low => ?_
    obtain ⟨n, rfl⟩ := Nat.exists_eq_add_of_le low
    rw [Text.hasAt_behind]
    exact (Text.hasAt_singleton_false _ '\n' n).mpr fun here =>
      unbroken (List.mem_of_getElem? here)
  rw [lineEnd, next]
  exact List.length_append

theorem commentAt?_of_content (unclosed : Unclosed (content ++ ("*" : Text))) (rest : Text) :
    (IsBanner (lastLine (dropSpace content)) →
      commentAt? (("/**" : Text) ++ (content ++ (("*/" : Text) ++ rest))) 0 = none) ∧
    (¬ IsBanner (lastLine (dropSpace content)) →
      commentAt? (("/**" : Text) ++ (content ++ (("*/" : Text) ++ rest))) 0 =
        some (withoutBanners (dropSpace content), 3 + content.length + 2)) := by
  generalize whole : ("/**" : Text) ++ (content ++ (("*/" : Text) ++ rest)) = text
  have start : text.hasAt "/**" 0 = true := whole ▸ rfl
  have stands : ContentAt text (0 + 3) content := whole ▸ contentAt_of_unclosed unclosed "/**" rest
  obtain ⟨refused, read⟩ := @documentationComment_of_content [] _ _ _ start stands
  rw [Nat.zero_add] at read
  constructor
  · intro banner
    obtain ⟨e, fails⟩ := refused banner
    rw [Option.eq_none_iff_forall_ne_some]
    rintro ⟨body, stop⟩ found
    exact absurd (((commentAt?_eq_some_iff text 0 body stop).mp found).unique fails) nofun
  · intro kept
    exact (commentAt?_eq_some_iff text 0 _ _).mpr (read kept)

theorem commentAt?_of_unclosed (unclosed : Unclosed text) :
    commentAt? (("/**" : Text) ++ text) 0 = none := by
  rw [Option.eq_none_iff_forall_ne_some]
  rintro ⟨body, stop⟩ found
  obtain ⟨k, low, close⟩ := documentationComment_closes ((commentAt?_eq_some_iff _ 0 _ _).mp found)
  have missing := (Text.next?_eq_none_iff (by decide)).mp (next?_of_unclosed unclosed "/**")
  rw [missing k low] at close
  exact Bool.false_ne_true close

/-- How much of the text belongs to a string, up to the quote that closes it. -/
def closing? (quote escape : CodePoint) : Text → Option Nat
  | [] => none
  | [c] => if c = quote then some 1 else none
  | c :: d :: rest =>
    if c = quote then some 1
    else if c = escape ∧ d = quote then (closing? quote escape rest).map (· + 2)
    else (closing? quote escape (d :: rest)).map (· + 1)

theorem closing?_quote (quote escape : CodePoint) (text : Text) :
    closing? quote escape (quote :: text) = some 1 := by
  cases text <;> simp [closing?]

theorem closing?_escaped (other : y ≠ x) (text : Text) :
    closing? x y (y :: x :: text) = (closing? x y text).map (· + 2) := by
  rw [closing?, if_neg other, if_pos ⟨rfl, rfl⟩]

theorem closing?_cons {c : CodePoint} (noQuote : c ≠ x) (noEscape : c = y → text.head? ≠ some x) :
    closing? x y (c :: text) = (closing? x y text).map (· + 1) := by
  cases text with
  | nil => exact if_neg noQuote
  | cons d text =>
      have plain : ¬ (c = y ∧ d = x) := fun ⟨escape, quote⟩ => noEscape escape (congrArg some quote)
      rw [closing?, if_neg noQuote, if_neg plain]

/-- A text in a string goes on with the quote, with an escaped quote, or with another character. -/
@[elab_as_elim] theorem closing_induction (quote escape : CodePoint) {motive : Text → Prop}
    (nil : motive []) (closed : ∀ text, motive (quote :: text))
    (escaped : ∀ text, motive text → motive (escape :: quote :: text))
    (character : ∀ c text, c ≠ quote → (c = escape → text.head? ≠ some quote) → motive text →
      motive (c :: text)) (text : Text) : motive text := by
  fun_induction closing? quote escape text with
  | case1 => exact nil
  | case2 => exact closed []
  | case3 c other => exact character c [] other (fun _ => nofun) nil
  | case4 d rest => exact closed (d :: rest)
  | case5 c d rest other pair ih =>
      obtain ⟨rfl, rfl⟩ := pair
      exact escaped rest ih
  | case6 c d rest other pair ih =>
      refine character c (d :: rest) other (fun escape quote => ?_) ih
      exact pair ⟨escape, Option.some.inj quote⟩

def UnitsEnd (x y : CodePoint) (front back : Text) : Prop :=
  ∃ value k, Meaning [] (front ++ back) (.many (stringUnit [x] [y, x])) front.length
      (.matched value k) ∧
    match closing? x y back with
    | some n => k + 1 = front.length + n ∧ (front ++ back).hasAt [x] k = true
    | none => k = (front ++ back).length

theorem UnitsEnd.next {unit : Text} {value : Maybe} (inhabited : unit ≠ [])
    (read : Meaning [] (front ++ (unit ++ back)) (stringUnit [x] [y, x]) front.length
      (.matched value (front.length + unit.length)))
    (same : closing? x y (unit ++ back) = (closing? x y back).map (· + unit.length))
    (later : UnitsEnd x y (front ++ unit) back) : UnitsEnd x y front (unit ++ back) := by
  obtain ⟨values, k, rest, ends⟩ := later
  rw [List.append_assoc, List.length_append] at rest
  rw [List.append_assoc, List.length_append] at ends
  have long : 0 < unit.length := List.length_pos_iff.mpr inhabited
  refine ⟨_, k, .many_next read (by omega) rest, ?_⟩
  rw [same]
  cases closes : closing? x y back with
  | none =>
      rw [closes] at ends
      exact ends
  | some n =>
      rw [closes] at ends
      refine ⟨?_, ends.2⟩
      change k + 1 = front.length + (n + unit.length)
      omega

theorem unitsEnd_closed (other : y ≠ x) (front back : Text) : UnitsEnd x y front (x :: back) := by
  have closes : (front ++ x :: back).hasAt [x] front.length = true := Text.hasAt_length front [x] back
  obtain ⟨e, fails⟩ := stringUnit_failed other closes
  refine ⟨_, _, .many_failed fails, ?_⟩
  rw [closing?_quote]
  exact ⟨rfl, closes⟩

theorem unitsEnd_nil (front : Text) : UnitsEnd x y front [] := by
  have missing : ∀ word : Text, word ≠ [] → (front ++ []).hasAt word front.length = false := by
    intro word inhabited
    exact Text.hasAt_eq_false_of_le (by rw [List.append_nil]) inhabited
  have quote : Meaning [] (front ++ []) (.word [x]) front.length _ :=
    Meaning.word_failed (missing [x] (List.cons_ne_nil _ _))
  obtain ⟨e, fails⟩ : ∃ e, Meaning [] (front ++ []) (stringUnit [x] [y, x]) front.length
      (.failed e) := by
    apply Meaning.choice_failed_of_all false
    intro part member
    rcases List.mem_pair.mp member with rfl | rfl
    · exact ⟨_, Meaning.word_failed (missing [y, x] (List.cons_ne_nil _ _))⟩
    · exact ⟨_, Meaning.not_end quote (by rw [List.append_nil])⟩
  exact ⟨_, _, .many_failed fails, (congrArg List.length (List.append_nil front)).symm⟩

theorem unitsEnd_character {c : CodePoint} (noQuote : c ≠ x)
    (noEscape : c = y → back.head? ≠ some x)
    (later : UnitsEnd x y (front ++ [c]) back) : UnitsEnd x y front (c :: back) := by
  have here : (front ++ c :: back)[front.length]? = some c := by
    rw [List.getElem?_append_right (Nat.le_refl _), Nat.sub_self]
    rfl
  have character : Meaning [] (front ++ c :: back) (stringUnit [x] [y, x]) front.length
      (.matched (.just (.text [c])) (front.length + 1)) := by
    refine stringUnit_character ?_ ?_ here
    · rw [Bool.eq_false_iff]
      intro escaped
      obtain ⟨first, second⟩ := (Text.hasAt_cons _ [x] y _).mp escaped
      have second := (Text.hasAt_singleton _ x _).mp second
      rw [List.getElem?_append_right (Nat.le_add_right _ 1), Nat.add_sub_cancel_left] at second
      refine noEscape (Option.some.inj (here.symm.trans first)) ?_
      rw [List.head?_eq_getElem?]
      exact second
    · refine (Text.hasAt_singleton_false _ x _).mpr fun quote => ?_
      exact noQuote (Option.some.inj (here.symm.trans quote))
  have next : UnitsEnd x y front ([c] ++ back) :=
    .next (List.cons_ne_nil _ _) character (closing?_cons noQuote noEscape) later
  exact next

theorem unitsEnd (other : y ≠ x) (front back : Text) : UnitsEnd x y front back := by
  induction back using closing_induction x y generalizing front with
  | nil => exact unitsEnd_nil front
  | closed back => exact unitsEnd_closed other front back
  | escaped back ih =>
      have read : Meaning [] (front ++ y :: x :: back) (stringUnit [x] [y, x]) front.length _ :=
        stringUnit_escaped (Text.hasAt_length front [y, x] back)
      have next : UnitsEnd x y front ([y, x] ++ back) :=
        .next (List.cons_ne_nil _ _) read (closing?_escaped other back) (ih _)
      exact next
  | character c back noQuote noEscape ih => exact unitsEnd_character noQuote noEscape (ih _)

theorem quotedBy_closing (other : y ≠ x) (front text : Text) :
    Meaning [] (front ++ x :: text) (quotedBy (.word [x]) (.word [y, x])) front.length
      (match closing? x y text with
        | some n => .matched (.just (.text (x :: text.take n))) (front.length + (1 + n))
        | none => .failed (front ++ x :: text).length) := by
  have split : front ++ [x] ++ text = front ++ x :: text := List.append_assoc front [x] text
  obtain ⟨value, k, units, ends⟩ := unitsEnd other (front ++ [x]) text
  rw [split, List.length_append] at units
  rw [split, List.length_append] at ends
  obtain ⟨payload, rfl, t, flat⟩ := (stringUnit_produces [x] [y, x]).many_texts.fits_of_matched units
  have inner := units.joined flat
  have opens : Meaning [] (front ++ x :: text) (.word [x]) front.length
      (.matched (.just (.text [x])) (front.length + [x].length)) :=
    Meaning.word_matched (List.cons_ne_nil _ _) (Text.hasAt_length front [x] text)
  cases closes : closing? x y text with
  | some n =>
      rw [closes] at ends
      obtain ⟨stop, quote⟩ := ends
      have stop : k + [x].length = front.length + (1 + n) := stop.trans (Nat.add_assoc _ _ _)
      have last : Meaning [] (front ++ x :: text) (.word [x]) k
          (.matched (.just (.text [x])) (front.length + (1 + n))) :=
        stop ▸ Meaning.word_matched (List.cons_ne_nil _ _) quote
      have whole := (opens.sequence_next (.sequence_next inner
        (.sequence_next last (.sequence_nil _)))).joined (Payload.flatten_texts [[x], t, [x]])
      have spelled := (quotedBy_lossless [x] [y, x]).spelled [] _ _ _ _ whole
      have between : (front ++ x :: text).between front.length (front.length + (1 + n)) =
          x :: text.take n := by
        rw [Text.between, List.take_length_add_append, List.drop_left, Nat.add_comm]
        rfl
      rw [Maybe.spells_just, Payload.flatten_text, between] at spelled
      rw [Except.ok.inj spelled] at whole
      exact whole
  | none =>
      rw [closes] at ends
      have missing : Text.hasAt (front ++ x :: text) [x] k = false :=
        Text.hasAt_eq_false_of_le (Nat.le_of_eq ends.symm) (List.cons_ne_nil _ _)
      have fails : Meaning [] (front ++ x :: text) (.sequence [.word [x],
          joined (.many (stringUnit [x] [y, x])), .word [x]]) front.length (.failed k) :=
        opens.sequence_next (.sequence_next inner
          (.sequence_stop (Meaning.word_failed missing) rfl))
      exact ends ▸ .map_stop fails rfl

theorem matchAt?_quotedBy (other : y ≠ x) (text : Text) :
    ((quotedBy (.word [x]) (.word [y, x])).matchAt? (x :: text) 0).map Prod.snd =
      (closing? x y text).map (1 + ·) := by
  have read : Meaning [] (x :: text) (quotedBy (.word [x]) (.word [y, x])) 0 _ :=
    quotedBy_closing other [] text
  cases closes : closing? x y text with
  | some n =>
      rw [closes] at read
      have found := (Grammar.matchAt?_eq_some_iff _ _ _ _ _).mpr read
      rw [found]
      exact congrArg some (Nat.zero_add (1 + n))
  | none =>
      rw [closes] at read
      rw [Grammar.matchAt?_of_failed read]
      rfl

theorem stringEnd?_of_single (text : Text) :
    stringEnd? (('\x27' : CodePoint) :: text) 0 = (closing? '\x27' '\x5c' text).map (1 + ·) := by
  have single : Text.hasAt (('\x27' : CodePoint) :: text) "\x27" 0 = true :=
    Text.hasAt_length [] "\x27" text
  rw [stringEnd?, if_pos single]
  exact matchAt?_quotedBy (by decide) text

theorem stringEnd?_of_double (text : Text) :
    stringEnd? (('\x22' : CodePoint) :: text) 0 = (closing? '\x22' '\x5c' text).map (1 + ·) := by
  have double : Text.hasAt (('\x22' : CodePoint) :: text) "\x22" 0 = true :=
    Text.hasAt_length [] "\x22" text
  have noSingle : ¬ Text.hasAt (('\x22' : CodePoint) :: text) "\x27" 0 = true := by
    intro single
    have other : some _ = some _ := (Text.hasAt_singleton _ '\x27' 0).mp single
    exact absurd (Option.some.inj other) (by decide)
  rw [stringEnd?, if_neg noSingle, if_pos double]
  exact matchAt?_quotedBy (by decide) text

end Comment

end Descent
