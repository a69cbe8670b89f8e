import Descent.Proofs.Comment.Rejection

/-! What is read inside of a text is read in the same way if more text follows. -/

namespace Descent

theorem Meaning.word_before {defs : Definitions} {text w : Text} {i j : Nat} {value : Maybe}
    (inhabited : w ≠ []) (meaning : Meaning defs text (.word w) i (.matched value j))
    (more : Text) : Meaning defs (text ++ more) (.word w) i (.matched value j) := by
  obtain ⟨found, rfl⟩ := meaning.hasAt_of_word inhabited
  have inside := Text.length_le_of_hasAt found inhabited
  rw [meaning.unique (Meaning.word_matched inhabited found)]
  exact Meaning.word_matched inhabited ((Text.hasAt_before inside more).trans found)

namespace Comment

open Grammar

variable {text more : Text} {x y : CodePoint} {i j k : Nat} {value : Maybe}

theorem stringUnit_escaped (found : text.hasAt [y, x] i = true) :
    Meaning [] text (stringUnit [x] [y, x]) i (.matched (.just (.text [y, x])) (i + 2)) :=
  .choice_first (Meaning.word_matched (List.cons_ne_nil _ _) found) rfl

theorem stringUnit_character {c : CodePoint} (noEscape : text.hasAt [y, x] i = false)
    (noQuote : text.hasAt [x] i = false) (here : text[i]? = some c) :
    Meaning [] text (stringUnit [x] [y, x]) i (.matched (.just (.text [c])) (i + 1)) :=
  .choice_later (Meaning.word_failed noEscape)
    (.choice_first (Meaning.not_next (Meaning.word_failed noQuote) here) rfl) rfl

theorem stringUnit_failed (other : y ≠ x) (closes : text.hasAt [x] i = true) :
    ∃ e, Meaning [] text (stringUnit [x] [y, x]) i (.failed e) := by
  have noEscape : text.hasAt [y, x] i = false := by
    rw [Bool.eq_false_iff]
    intro escaped
    have first := ((Text.hasAt_cons text [x] y i).mp escaped).1
    have quote := (Text.hasAt_singleton text x i).mp closes
    exact other (Option.some.inj (first.symm.trans quote))
  apply Meaning.choice_failed_of_all false
  intro part member
  rcases List.mem_pair.mp member with rfl | rfl
  · exact ⟨i, Meaning.word_failed noEscape⟩
  · exact ⟨i, .not_matched (Meaning.word_matched (List.cons_ne_nil _ _) closes)⟩

/-- Two characters decide what is read in a string. -/
theorem stringUnit_before (other : y ≠ x) (inside : i + 2 ≤ text.length)
    (meaning : Meaning [] text (stringUnit [x] [y, x]) i (.matched value j)) (more : Text) :
    Meaning [] (text ++ more) (stringUnit [x] [y, x]) i (.matched value j) := by
  have escaped : (text ++ more).hasAt [y, x] i = text.hasAt [y, x] i :=
    Text.hasAt_before inside more
  have quote : (text ++ more).hasAt [x] i = text.hasAt [x] i :=
    Text.hasAt_before (Nat.le_of_succ_le inside) more
  have next : (text ++ more)[i]? = text[i]? := List.getElem?_append_left (by omega)
  have here : text[i]? = some text[i] := List.getElem?_eq_getElem (by omega)
  cases first : text.hasAt [y, x] i with
  | true =>
      rw [meaning.unique (stringUnit_escaped first)]
      exact stringUnit_escaped (escaped.trans first)
  | false =>
      cases second : text.hasAt [x] i with
      | true =>
          obtain ⟨e, fails⟩ := stringUnit_failed other second
          exact absurd (meaning.unique fails) nofun
      | false =>
          rw [meaning.unique (stringUnit_character first second here)]
          exact stringUnit_character (escaped.trans first) (quote.trans second)
            (next.trans here)

theorem stringUnits_before (other : y ≠ x) (closes : text.hasAt [x] k = true)
    (meaning : Meaning [] text (.many (stringUnit [x] [y, x])) i (.matched value k))
    (more : Text) :
    Meaning [] (text ++ more) (.many (stringUnit [x] [y, x])) i (.matched value k) := by
  have high : k + 1 ≤ text.length := Text.length_le_of_hasAt closes (List.cons_ne_nil _ _)
  have closes' : (text ++ more).hasAt [x] k = true := (Text.hasAt_before high more).trans closes
  obtain ⟨e, ended⟩ := stringUnit_failed other closes'
  rw [Meaning.many_iff] at meaning ⊢
  generalize whole : Answer.matched value k = a at meaning
  induction meaning generalizing value with
  | failed last =>
      cases whole
      exact .failed ended
  | still last still =>
      cases whole
      exact .failed ended
  | raised last => cases whole
  | next first advances later ih =>
      rcases later.list_or_raised with ⟨rest, m, rfl⟩ | ⟨fault, rfl⟩
      · cases whole
        have low := (Meaning.many_iff.mpr later).le_stop
        exact .next (stringUnit_before other (by omega) first more) advances (ih rfl)
      · cases whole

theorem quotedBy_before (other : y ≠ x)
    (meaning : Meaning [] text (quotedBy (.word [x]) (.word [y, x])) i (.matched value j))
    (more : Text) :
    Meaning [] (text ++ more) (quotedBy (.word [x]) (.word [y, x])) i (.matched value j) := by
  have inhabited : [x] ≠ [] := List.cons_ne_nil _ _
  refine meaning.map_carry fun v whole => ?_
  obtain ⟨_, _, _, opens, later, rfl⟩ := whole.sequence_cons_matched
  obtain ⟨_, k, _, inner, last, same⟩ := later.sequence_cons_matched
  cases same
  obtain ⟨_, _, _, closes, ended, same⟩ := last.sequence_cons_matched
  cases same
  cases ended
  have units := inner.map_carry fun v found =>
    stringUnits_before other (closes.hasAt_of_word inhabited).1 found more
  exact (opens.word_before inhabited more).sequence_next
    (units.sequence_next ((closes.word_before inhabited more).sequence_next (.sequence_nil _)))

theorem matchAt?_quotedBy_before (other : y ≠ x)
    (found : ((quotedBy (.word [x]) (.word [y, x])).matchAt? text i).map Prod.snd = some j)
    (more : Text) :
    ((quotedBy (.word [x]) (.word [y, x])).matchAt? (text ++ more) i).map Prod.snd = some j := by
  obtain ⟨t, meaning, _⟩ := quotedBy_of_matchAt? (List.cons_ne_nil _ _) found
  have longer := quotedBy_before other meaning more
  rw [(Grammar.matchAt?_eq_some_iff _ (text ++ more) i j _).mpr longer]
  rfl

theorem stringEnd?_before (found : stringEnd? text i = some j) (more : Text) :
    stringEnd? (text ++ more) i = some j := by
  obtain ⟨_, string, ahead⟩ := stringEnd?_of_some found
  have inside := string.lt_length ahead
  have same : ∀ quote : Text, quote.length = 1 →
      (text ++ more).hasAt quote i = text.hasAt quote i :=
    fun quote one => Text.hasAt_before (by omega) more
  rw [stringEnd?] at found ⊢
  rw [same "\x27" rfl, same "\x22" rfl]
  split at found
  · rename_i single
    rw [if_pos single]
    exact matchAt?_quotedBy_before (by decide) found more
  · rename_i noSingle
    rw [if_neg noSingle]
    split at found
    · rename_i double
      rw [if_pos double]
      exact matchAt?_quotedBy_before (by decide) found more
    · cases found

theorem documentationStart_before (inside : i + 4 ≤ text.length) (more : Text) :
    (text ++ more).hasAt "/**/" i = text.hasAt "/**/" i ∧
      (text ++ more).hasAt "/**" i = text.hasAt "/**" i :=
  ⟨Text.hasAt_before inside more, Text.hasAt_before (Nat.le_of_succ_le inside) more⟩

theorem plainEnd?_before (found : plainEnd? text i = some j) (more : Text) :
    plainEnd? (text ++ more) i = some j := by
  obtain ⟨k, next, rfl, kind⟩ := (plainEnd?_eq_some_iff text i j).mp found
  obtain ⟨low, close, _⟩ := (Text.next?_eq_some_iff (by decide)).mp next
  have high : k + 2 ≤ text.length := Text.length_le_of_hasAt close (by decide)
  obtain ⟨empty, starred⟩ := documentationStart_before (by omega : i + 4 ≤ text.length) more
  refine (plainEnd?_eq_some_iff _ i _).mpr ⟨k, Text.next?_before (by decide) next more, rfl, ?_⟩
  rw [empty, starred]
  exact kind

theorem ContentAt.extend {content : Text} (stands : ContentAt text i content) (more : Text) :
    ContentAt (text ++ more) i content := by
  have high : i + content.length + 2 ≤ text.length :=
    Text.length_le_of_hasAt stands.close (by decide)
  refine ⟨?_, fun m low below => ?_, ?_⟩
  · rw [Text.hasAt_before (by omega)]
    exact stands.here
  · have inside : m + ("*/" : Text).length ≤ text.length := by
      change m + 2 ≤ text.length
      omega
    rw [Text.hasAt_before inside]
    exact stands.before m low below
  · rw [Text.hasAt_before high]
    exact stands.close

theorem documentationComment_closes
    (meaning : Meaning [] text documentationComment i (.matched value j)) :
    ∃ k, i + 3 ≤ k ∧ text.hasAt "*/" k = true := by
  obtain ⟨_, whole⟩ := meaning.map_matched
  obtain ⟨_, _, _, opening, later, _⟩ := whole.sequence_cons_matched
  obtain ⟨_, _, _, space, later, _⟩ := later.sequence_cons_matched
  obtain ⟨_, k, _, lines, later, _⟩ := later.sequence_cons_matched
  obtain ⟨_, _, _, closing, _, _⟩ := later.sequence_cons_matched
  obtain ⟨_, opening⟩ := opening.skip_matched_inner
  obtain ⟨_, closing⟩ := closing.skip_matched_inner
  obtain ⟨_, rfl⟩ := hasAt_of_mark ["/", "*", "*"] (by decide) opening
  obtain ⟨close, _⟩ := hasAt_of_mark ["*", "/"] (by decide) closing
  have low : i + 3 ≤ k := Nat.le_trans space.le_stop lines.le_stop
  exact ⟨k, low, close⟩

theorem commentAt?_before {body : Text} (start : text.hasAt "/*" i = true)
    (notPlain : plainEnd? text i = none) (found : commentAt? text i = some (body, j))
    (more : Text) :
    plainEnd? (text ++ more) i = none ∧ commentAt? (text ++ more) i = some (body, j) := by
  have meaning := (commentAt?_eq_some_iff text i body j).mp found
  obtain ⟨m, ahead, there⟩ := documentationComment_closes meaning
  obtain ⟨k, next⟩ := Text.exists_next? (by decide) (by omega : i + 2 ≤ m) there
  obtain ⟨starred, closed⟩ := documentation_of_not_plain start notPlain next
  obtain ⟨low, close, _⟩ := (Text.next?_eq_some_iff (by decide)).mp closed
  have high : k + 2 ≤ text.length := Text.length_le_of_hasAt close (by decide)
  obtain ⟨empty, same⟩ := documentationStart_before (by omega : i + 4 ≤ text.length) more
  constructor
  · rw [Option.eq_none_iff_forall_ne_some]
    intro stop plain
    obtain ⟨_, _, _, kind⟩ := (plainEnd?_eq_some_iff _ i stop).mp plain
    rw [empty, same] at kind
    have there := (plainEnd?_eq_some_iff text i (k + 2)).mpr ⟨k, next, rfl, kind⟩
    exact absurd (there.symm.trans notPlain) nofun
  · have content := ContentAt.of_next? closed
    obtain ⟨refused, read⟩ := @documentationComment_of_content [] _ _ _ starred content
    obtain ⟨_, read'⟩ :=
      @documentationComment_of_content [] _ _ _ (same.trans starred) (content.extend more)
    by_cases banner : IsBanner (lastLine (dropSpace ((text.drop (i + 3)).take (k - (i + 3)))))
    · obtain ⟨e, fails⟩ := refused banner
      exact absurd (meaning.unique fails) nofun
    · rw [commentAt?_eq_some_iff, meaning.unique (read banner)]
      exact read' banner

/-- The text is empty, or its last line is complete. -/
def Terminated (text : Text) : Prop := text = [] ∨ text.getLast? = some ('\n' : CodePoint)

theorem Terminated.newline (ended : Terminated text) (inside : i < text.length) :
    text.hasAt "\n" (text.length - 1) = true := by
  rcases ended with rfl | last
  · exact absurd inside (Nat.not_lt_zero i)
  · rw [List.getLast?_eq_getElem?] at last
    exact (Text.hasAt_singleton text '\n' _).mpr last

/-- At the last character no slash is read, so what follows makes no comment of it. -/
theorem Terminated.hasAt_slash (ended : Terminated text) (inside : i < text.length)
    (c : CodePoint) (more : Text) :
    (text ++ more).hasAt ['/', c] i = text.hasAt ['/', c] i := by
  by_cases two : i + 2 ≤ text.length
  · exact Text.hasAt_before two more
  · have last : i = text.length - 1 := by omega
    have newline := (Text.hasAt_singleton text '\n' _).mp (ended.newline inside)
    rw [← last] at newline
    have free : ∀ t : Text, t[i]? = some '\n' → t.hasAt ['/', c] i = false := by
      intro t here
      rw [Bool.eq_false_iff]
      intro slash
      have first := ((Text.hasAt_cons t [c] '/' i).mp slash).1
      exact absurd (here.symm.trans first) (by decide)
    rw [free text newline, free (text ++ more) ((List.getElem?_append_left inside).trans newline)]

theorem Terminated.lineEnd_before (ended : Terminated text) (line : text.hasAt "//" i = true)
    (more : Text) : lineEnd (text ++ more) (i + 2) = lineEnd text (i + 2) := by
  have high : i + 2 ≤ text.length := Text.length_le_of_hasAt line (by decide)
  have newline := ended.newline (by omega : i < text.length)
  have slash := (Text.hasAt_cons text "/" '/' i).mp line
  have low : i + 2 ≤ text.length - 1 := by
    by_contra last
    have same : text.length - 1 = i + 1 := by omega
    rw [same] at newline
    have second := (Text.hasAt_singleton text '/' _).mp slash.2
    have other := (Text.hasAt_singleton text '\n' _).mp newline
    exact absurd (second.symm.trans other) (by decide)
  obtain ⟨k, next⟩ := Text.exists_next? (by decide) low newline
  rw [lineEnd, lineEnd, next, Text.next?_before (by decide) next more]

theorem step_of_string (inside : i < text.length) (string : stringEnd? text i = some j) :
    step text i = .skip j := by
  rw [step, if_neg (Nat.not_le_of_lt inside), string]

theorem step_of_no_string (inside : i < text.length) (noString : stringEnd? text i = none) :
    step text i =
      if text.hasAt "//" i then .skip (lineEnd text (i + 2))
      else if text.hasAt "/*" i then
        match plainEnd? text i with
        | some stop => .skip stop
        | none =>
          match commentAt? text i with
          | some (body, stop) => .emit body stop
          | none => .stuck
      else .skip (i + 1) := by
  rw [step, if_neg (Nat.not_le_of_lt inside)]
  generalize stringEnd? text i = string at noString
  cases noString
  rfl

def QuoteAt (text : Text) (i : Nat) : Prop :=
  text.hasAt "\x27" i = true ∨ text.hasAt "\x22" i = true

theorem stringEnd?_of_not_quoteAt (free : ¬ QuoteAt text i) : stringEnd? text i = none := by
  obtain ⟨noSingle, noDouble⟩ := not_or.mp free
  rw [stringEnd?, if_neg noSingle, if_neg noDouble]

theorem step_of_not_slash (here : text[i]? = some x) (other : x ≠ '/')
    (noString : stringEnd? text i = none) : step text i = .skip (i + 1) := by
  have free : ∀ c : CodePoint, text.hasAt ['/', c] i = false := by
    intro c
    rw [Bool.eq_false_iff]
    intro slash
    have first := ((Text.hasAt_cons text [c] '/' i).mp slash).1
    exact other (Option.some.inj (here.symm.trans first))
  have inside : i < text.length := (List.getElem?_eq_some_iff.mp here).1
  have noLine : text.hasAt "//" i = false := free '/'
  have noBlock : text.hasAt "/*" i = false := free '*'
  simp [step_of_no_string inside noString, noLine, noBlock]

theorem step_of_quoteAt (quote : QuoteAt text i) (noString : stringEnd? text i = none) :
    step text i = .skip (i + 1) := by
  rcases quote with single | double
  · exact step_of_not_slash ((Text.hasAt_singleton text '\x27' i).mp single) (by decide) noString
  · exact step_of_not_slash ((Text.hasAt_singleton text '\x22' i).mp double) (by decide) noString

def Ordinary (c : CodePoint) : Prop := c ∉ ("/\x27\x22" : Text)

instance (c : CodePoint) : Decidable (Ordinary c) := inferInstanceAs (Decidable (c ∉ _))

theorem step_of_ordinary (here : text[i]? = some x) (ordinary : Ordinary x) :
    step text i = .skip (i + 1) := by
  have other : ∀ c : CodePoint, c ∈ ("/\x27\x22" : Text) → x ≠ c := by
    rintro c member rfl
    exact ordinary member
  apply step_of_not_slash here (other '/' (by decide))
  apply stringEnd?_of_not_quoteAt
  rintro (single | double)
  · have quote := (Text.hasAt_singleton text '\x27' i).mp single
    exact other '\x27' (by decide) (Option.some.inj (here.symm.trans quote))
  · have quote := (Text.hasAt_singleton text '\x22' i).mp double
    exact other '\x22' (by decide) (Option.some.inj (here.symm.trans quote))

/-- What a step reads inside of a text that ends with its last line is not changed by what follows,
unless the step passes over a quote by itself or is stuck. -/
theorem step_before (ended : Terminated text) (inside : i < text.length)
    (quotes : QuoteAt text i → step text i ≠ .skip (i + 1)) (goes : step text i ≠ .stuck)
    (more : Text) : step (text ++ more) i = step text i := by
  have inside' : i < (text ++ more).length := by
    rw [List.length_append]
    omega
  have line : (text ++ more).hasAt "//" i = text.hasAt "//" i := ended.hasAt_slash inside '/' more
  have block : (text ++ more).hasAt "/*" i = text.hasAt "/*" i := ended.hasAt_slash inside '*' more
  cases string : stringEnd? text i with
  | some stop =>
      rw [step_of_string inside string, step_of_string inside' (stringEnd?_before string more)]
  | none =>
      have free : ¬ QuoteAt text i := fun quote => quotes quote (step_of_quoteAt quote string)
      have one : ∀ quote : Text, quote.length = 1 →
          (text ++ more).hasAt quote i = text.hasAt quote i :=
        fun quote size => Text.hasAt_before (by omega) more
      have free' : ¬ QuoteAt (text ++ more) i := by
        rw [QuoteAt, one "\x27" rfl, one "\x22" rfl]
        exact free
      have string' := stringEnd?_of_not_quoteAt free'
      rw [step_of_no_string inside string] at goes ⊢
      rw [step_of_no_string inside' string', line, block]
      cases comment : text.hasAt "//" i with
      | true => simp [ended.lineEnd_before comment more]
      | false =>
          cases start : text.hasAt "/*" i with
          | false => simp
          | true =>
              cases plain : plainEnd? text i with
              | some stop => simp [plainEnd?_before plain more]
              | none =>
                  cases found : commentAt? text i with
                  | none => simp [comment, start, plain, found] at goes
                  | some read =>
                      obtain ⟨body, stop⟩ := read
                      obtain ⟨plain', found'⟩ := commentAt?_before start plain found more
                      simp [plain', found']

end Comment

end Descent
