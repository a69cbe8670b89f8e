import Descent.Proofs.Literal.Quoted

/-! What stands between quotes is read unit by unit, and every text is read back from its quotes. -/

namespace Descent.Literal

open Grammar

open scoped Computability

variable {defs : Definitions} {q e : CodePoint} {text rest : Text} {i : Nat} {escapes : Escapes}

inductive QuoteUnit (q e : CodePoint) where
  | plain (c : CodePoint) (noQuote : c ≠ q) (noEscape : c ≠ e)
  | unicode (four : FourDigits)
  | escaped (c : CodePoint)

namespace QuoteUnit

def write : QuoteUnit q e → Text
  | plain c _ _ => [c]
  | unicode four => e :: 'u' :: four.digits
  | escaped c => [e, c]

def meaning (escapes : Escapes) : QuoteUnit q e → Text
  | plain c _ _ => [c]
  | unicode four => [four.codePoint]
  | escaped c => (escapes.lookup c).getD [c]

/-- An escaped character is not the beginning of a code point by its digits. -/
def Fits (rest : Text) : QuoteUnit q e → Prop
  | escaped c => c = 'u' → ∀ four : FourDigits, ¬ four.digits <+: rest
  | _ => True

theorem write_ne_nil (unit : QuoteUnit q e) : unit.write ≠ [] := by
  cases unit <;> exact List.cons_ne_nil _ _

theorem length_le_of_fits {unit other : QuoteUnit q e} (fits : unit.Fits rest)
    (stands : other.write <+: unit.write ++ rest) : other.write.length ≤ unit.write.length := by
  cases unit with
  | plain c noQuote noEscape =>
      cases other with
      | plain d _ _ => exact Nat.le_refl 1
      | unicode four => exact absurd (List.cons_prefix_cons.mp stands).1.symm noEscape
      | escaped d => exact absurd (List.cons_prefix_cons.mp stands).1.symm noEscape
  | unicode four =>
      have size := four.size
      cases other with
      | plain d _ _ => simp [write]
      | unicode four' => simp [write, size, four'.size]
      | escaped d => simp [write]
  | escaped c =>
      cases other with
      | plain d _ _ => simp [write]
      | unicode four =>
          obtain ⟨letter, digits⟩ := List.cons_prefix_cons.mp (List.cons_prefix_cons.mp stands).2
          exact absurd digits (fits letter.symm four)
      | escaped d => exact Nat.le_refl 2

theorem exists_fits {text : Text} {unit : QuoteUnit q e} (stands : unit.write <+: text) :
    ∃ (fitting : QuoteUnit q e) (rest : Text),
      text = fitting.write ++ rest ∧ fitting.Fits rest := by
  rcases stands with ⟨rest, rfl⟩
  cases unit with
  | plain c noQuote noEscape => exact ⟨.plain c noQuote noEscape, rest, rfl, trivial⟩
  | unicode four => exact ⟨.unicode four, rest, rfl, trivial⟩
  | escaped c =>
      by_cases digits : c = 'u' ∧ ∃ four : FourDigits, four.digits <+: rest
      · obtain ⟨rfl, four, more, rfl⟩ := digits
        exact ⟨.unicode four, more, rfl, trivial⟩
      · refine ⟨.escaped c, rest, rfl, fun letter four here => digits ⟨letter, four, here⟩⟩

/-- What a unit means can be told from its text. -/
theorem meaning_eq {unit other : QuoteUnit q e} (same : unit.write = other.write) :
    unit.meaning escapes = other.meaning escapes := by
  have long (four : FourDigits) (c : CodePoint) : e :: 'u' :: four.digits ≠ [e, c] := by
    intro whole
    have size := congrArg List.length whole
    simp [four.size] at size
  cases unit with
  | plain c noQuote noEscape =>
      cases other with
      | plain d _ _ => exact same
      | unicode four => cases same
      | escaped d => cases same
  | unicode four =>
      cases other with
      | plain d _ _ => cases same
      | unicode four' =>
          cases four
          cases four'
          cases same
          rfl
      | escaped d => exact absurd same (long four d)
  | escaped c =>
      cases other with
      | plain d _ _ => cases same
      | unicode four => exact absurd same.symm (long four c)
      | escaped d =>
          cases same
          rfl

def writeAll (units : List (QuoteUnit q e)) : Text := units.flatMap write

def meanings (escapes : Escapes) (units : List (QuoteUnit q e)) : Text :=
  units.flatMap (meaning escapes)

def AllFit (rest : Text) : List (QuoteUnit q e) → Prop
  | [] => True
  | unit :: units => unit.Fits (writeAll units ++ rest) ∧ AllFit rest units

theorem writeAll_cons (unit : QuoteUnit q e) (units : List (QuoteUnit q e)) :
    writeAll (unit :: units) = unit.write ++ writeAll units := rfl

/-- Every text begins with units that fit, up to where no unit stands. -/
theorem exists_units (q e : CodePoint) (text : Text) :
    ∃ (units : List (QuoteUnit q e)) (rest : Text), text = writeAll units ++ rest ∧
      AllFit rest units ∧ ∀ unit : QuoteUnit q e, ¬ unit.write <+: rest := by
  -- Units are one, two or six characters long, so the induction is on the length.
  induction size : text.length using Nat.strong_induction_on generalizing text with
  | _ n ih =>
      by_cases stands : ∃ unit : QuoteUnit q e, unit.write <+: text
      · obtain ⟨_, here⟩ := stands
        obtain ⟨unit, more, rfl, fits⟩ := exists_fits here
        have shorter : more.length < n := by
          have long := List.length_pos_iff.mpr unit.write_ne_nil
          rw [← size, List.length_append]
          omega
        obtain ⟨units, rest, rfl, each, stops⟩ := ih _ shorter more rfl
        exact ⟨unit :: units, rest, (List.append_assoc _ _ _).symm, ⟨fits, each⟩, stops⟩
      · exact ⟨[], text, rfl, trivial, fun unit here => stands ⟨unit, here⟩⟩

theorem not_prefix_quote (different : q ≠ e) (rest : Text) (unit : QuoteUnit q e) :
    ¬ unit.write <+: q :: rest := by
  intro stands
  cases unit with
  | plain c noQuote _ => exact noQuote (List.cons_prefix_cons.mp stands).1
  | unicode four => exact different (List.cons_prefix_cons.mp stands).1.symm
  | escaped c => exact different (List.cons_prefix_cons.mp stands).1.symm

end QuoteUnit

open QuoteUnit

def quoteUnits (q e : CodePoint) : Language CodePoint :=
  {([e] : Text)} * ({("u" : Text)} * fourDigits + Charset.others []) + Charset.others [q, e]

theorem mem_quoteUnits {t : Text} :
    t ∈ quoteUnits q e ↔ ∃ unit : QuoteUnit q e, unit.write = t := by
  constructor
  · rintro (⟨_, rfl, _, ⟨_, rfl, digits, written, rfl⟩ | ⟨c, _, rfl⟩, rfl⟩ | ⟨c, raw, rfl⟩)
    · obtain ⟨four, rfl⟩ := mem_fourDigits.mp written
      exact ⟨.unicode four, rfl⟩
    · exact ⟨.escaped c, rfl⟩
    · have other : c ≠ q ∧ c ≠ e := by simpa using raw
      exact ⟨.plain c other.1 other.2, rfl⟩
  · rintro ⟨unit, rfl⟩
    cases unit with
    | plain c noQuote noEscape => exact .inr ⟨c, by simp [noQuote, noEscape], rfl⟩
    | unicode four =>
        exact .inl ⟨[e], rfl, _, .inl ⟨_, rfl, _, mem_fourDigits.mpr ⟨four, rfl⟩, rfl⟩, rfl⟩
    | escaped c => exact .inl ⟨[e], rfl, [c], .inr ⟨c, List.not_mem_nil, rfl⟩, rfl⟩

def quoteUnit (style : QuoteStyle) : Grammar :=
  firstOf [escaped style, .noneOf (style.quote ++ style.escape)]

theorem quoteUnit_longest (q e : CodePoint) (escapes : Escapes) :
    Longest defs text (quoteUnits q e)
      (fun t m => ∃ unit : QuoteUnit q e, unit.write = t ∧ m.Spells (unit.meaning escapes))
      (quoteUnit { quote := [q], escape := [e], escapes }) := by
  have single (set : Text) : ∀ t ∈ Charset.others set, t.length ≤ 1 := by
    rintro _ ⟨c, _, rfl⟩
    exact Nat.le_refl 1
  have character : Longest defs text (Charset.others [])
      (fun t m => ∃ c, t = [c] ∧ m = .just (.text (escapes.meaning c)))
      (.map escapes.apply any) := by
    refine (Longest.noneOf []).map ?_
    rintro _ _ ⟨c, _, rfl⟩ rfl
    exact ⟨_, _, rfl, rfl, c, rfl, rfl⟩
  have behind : Longest defs text ({("u" : Text)} * fourDigits + Charset.others [])
      (fun t m => ∃ unit : QuoteUnit q e, unit.write = e :: t ∧
        m = .just (.text (unit.meaning escapes)))
      (firstOf [unicodeEscape, .map escapes.apply any]) := by
    refine (unicodeEscape_longest.mono ?_).choice_pair (character.mono ?_)
      (covers_of_length (n := 1) ?_ (single _))
    · rintro _ _ _ ⟨four, rfl, rfl⟩
      exact ⟨.unicode four, rfl, rfl⟩
    · rintro _ _ _ ⟨c, rfl, rfl⟩
      exact ⟨.escaped c, rfl, rfl⟩
    · rintro _ ⟨_, rfl, _, _, rfl⟩
      exact Nat.succ_le_succ (Nat.zero_le _)
  have escape : Longest defs text {([e] : Text)} (fun t m => t = [e] ∧ m = .nothing)
      (.skip (.word [e])) :=
    (Longest.word (List.cons_ne_nil _ _)).skip.mono fun _ _ => .intro
  refine (escape.sequence_pair behind (separates_singleton _ _) ?_).choice_pair
    ((Longest.noneOf [q, e]).mono ?_) (covers_of_length (n := 1) ?_ (single _))
  · rintro _ t _ _ ⟨rfl, rfl⟩ ⟨unit, written, rfl⟩
    exact ⟨unit, written, Maybe.spells_just.mpr
      ((Payload.flatten_singleton _).trans (Payload.flatten_text _))⟩
  · rintro _ _ ⟨c, raw, rfl⟩ rfl
    have other : c ≠ q ∧ c ≠ e := by simpa using raw
    exact ⟨.plain c other.1 other.2, rfl, Maybe.spells_just.mpr (Payload.flatten_text _)⟩
  · rintro _ ⟨_, rfl, _, _, rfl⟩
    exact Nat.succ_le_succ (Nat.zero_le _)

theorem quoteUnit_matched {unit : QuoteUnit q e} (here : text.drop i = unit.write ++ rest)
    (fits : unit.Fits rest) :
    ∃ value : Maybe, value.Spells (unit.meaning escapes) ∧
      Meaning defs text (quoteUnit { quote := [q], escape := [e], escapes }) i
        (.matched value (i + unit.write.length)) := by
  have found : text.hasAt unit.write i = true :=
    (Text.hasAt_iff _ _ _).mpr (here ▸ List.prefix_append _ _)
  have member : unit.write ∈ quoteUnits q e := mem_quoteUnits.mpr ⟨unit, rfl⟩
  have stands : text.LongestAt (quoteUnits q e) i unit.write := by
    refine ⟨member, found, fun t known there => ?_⟩
    obtain ⟨other, rfl⟩ := mem_quoteUnits.mp known
    exact length_le_of_fits fits (here ▸ (Text.hasAt_iff _ _ _).mp there)
  rcases quoteUnit_longest q e escapes i with ⟨t, value, longest, known, meaning⟩ | ⟨_, none⟩
  · obtain ⟨other, written, spelled⟩ := known
    have same : unit.write = other.write := (stands.unique longest).trans written.symm
    rw [meaning_eq same, same, written]
    exact ⟨value, spelled, meaning⟩
  · rw [none _ member] at found
    exact absurd found nofun

theorem quoteUnit_failed (stops : ∀ unit : QuoteUnit q e, ¬ unit.write <+: text.drop i) :
    ∃ k, Meaning defs text (quoteUnit { quote := [q], escape := [e], escapes }) i (.failed k) := by
  rcases quoteUnit_longest q e escapes i with ⟨t, _, longest, _, _⟩ | ⟨fails, _⟩
  · obtain ⟨unit, rfl⟩ := mem_quoteUnits.mp longest.member
    exact absurd ((Text.hasAt_iff _ _ _).mp longest.here) (stops unit)
  · exact fails

theorem quoteUnits_matched {units : List (QuoteUnit q e)}
    (here : text.drop i = writeAll units ++ rest) (each : AllFit rest units)
    (stops : ∀ unit : QuoteUnit q e, ¬ unit.write <+: rest) :
    ∃ values, (Payload.list values).flatten = .ok (meanings escapes units) ∧
      Meaning defs text (.many (quoteUnit { quote := [q], escape := [e], escapes })) i
        (.matched (.just (.list values)) (i + (writeAll units).length)) := by
  induction units generalizing i with
  | nil =>
      have here : text.drop i = rest := here
      subst here
      obtain ⟨k, fails⟩ := quoteUnit_failed stops
      exact ⟨[], rfl, .many_failed fails⟩
  | cons unit units ih =>
      obtain ⟨fits, later⟩ := each
      rw [writeAll_cons, List.append_assoc] at here
      obtain ⟨value, spelled, first⟩ := quoteUnit_matched here fits
      have behind : text.drop (i + unit.write.length) = writeAll units ++ rest := by
        rw [← List.drop_drop, here, List.drop_left]
      obtain ⟨values, flat, more⟩ := ih behind later
      have long := List.length_pos_iff.mpr unit.write_ne_nil
      refine ⟨value.toList ++ values, Payload.flatten_append spelled flat, ?_⟩
      rw [writeAll_cons, List.length_append, ← Nat.add_assoc]
      exact .many_next first (by omega) more

theorem quotedText_parts {units : List (QuoteUnit q e)} {a : Answer}
    (here : text.drop i = q :: (writeAll units ++ rest)) (each : AllFit rest units)
    (stops : ∀ unit : QuoteUnit q e, ¬ unit.write <+: rest)
    (last : Meaning defs text (.sequence [.skip (.word [q])]) (i + 1 + (writeAll units).length) a) :
    Meaning defs text (.sequence [.skip (.word [q]),
        quotedContent { quote := [q], escape := [e], escapes }, .skip (.word [q])]) i
      ((a.prepend [.text (meanings escapes units)]).prepend []) := by
  obtain ⟨opens, behind⟩ := (Text.drop_eq_cons_iff _ _ _ _).mp here
  obtain ⟨values, flat, read⟩ := quoteUnits_matched behind each stops
  have first : Meaning defs text (.skip (.word [q])) i _ := .skip_matched
    (Meaning.word_matched (List.cons_ne_nil _ _) ((Text.hasAt_singleton _ _ _).mpr opens))
  exact .sequence_next first
    (.sequence_next (.map_done read (Payload.joined_of_flatten flat)) last)

theorem drop_behind {units : List (QuoteUnit q e)}
    (here : text.drop i = q :: (writeAll units ++ rest)) :
    text.drop (i + 1 + (writeAll units).length) = rest := by
  obtain ⟨_, behind⟩ := (Text.drop_eq_cons_iff _ _ _ _).mp here
  rw [← List.drop_drop, behind, List.drop_left]

theorem quotedText_matched (different : q ≠ e) {units : List (QuoteUnit q e)}
    (here : text.drop i = q :: (writeAll units ++ q :: rest)) (each : AllFit (q :: rest) units) :
    Meaning defs text (quotedText { quote := [q], escape := [e], escapes }) i
      (.matched (.just (.text (meanings escapes units))) (i + (writeAll units).length + 2)) := by
  have closes : text.hasAt [q] (i + 1 + (writeAll units).length) = true :=
    (Text.hasAt_iff _ _ _).mpr (drop_behind here ▸ ⟨rest, rfl⟩)
  have last : Meaning defs text (.sequence [.skip (.word [q])])
      (i + 1 + (writeAll units).length) _ := .sequence_next (.skip_matched
    (Meaning.word_matched (List.cons_ne_nil _ _) closes)) (.sequence_nil _)
  have stop : i + (writeAll units).length + 2 = i + 1 + (writeAll units).length + 1 := by omega
  rw [stop]
  exact .map_done (quotedText_parts here each (not_prefix_quote different rest) last) rfl

theorem quotedText_failed {units : List (QuoteUnit q e)}
    (here : text.drop i = q :: (writeAll units ++ rest)) (each : AllFit rest units)
    (stops : ∀ unit : QuoteUnit q e, ¬ unit.write <+: rest) (unclosed : rest.head? ≠ some q) :
    ∃ k, Meaning defs text (quotedText { quote := [q], escape := [e], escapes }) i (.failed k) := by
  have missing : text.hasAt [q] (i + 1 + (writeAll units).length) = false := by
    rw [Text.hasAt_singleton_false, ← List.head?_drop, drop_behind here]
    exact unclosed
  have last : Meaning defs text (.sequence [.skip (.word [q])])
      (i + 1 + (writeAll units).length) _ :=
    .sequence_stop (.skip_stop (Meaning.word_failed missing) rfl) rfl
  exact ⟨_, .map_stop (quotedText_parts here each stops last) rfl⟩

theorem quotedText_unopened (unopened : text[i]? ≠ some q) :
    Meaning defs text (quotedText { quote := [q], escape := [e], escapes }) i (.failed i) :=
  have missing : text.hasAt [q] i = false := (Text.hasAt_singleton_false _ _ _).mpr unopened
  .map_stop (.sequence_stop (.skip_stop (Meaning.word_failed missing) rfl) rfl) rfl

theorem quotedText_answers (q e : CodePoint) (escapes : Escapes) (text : Text) (i : Nat) :
    (∃ (units : List (QuoteUnit q e)) (rest : Text), AllFit (q :: rest) units ∧
      text.drop i = q :: (writeAll units ++ q :: rest)) ∨
    ∃ k, Meaning [] text (quotedText { quote := [q], escape := [e], escapes }) i (.failed k) := by
  by_cases opens : text[i]? = some q
  · have here := (Text.drop_eq_cons_iff text _ q i).mpr ⟨opens, rfl⟩
    obtain ⟨units, rest, split, each, stops⟩ := exists_units q e (text.drop (i + 1))
    rw [split] at here
    by_cases closes : rest.head? = some q
    · obtain ⟨more, rfl⟩ := List.head?_eq_some_iff.mp closes
      exact .inl ⟨units, more, each, here⟩
    · exact .inr (quotedText_failed here each stops closes)
  · exact .inr ⟨i, quotedText_unopened opens⟩

def enquote (q e : CodePoint) (t : Text) : Text :=
  t.flatMap fun c => if c = q ∨ c = e then [e, c] else [c]

def unitOf (q e c : CodePoint) : QuoteUnit q e :=
  if same : c = q ∨ c = e then .escaped c
  else .plain c (fun quote => same (.inl quote)) (fun escape => same (.inr escape))

theorem write_unitOf (q e c : CodePoint) :
    (unitOf q e c).write = if c = q ∨ c = e then [e, c] else [c] := by
  rw [unitOf]
  split
  · rfl
  · rfl

theorem writeAll_unitOf (q e : CodePoint) (t : Text) :
    writeAll (t.map (unitOf q e)) = enquote q e t := by
  rw [writeAll, List.flatMap_map, enquote]
  simp only [write_unitOf]

/-- Only a quote or an escape is escaped, and neither is the letter of a code point. -/
theorem unitOf_fits (noQuote : q ≠ 'u') (noEscape : e ≠ 'u') (c : CodePoint) (rest : Text) :
    (unitOf q e c).Fits rest := by
  rw [unitOf]
  split
  · rename_i special
    intro letter
    rcases special with rfl | rfl
    · exact absurd letter noQuote
    · exact absurd letter noEscape
  · trivial

theorem allFit_unitOf (noQuote : q ≠ 'u') (noEscape : e ≠ 'u') (t rest : Text) :
    AllFit rest (t.map (unitOf q e)) := by
  induction t with
  | nil => trivial
  | cons c t ih => exact ⟨unitOf_fits noQuote noEscape c _, ih⟩

theorem meanings_unitOf (quote : escapes.lookup q = none) (escape : escapes.lookup e = none)
    (t : Text) : meanings escapes (t.map (unitOf q e)) = t := by
  have single (c : CodePoint) : (unitOf q e c).meaning escapes = [c] := by
    rw [unitOf]
    split
    · rename_i special
      have absent : escapes.lookup c = none := special.elim (· ▸ quote) (· ▸ escape)
      rw [meaning, absent]
      rfl
    · rfl
  rw [meanings, List.flatMap_map]
  simp only [single]
  exact List.flatMap_singleton' t

/-- Quotes are read exactly where they close units that fit, as what the units mean, up to behind
the closing quote. A text whose quotes and escapes are escaped is read back. -/
theorem quotedText_decodes (different : q ≠ e) (escapes : Escapes) :
    (∀ (body : Body) (i : Nat), ∃ r,
      ((quotedText { quote := [q], escape := [e], escapes }).parse (body.cursor i)).outcome =
        .done r ∧
      (r.succeeded = true ↔ ∃ (units : List (QuoteUnit q e)) (rest : Text),
        AllFit (q :: rest) units ∧ body.text.drop i = q :: (writeAll units ++ q :: rest)) ∧
      ∀ (units : List (QuoteUnit q e)) (rest : Text), AllFit (q :: rest) units →
        body.text.drop i = q :: (writeAll units ++ q :: rest) →
        r = .success (.just (.text (meanings escapes units)))
          (body.cursor (i + (writeAll units).length + 2)) i) ∧
    (escapes.lookup q = none → escapes.lookup e = none → q ≠ 'u' → e ≠ 'u' →
      ∀ t front rest name : Text,
        let body : Body := { text := front ++ q :: (enquote q e t ++ q :: rest), name }
        ((quotedText { quote := [q], escape := [e], escapes }).parse
            (body.cursor front.length)).outcome =
          .done (.success (.just (.text t))
            (body.cursor (front.length + (enquote q e t).length + 2)) front.length)) := by
  have matched {body : Body} {i : Nat} {units : List (QuoteUnit q e)} {rest : Text}
      (each : AllFit (q :: rest) units)
      (here : body.text.drop i = q :: (writeAll units ++ q :: rest)) :
      ((quotedText { quote := [q], escape := [e], escapes }).parse (body.cursor i)).outcome =
        .done (.success (.just (.text (meanings escapes units)))
          (body.cursor (i + (writeAll units).length + 2)) i) := by
    have complete : Parser.Yields body
        ((quotedText { quote := [q], escape := [e], escapes }).parse · []) i _ :=
      Grammar.parse_complete (quotedText_matched different here each)
    exact complete.outcome_eq
  constructor
  · intro body i
    rcases quotedText_answers q e escapes body.text i with ⟨units, rest, each, here⟩ | ⟨k, fails⟩
    · refine ⟨_, matched each here, iff_of_true rfl ⟨units, rest, each, here⟩, ?_⟩
      intro units' rest' each' here'
      exact Outcome.done.inj ((matched each here).symm.trans (matched each' here'))
    · have complete : Parser.Yields body
          ((quotedText { quote := [q], escape := [e], escapes }).parse · []) i _ :=
        Grammar.parse_complete fails
      -- The meaning at a position is unique, so no split into units can be there as well.
      have never {units : List (QuoteUnit q e)} {rest : Text} (each : AllFit (q :: rest) units)
          (here : body.text.drop i = q :: (writeAll units ++ q :: rest)) : False := by
        cases (matched each here).symm.trans complete.outcome_eq
      refine ⟨_, complete.outcome_eq, iff_of_false Bool.false_ne_true ?_, ?_⟩
      · rintro ⟨units, rest, each, here⟩
        exact never each here
      · intro units rest each here
        exact (never each here).elim
  · intro quote escape noQuote noEscape t front rest name body
    have here : body.text.drop front.length =
        q :: (writeAll (t.map (unitOf q e)) ++ q :: rest) := by
      rw [writeAll_unitOf]
      exact List.drop_left
    have read := matched (allFit_unitOf noQuote noEscape t (q :: rest)) here
    rwa [meanings_unitOf quote escape, writeAll_unitOf] at read

theorem quotedText_decodes_standard :
    ('\x22' : CodePoint) ≠ '\x5c' ∧
    (let body : Body := { text := "at \x22a\x5cn\x5cu00e9\x5cu00\x22 end", name := [] }
     ((quotedText {}).parse (body.cursor 3)).outcome =
       .done (.success (.just (.text "a\néu00")) (body.cursor 18) 3)) ∧
    let body : Body := { text := "say \x22a\x5c\x22\x5c\x5cu0041\x22 now", name := [] }
    ((quotedText {}).parse (body.cursor 4)).outcome =
      .done (.success (.just (.text "a\x22\x5cu0041")) (body.cursor 16) 4) := by
  have different : ('\x22' : CodePoint) ≠ '\x5c' := by decide
  refine ⟨different, ?_, ?_⟩
  · intro body
    let four : FourDigits := { digits := "00e9", size := rfl, each := by decide }
    let units : List (QuoteUnit '\x22' '\x5c') :=
      [.plain 'a' (by decide) (by decide), .escaped 'n', .unicode four, .escaped 'u',
        .plain '0' (by decide) (by decide), .plain '0' (by decide) (by decide)]
    -- Behind the second small u the quote comes too early for a code point.
    have early (other : FourDigits) : ¬ other.digits <+: Text.ofString "00\x22 end" := by
      intro front
      have same := List.prefix_iff_eq_take.mp front
      rw [other.size] at same
      exact absurd (other.each '\x22' (by rw [same]; decide)) (by decide)
    have fits : AllFit ('\x22' :: Text.ofString " end") units :=
      ⟨trivial, nofun, trivial, fun _ => early, trivial, trivial, trivial⟩
    obtain ⟨r, ends, _, decoded⟩ := (quotedText_decodes different .standard).1 body 3
    exact ends.trans (congrArg Outcome.done (decoded units " end" fits rfl))
  · exact (quotedText_decodes different .standard).2 rfl rfl (by decide) (by decide)
      "a\x22\x5cu0041" "say " " now" []

end Descent.Literal
