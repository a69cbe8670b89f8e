import Descent.Comment.Grammar
import Descent.Literal.Number
import Descent.Literal.Word
import Descent.Proofs.Search

/-! Grammars whose payloads hold all of the text that is matched, and nothing else. -/

namespace Descent

namespace Text

def between (text : Text) (i j : Nat) : Text := (text.take j).drop i

variable {text : Text} {i j k : Nat}

theorem between_self (text : Text) (i : Nat) : text.between i i = [] :=
  List.drop_eq_nil_of_le (List.length_take_le _ _)

theorem between_append (first : i ≤ j) (second : j ≤ k) :
    text.between i j ++ text.between j k = text.between i k := by
  have size : k - i = (j - i) + (k - j) := by omega
  have start : i + (j - i) = j := by omega
  calc
    text.between i j ++ text.between j k =
        (text.drop i).take (j - i) ++ ((text.drop i).drop (j - i)).take (k - j) := by
      rw [between, between, List.drop_take, List.drop_take, List.drop_drop, start]
    _ = (text.drop i).take (k - i) := by rw [size, List.take_add]
    _ = text.between i k := by rw [between, List.drop_take]

theorem between_of_hasAt {word : Text} (found : text.hasAt word i = true) :
    text.between i (i + word.length) = word := by
  rw [between, List.drop_take, Nat.add_sub_cancel_left, take_of_hasAt found]

end Text

def Maybe.Spells (value : Maybe) (t : Text) : Prop :=
  (Payload.list value.toList).flatten = .ok t

theorem Maybe.spells_just {payload : Payload} {t : Text} :
    (Maybe.just payload).Spells t ↔ payload.flatten = .ok t := by
  rw [← Payload.flatten_singleton]
  rfl

namespace Grammar

/-- Built from characters, words and the end of the text, whose payloads are what they match, by
what keeps all payloads of its parts in their order. Only what takes no text may be skipped, and
what is looked ahead at may be anything. -/
inductive Lossless : Grammar → Prop where
  | oneOf (set : Text) : Lossless (.oneOf set)
  | noneOf (set : Text) : Lossless (.noneOf set)
  | word (w : Text) : Lossless (.word w)
  | endOfText : Lossless .endOfText
  | sequence {parts : List Grammar} (each : ∀ part ∈ parts, Lossless part) :
      Lossless (.sequence parts)
  | choice (deepest : Bool) {parts : List Grammar} (each : ∀ part ∈ parts, Lossless part) :
      Lossless (.choice deepest parts)
  | many {part : Grammar} (inner : Lossless part) : Lossless (.many part)
  | oneOrMore {part : Grammar} (inner : Lossless part) : Lossless (oneOrMore part)
  | separatedBy {item separator : Grammar} (items : Lossless item)
      (separators : Lossless separator) : Lossless (separatedBy item separator)
  | optional {part : Grammar} (inner : Lossless part) : Lossless (optional part)
  | joined {part : Grammar} (inner : Lossless part) : Lossless (joined part)
  | both {first : Grammar} (inner : Lossless first) (others : List Grammar) :
      Lossless (.both first others)
  | not (part : Grammar) : Lossless (.not part)
  | skip_endOfText : Lossless (.skip .endOfText)
  | skip_peek (part : Grammar) : Lossless (.skip (.peek part))

theorem Lossless.cons {part : Grammar} {parts : List Grammar} (first : part.Lossless)
    (rest : ∀ other ∈ parts, other.Lossless) : ∀ other ∈ part :: parts, other.Lossless :=
  List.forall_mem_cons.mpr ⟨first, rest⟩

theorem Lossless.pair {first second : Grammar} (left : first.Lossless) (right : second.Lossless) :
    ∀ part ∈ [first, second], part.Lossless :=
  left.cons (List.forall_mem_singleton.mpr right)

def Spelled (defs : Definitions) (text : Text) (g : Grammar) : Prop :=
  ∀ i j value, Meaning defs text g i (.matched value j) → value.Spells (text.between i j)

namespace Spelled

variable {defs : Definitions} {text : Text} {part first item separator : Grammar}
  {parts others : List Grammar} {i j k : Nat} {value : Maybe}

theorem of_character {accepts : CodePoint → Bool}
    (same : Answer.matched value j = .character accepts text i) :
    value.Spells (text.between i j) := by
  unfold Answer.character at same
  split at same
  · rename_i x found
    split at same
    · cases same
      have here := (Text.hasAt_singleton text x i).mpr found
      have spelled := Text.between_of_hasAt here
      rw [List.length_singleton] at spelled
      rw [Maybe.spells_just, spelled]
      exact Payload.flatten_text [x]
    · cases same
  · cases same

theorem of_word {w : Text} (same : Answer.matched value j = .word w text i) :
    value.Spells (text.between i j) := by
  unfold Answer.word at same
  split at same
  · rename_i found
    cases same
    rw [Maybe.spells_just, Text.between_of_hasAt found.2]
    exact Payload.flatten_text w
  · cases same

theorem of_endOfText (same : Answer.matched value j = .endOfText text i) :
    value.Spells (text.between i j) := by
  unfold Answer.endOfText at same
  split at same
  · cases same
    rw [Maybe.spells_just, Text.between_self]
    exact Payload.flatten_nil
  · cases same

theorem sequence_list {values : List Payload} (each : ∀ part ∈ parts, part.Spelled defs text)
    (meaning : Meaning defs text (.sequence parts) i (.matched (.just (.list values)) k)) :
    (Payload.list values).flatten = .ok (text.between i k) := by
  induction parts generalizing i values with
  | nil =>
      cases meaning
      rw [Text.between_self]
      exact Payload.flatten_nil
  | cons part parts ih =>
      obtain ⟨first, j, rest, begins, later, same⟩ := meaning.sequence_cons_matched
      cases same
      have head := each part List.mem_cons_self i j first begins
      have tail := ih (fun part member => each part (List.mem_cons_of_mem _ member)) later
      rw [← Text.between_append begins.le_stop later.le_stop]
      exact Payload.flatten_append head tail

theorem sequence (each : ∀ part ∈ parts, part.Spelled defs text) :
    (Grammar.sequence parts).Spelled defs text := by
  intro i j value meaning
  obtain ⟨values, rfl⟩ := meaning.sequence_list
  rw [Maybe.spells_just]
  exact sequence_list each meaning

theorem choice (deepest : Bool) (each : ∀ part ∈ parts, part.Spelled defs text) :
    (Grammar.choice deepest parts).Spelled defs text := by
  intro i j value meaning
  obtain ⟨part, member, found⟩ := meaning.choice_matched
  exact each part member i j value found

theorem both (start : first.Spelled defs text) (others : List Grammar) :
    (Grammar.both first others).Spelled defs text :=
  fun i j value meaning => start i j value meaning.both_matched

theorem repeats_list {collect : Maybe → List Payload} {step : Nat → Answer → Prop}
    {values : List Payload}
    (each : ∀ i j value, step i (.matched value j) →
      (Payload.list (collect value)).flatten = .ok (text.between i j))
    (repeats : Repeats collect step i (.matched (.just (.list values)) k)) :
    i ≤ k ∧ (Payload.list values).flatten = .ok (text.between i k) := by
  generalize whole : Answer.matched (.just (.list values)) k = a at repeats
  induction repeats generalizing values with
  | failed last =>
      cases whole
      rw [Text.between_self]
      exact ⟨Nat.le_refl _, Payload.flatten_nil⟩
  | still last still =>
      cases whole
      rw [Text.between_self]
      exact ⟨Nat.le_refl _, Payload.flatten_nil⟩
  | raised last => cases whole
  | next first advances later ih =>
      rcases later.list_or_raised with ⟨rest, m, rfl⟩ | ⟨fault, rfl⟩
      · cases whole
        obtain ⟨after, tail⟩ := ih rfl
        have head := each _ _ _ first
        refine ⟨Nat.le_trans (Nat.le_of_lt advances) after, ?_⟩
        rw [← Text.between_append (Nat.le_of_lt advances) after]
        exact Payload.flatten_append head tail
      · cases whole

theorem many (inner : part.Spelled defs text) : (Grammar.many part).Spelled defs text := by
  intro i j value meaning
  have repeats := Meaning.many_iff.mp meaning
  rcases repeats.list_or_raised with ⟨values, k, same⟩ | ⟨fault, same⟩
  · cases same
    rw [Maybe.spells_just]
    exact (repeats_list inner repeats).2
  · cases same

theorem of_followedBy {collect : Maybe → List Payload} {step : Nat → Answer → Prop}
    (start : part.Spelled defs text)
    (each : ∀ i j value, step i (.matched value j) →
      (Payload.list (collect value)).flatten = .ok (text.between i j))
    (followed : FollowedBy (Meaning defs text part) (Repeats collect step) i
      (.matched value k)) : value.Spells (text.between i k) := by
  generalize whole : Answer.matched value k = a at followed
  cases followed with
  | stop begins stops =>
      subst whole
      simp at stops
  | next begins later =>
      rcases later.list_or_raised with ⟨rest, m, rfl⟩ | ⟨fault, rfl⟩
      · cases whole
        obtain ⟨after, tail⟩ := repeats_list each later
        have head := start _ _ _ begins
        rw [Maybe.prepend_list, Maybe.spells_just, ← Text.between_append begins.le_stop after]
        exact Payload.flatten_append head tail
      · cases whole

theorem oneOrMore (inner : part.Spelled defs text) :
    (Grammar.oneOrMore part).Spelled defs text := by
  intro i j value meaning
  have followed := Meaning.oneOrMore_iff.mp meaning
  exact of_followedBy inner inner (followed.mono fun _ _ => Meaning.many_iff.mp)

theorem separatedBy (items : item.Spelled defs text) (separators : separator.Spelled defs text) :
    (Grammar.separatedBy item separator).Spelled defs text := by
  intro i j value meaning
  apply of_followedBy items ?_ (Meaning.separatedBy_iff.mp meaning)
  intro m n group found
  obtain ⟨values, rfl⟩ := found.sequence_list
  apply sequence_list _ found
  intro part member
  rcases List.mem_pair.mp member with rfl | rfl
  · exact separators
  · exact items

theorem optional (inner : part.Spelled defs text) :
    (Grammar.optional part).Spelled defs text := by
  intro i j value meaning
  cases meaning with
  | option_some found _ => exact inner i j value found
  | option_none fails =>
      rw [Text.between_self]
      exact Payload.flatten_nil

theorem joined (inner : part.Spelled defs text) : (Grammar.joined part).Spelled defs text := by
  intro i j value meaning
  cases meaning with
  | map_done found applied =>
      have flat := Maybe.spells_just.mp (inner i j _ found)
      rw [Payload.joined_of_flatten flat] at applied
      cases applied
      exact Maybe.spells_just.mpr (Payload.flatten_text _)
  | map_absent found _ => exact inner i j value found
  | map_stop _ stops => simp at stops

theorem not (part : Grammar) : (Grammar.not part).Spelled defs text := by
  intro i j value meaning
  generalize same : Answer.matched value j = a at meaning
  cases meaning with
  | not_matched _ => cases same
  | not_failed _ => exact of_character same
  | not_raised _ => cases same

/-- What is skipped is lost unless it takes no text. -/
theorem skip (still : ∀ i j value, Meaning defs text part i (.matched value j) → j = i) :
    (Grammar.skip part).Spelled defs text := by
  intro i j value meaning
  cases meaning with
  | skip_matched found =>
      cases still i j _ found
      rw [Text.between_self]
      exact Payload.flatten_nil
  | skip_stop _ stops => simp at stops

theorem skip_endOfText : (Grammar.skip .endOfText).Spelled defs text := by
  apply skip
  intro i j value meaning
  generalize same : Answer.matched value j = a at meaning
  cases meaning
  unfold Answer.endOfText at same
  split at same
  · cases same
    rfl
  · cases same

theorem skip_peek (part : Grammar) : (Grammar.skip (.peek part)).Spelled defs text :=
  skip fun _ _ _ meaning => meaning.peek_matched_inner.1

end Spelled

theorem Lossless.spelled {g : Grammar} (lossless : g.Lossless) (defs : Definitions)
    (text : Text) : g.Spelled defs text := by
  have answered : ∀ {h : Grammar} {answer : Nat → Answer}, (∀ i, Meaning defs text h i (answer i)) →
      (∀ i j value, Answer.matched value j = answer i → value.Spells (text.between i j)) →
      h.Spelled defs text :=
    fun meaning spells i j value found => spells i j value (found.unique (meaning i))
  induction lossless with
  | oneOf set => exact answered (.oneOf set) fun _ _ _ => Spelled.of_character
  | noneOf set => exact answered (.noneOf set) fun _ _ _ => Spelled.of_character
  | word w => exact answered (.word w) fun _ _ _ => Spelled.of_word
  | endOfText => exact answered .endOfText fun _ _ _ => Spelled.of_endOfText
  | sequence _ ih => exact .sequence ih
  | choice deepest _ ih => exact .choice deepest ih
  | many _ ih => exact ih.many
  | oneOrMore _ ih => exact ih.oneOrMore
  | separatedBy _ _ items separators => exact items.separatedBy separators
  | optional _ ih => exact ih.optional
  | joined _ ih => exact ih.joined
  | both _ others ih => exact ih.both others
  | not part => exact .not part
  | skip_endOfText => exact .skip_endOfText
  | skip_peek part => exact .skip_peek part

end Grammar

namespace Comment

open Grammar

theorem mark_lossless (words : List Text) :
    (Grammar.joined (.sequence (words.map .word))).Lossless := by
  refine .joined (.sequence fun part member => ?_)
  obtain ⟨w, _, rfl⟩ := List.mem_map.mp member
  exact .word w

theorem quotedBy_lossless (quote escaped : Text) :
    (quotedBy (.word quote) (.word escaped)).Lossless := by
  have piece : (firstOf [.word escaped, .not (.word quote)]).Lossless :=
    .choice false (.pair (.word escaped) (.not _))
  exact .joined (.sequence (.cons (.word quote) (.pair (.joined (.many piece)) (.word quote))))

theorem lineComment_lossless : lineComment.Lossless := by
  have ending : (firstOf [.skip .endOfText, newline]).Lossless :=
    .choice false (.pair .skip_endOfText (.word _))
  have start : lineStart.Lossless := mark_lossless ["/", "/"]
  exact .joined (.sequence (.cons start (.pair (.joined (.many (.not _))) ending)))

theorem blockComment_lossless : blockComment.Lossless := by
  have start : blockStart.Lossless := mark_lossless ["/", "*"]
  have close : blockEnd.Lossless := mark_lossless ["*", "/"]
  refine .joined (.choice false (.pair (.word _) (.sequence ?_)))
  exact .cons start (.cons (.skip_peek _) (.pair (.many (.not _)) close))

theorem filler_lossless : filler.Lossless := by
  refine .joined (.many (.choice false (.cons (quotedBy_lossless _ _) ?_)))
  refine .cons (quotedBy_lossless _ _) (.cons lineComment_lossless ?_)
  exact .pair blockComment_lossless (.not _)

end Comment

namespace Literal

open Grammar

theorem identifier_lossless : identifier.Lossless :=
  .joined (.sequence (.pair (.oneOf _) (.many (.oneOf _))))

theorem digits_lossless : digits.Lossless := .joined (.oneOrMore (.oneOf _))

theorem exponent_lossless : exponent.Lossless :=
  .sequence (.cons (.oneOf _) (.pair (.optional (.oneOf _)) digits_lossless))

theorem fraction_lossless : fraction.Lossless := by
  have behind : (Grammar.sequence [".", digits]).Lossless :=
    .sequence (.pair (.word _) digits_lossless)
  have around : (Grammar.sequence [digits, ".", optional digits]).Lossless :=
    .sequence (.cons digits_lossless (.pair (.word _) (.optional digits_lossless)))
  exact .choice false (.pair around behind)

theorem floatText_lossless : floatText.Lossless := by
  have withPoint : (Grammar.sequence [fraction, optional exponent]).Lossless :=
    .sequence (.pair fraction_lossless (.optional exponent_lossless))
  have withExponent : (Grammar.sequence [digits, exponent]).Lossless :=
    .sequence (.pair digits_lossless exponent_lossless)
  have number := Lossless.choice false (.pair withPoint withExponent)
  exact .joined (.sequence (.pair (.optional (.oneOf _)) number))

end Literal

theorem Grammar.Lossless.parse_spells {g : Grammar} (lossless : g.Lossless) {defs : Definitions}
    {body : Body} {i : Nat} {r : Result} (ends : (g.parse (body.cursor i) defs).outcome = .done r)
    (matched : r.succeeded = true) : r.value.Spells r.matched := by
  rcases g.parse_sound defs body i with unsettled | ⟨a, meaning, yields⟩
  · exact absurd (ends.symm.trans unsettled) nofun
  · have same : Outcome.done r = a.outcome body i := ends.symm.trans yields
    cases a with
    | raised fault => cases same
    | failed e =>
        cases same
        simp at matched
    | matched value j =>
        cases same
        rw [Result.matched_eq]
        exact lossless.spelled defs body.text i j value meaning

/-- A match of a lossless grammar either has no payload and takes no text, or its payload flattens
to the text that was matched. -/
theorem lossless_payload_is_text (defs : Definitions) :
    (∀ g : Grammar, g.Lossless → ∀ (body : Body) (i : Nat) (r : Result),
      (g.parse (body.cursor i) defs).outcome = .done r → r.succeeded = true →
      (r.value.present = false ∧ r.matched = []) ∨
        (r.value.present = true ∧ r.value.value.flatten = .ok r.matched)) ∧
    ∀ g ∈ [Comment.singleQuoted, Comment.doubleQuoted, Comment.lineComment, Comment.blockComment,
        Comment.filler, Literal.identifier, Literal.digits, Literal.floatText], g.Lossless := by
  constructor
  · intro g lossless body i r ends matched
    have spells := lossless.parse_spells ends matched
    generalize r.value = value at spells ⊢
    obtain ⟨present, payload⟩ := value
    cases present with
    | false => exact .inl ⟨rfl, (Except.ok.inj spells).symm⟩
    | true => exact .inr ⟨rfl, Maybe.spells_just.mp spells⟩
  · intro g member
    simp only [List.mem_cons, List.not_mem_nil, or_false] at member
    rcases member with rfl | rfl | rfl | rfl | rfl | rfl | rfl | rfl
    · exact Comment.quotedBy_lossless _ _
    · exact Comment.quotedBy_lossless _ _
    · exact Comment.lineComment_lossless
    · exact Comment.blockComment_lossless
    · exact Comment.filler_lossless
    · exact Literal.identifier_lossless
    · exact Literal.digits_lossless
    · exact Literal.floatText_lossless

/-- A bracket and a list of numbers with its separators, before a bracket that is left there. -/
theorem lossless_payload_is_text_numbers :
    ∃ (g : Grammar) (body : Body) (r : Result),
      g = .sequence ["(", Grammar.separatedBy Literal.digits ",", .skip (.peek ")")] ∧
      body = { text := "f(1,23)", name := [] } ∧ g.Lossless ∧
      (g.parse (body.cursor 1)).outcome = .done r ∧ r.succeeded = true ∧
      r.value = .just (.list [.text "(", .list [.text "1", .text ",", .text "23"]]) ∧
      r.matched = "(1,23" ∧ r.value.value.flatten = .ok r.matched := by
  let g : Grammar :=
    .sequence ["(", Grammar.separatedBy Literal.digits ",", .skip (.peek ")")]
  let body : Body := { text := "f(1,23)", name := [] }
  let value : Maybe := .just (.list [.text "(", .list [.text "1", .text ",", .text "23"]])
  let r : Result := .success value (body.cursor 6) 1
  obtain ⟨spelled, instances⟩ := lossless_payload_is_text []
  have number : Literal.digits.Lossless := instances _ (by simp)
  have numbers : (Grammar.separatedBy Literal.digits ",").Lossless :=
    .separatedBy number (.word _)
  have lossless : g.Lossless := .sequence (.cons (.word _) (.pair numbers (.skip_peek _)))
  have run : (g.parse (body.cursor 1)).outcome = .done r := by cbv
  rcases spelled g lossless body 1 r run rfl with ⟨absent, _⟩ | ⟨_, flat⟩
  · cases absent
  · exact ⟨g, body, r, rfl, rfl, lossless, run, rfl, rfl, rfl, flat⟩

end Descent
