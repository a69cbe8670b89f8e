import Descent.Comment.Grammar
import Descent.Proofs.Production

/-! What filler is made of: strings, comments that document nothing, and single characters. -/

namespace Descent.Comment

open Grammar

variable {defs : Definitions} {text : Text} {i j k : Nat}

theorem mark_matched (words : List Text) (inhabited : ∀ w ∈ words, w ≠ [])
    (found : text.hasAt words.flatten i = true) :
    Meaning defs text (joined (.sequence (words.map .word))) i
      (.matched (.just (.text words.flatten)) (i + words.flatten.length)) :=
  (Meaning.words_matched inhabited found).joined (Payload.flatten_texts words)

theorem mark_failed (words : List Text) (inhabited : ∀ w ∈ words, w ≠ [])
    (missing : text.hasAt words.flatten i = false) :
    ∃ e, Meaning defs text (joined (.sequence (words.map .word))) i (.failed e) := by
  obtain ⟨e, fails⟩ : ∃ e, Meaning defs text (.sequence (words.map .word)) i (.failed e) :=
    Meaning.words_failed inhabited missing
  exact ⟨e, .map_stop fails rfl⟩

theorem hasAt_of_mark (words : List Text) (inhabited : ∀ w ∈ words, w ≠ []) {value : Maybe}
    (meaning : Meaning defs text (joined (.sequence (words.map .word))) i (.matched value j)) :
    text.hasAt words.flatten i = true ∧ j = i + words.flatten.length := by
  cases found : text.hasAt words.flatten i with
  | false =>
      have fails : ∃ e, Meaning defs text (joined (.sequence (words.map .word))) i (.failed e) :=
        mark_failed words inhabited found
      obtain ⟨e, fails⟩ := fails
      exact absurd (meaning.unique fails) nofun
  | true =>
      have same := meaning.unique (mark_matched words inhabited found)
      exact ⟨rfl, (Answer.matched.inj same).2⟩

theorem mark_produces (words : List Text) :
    Produces defs text Maybe.IsText (joined (.sequence (words.map .word))) := by
  apply Produces.joined
  apply Produces.sequence
  intro part member
  obtain ⟨w, _, rfl⟩ := List.mem_map.mp member
  exact (Produces.word w).mono fun _ text => text.textual

theorem lineStart_matched (found : text.hasAt "//" i = true) :
    Meaning defs text lineStart i (.matched (.just (.text "//")) (i + 2)) :=
  mark_matched ["/", "/"] (by decide) found

theorem lineStart_failed (missing : text.hasAt "//" i = false) :
    ∃ e, Meaning defs text lineStart i (.failed e) :=
  mark_failed ["/", "/"] (by decide) missing

theorem blockStart_matched (found : text.hasAt "/*" i = true) :
    Meaning defs text blockStart i (.matched (.just (.text "/*")) (i + 2)) :=
  mark_matched ["/", "*"] (by decide) found

theorem blockStart_failed (missing : text.hasAt "/*" i = false) :
    ∃ e, Meaning defs text blockStart i (.failed e) :=
  mark_failed ["/", "*"] (by decide) missing

theorem blockStart_produces : Produces defs text Maybe.IsText blockStart :=
  mark_produces ["/", "*"]

theorem blockEnd_matched (found : text.hasAt "*/" i = true) :
    Meaning defs text blockEnd i (.matched (.just (.text "*/")) (i + 2)) :=
  mark_matched ["*", "/"] (by decide) found

theorem blockEnd_failed (missing : text.hasAt "*/" i = false) :
    ∃ e, Meaning defs text blockEnd i (.failed e) :=
  mark_failed ["*", "/"] (by decide) missing

theorem blockEnd_produces : Produces defs text Maybe.IsText blockEnd :=
  mark_produces ["*", "/"]

theorem documentationStart_matched (found : text.hasAt "/**" i = true) :
    Meaning defs text documentationStart i (.matched (.just (.text "/**")) (i + 3)) :=
  mark_matched ["/", "*", "*"] (by decide) found

def stringUnit (quote escaped : Text) : Grammar := firstOf [.word escaped, .not (.word quote)]

theorem stringUnit_produces (quote escaped : Text) :
    Produces defs text Maybe.IsText (stringUnit quote escaped) := by
  apply Produces.choice false
  intro part member
  rcases List.mem_pair.mp member with rfl | rfl
  · exact .word escaped
  · exact (Produces.word quote).not

theorem quotedBy_produces (quote escaped : Text) :
    Produces defs text Maybe.IsText (quotedBy (.word quote) (.word escaped)) := by
  have quoteText : Produces defs text Maybe.IsText (.word quote) := .word quote
  have inner : Produces defs text Maybe.IsText (joined (.many (stringUnit quote escaped))) :=
    .joined (stringUnit_produces quote escaped).many_texts
  apply Produces.joined
  apply Produces.sequence
  intro part member
  rcases List.mem_cons.mp member with rfl | member
  · exact quoteText.mono fun _ text => text.textual
  · rcases List.mem_pair.mp member with rfl | rfl
    · exact inner.mono fun _ text => text.textual
    · exact quoteText.mono fun _ text => text.textual

theorem quotedBy_advances {quote escaped : Text} {value : Maybe} (inhabited : quote ≠ [])
    (meaning : Meaning defs text (quotedBy (.word quote) (.word escaped)) i
      (.matched value j)) : text.hasAt quote i = true ∧ i < j := by
  obtain ⟨inner, whole⟩ := meaning.map_matched
  obtain ⟨first, k, values, begins, later, _⟩ := whole.sequence_cons_matched
  obtain ⟨found, rfl⟩ := begins.hasAt_of_word inhabited
  have long : 0 < quote.length := List.length_pos_iff.mpr inhabited
  have low := later.le_stop
  exact ⟨found, by omega⟩

theorem quotedBy_failed {quote escaped : Text} (missing : text.hasAt quote i = false) :
    ∃ e, Meaning defs text (quotedBy (.word quote) (.word escaped)) i (.failed e) :=
  ⟨i, .map_stop (.sequence_stop (Meaning.word_failed missing) rfl) rfl⟩

def lineEnd (text : Text) (i : Nat) : Nat :=
  match text.next? "\n" i with
  | some k => k + 1
  | none => text.length

theorem lt_lineEnd (found : text.hasAt "//" i = true) : i < lineEnd text (i + 2) := by
  have inside : i + 2 ≤ text.length := Text.length_le_of_hasAt found (by decide)
  rw [lineEnd]
  cases next : text.next? "\n" (i + 2) with
  | some k =>
      have low := ((Text.next?_eq_some_iff (by decide)).mp next).1
      exact Nat.lt_succ_of_le (by omega)
  | none => exact Nat.lt_of_lt_of_le (by omega) inside

theorem lineComment_matched (found : text.hasAt "//" i = true) :
    ∃ t, Meaning defs text lineComment i (.matched (.just (.text t)) (lineEnd text (i + 2))) := by
  have start : Meaning defs text lineStart i _ := lineStart_matched found
  have inside : i + 2 ≤ text.length := Text.length_le_of_hasAt found (by decide)
  rw [lineEnd]
  cases next : text.next? "\n" (i + 2) with
  | some k =>
      obtain ⟨low, here, before⟩ := (Text.next?_eq_some_iff (by decide)).mp next
      have high : k + 1 ≤ text.length := Text.length_le_of_hasAt here (by decide)
      have ending : Meaning defs text newline k (.matched (.just (.text "\n")) (k + 1)) :=
        Meaning.word_matched (by decide) here
      have line : Meaning defs text (joined (.many (.not newline))) (i + 2) _ :=
        (Meaning.many_not low (by omega)
          (fun m ahead below => ⟨m, Meaning.word_failed (before m ahead below)⟩)
          (.not_matched ending)).joined (Payload.flatten_characters _)
      have inner : Meaning defs text .endOfText k (.failed k) := by
        have meaning : Meaning defs text .endOfText k _ := .endOfText k
        rwa [Answer.endOfText, if_neg (by omega)] at meaning
      have ends : Meaning defs text (firstOf [.skip .endOfText, newline]) k _ :=
        .choice_later (.skip_stop inner rfl) (.choice_first ending rfl) rfl
      exact ⟨_, (Meaning.sequence_next start (.sequence_next line
        ends.sequence_singleton)).joined (Payload.flatten_texts ["//", _, "\n"])⟩
  | none =>
      have before := (Text.next?_eq_none_iff (by decide)).mp next
      have line : Meaning defs text (joined (.many (.not newline))) (i + 2) _ :=
        (Meaning.many_not inside (Nat.le_refl _)
          (fun m ahead _ => ⟨m, Meaning.word_failed (before m ahead)⟩)
          (Meaning.not_end (Meaning.word_failed (before _ inside)) (Nat.le_refl _))).joined
          (Payload.flatten_characters _)
      have inner : Meaning defs text .endOfText text.length
          (.matched (.just (.text [])) text.length) := by
        have meaning : Meaning defs text .endOfText text.length _ := .endOfText text.length
        rwa [Answer.endOfText, if_pos rfl] at meaning
      have ends : Meaning defs text (firstOf [.skip .endOfText, newline]) text.length _ :=
        .choice_first (.skip_matched inner) rfl
      exact ⟨_, (Meaning.sequence_next start (.sequence_next line
        (.sequence_next ends (.sequence_nil _)))).joined (Payload.flatten_texts ["//", _])⟩

theorem lineComment_failed (missing : text.hasAt "//" i = false) :
    ∃ e, Meaning defs text lineComment i (.failed e) := by
  have start : ∃ e, Meaning defs text lineStart i (.failed e) := lineStart_failed missing
  obtain ⟨e, fails⟩ := start
  exact ⟨e, .map_stop (.sequence_stop fails rfl) rfl⟩

def plainEnd? (text : Text) (i : Nat) : Option Nat :=
  match text.next? "*/" (i + 2) with
  | some k => if text.hasAt "/**/" i || !text.hasAt "/**" i then some (k + 2) else none
  | none => none

theorem hasAt_documentationStart (text : Text) (i : Nat) :
    text.hasAt "/**" i = true ↔ text.hasAt "/*" i = true ∧ text.hasAt "*" (i + 2) = true :=
  Text.hasAt_append text "/*" "*" i

theorem hasAt_empty (text : Text) (i : Nat) :
    text.hasAt "/**/" i = true ↔ text.hasAt "/*" i = true ∧ text.hasAt "*/" (i + 2) = true :=
  Text.hasAt_append text "/*" "*/" i

theorem plainEnd?_eq_some_iff (text : Text) (i j : Nat) :
    plainEnd? text i = some j ↔ ∃ k, text.next? "*/" (i + 2) = some k ∧ j = k + 2 ∧
      (text.hasAt "/**/" i = true ∨ text.hasAt "/**" i = false) := by
  rw [plainEnd?]
  cases next : text.next? "*/" (i + 2) with
  | none => simp
  | some k =>
      cases text.hasAt "/**/" i <;> cases text.hasAt "/**" i <;> simp [eq_comm]

theorem plainEnd?_eq_none (starred : text.hasAt "/**" i = true)
    (longer : text.hasAt "/**/" i = false) : plainEnd? text i = none := by
  rw [Option.eq_none_iff_forall_ne_some]
  intro stop plain
  obtain ⟨_, _, _, kind⟩ := (plainEnd?_eq_some_iff text i stop).mp plain
  simp [starred, longer] at kind

theorem lt_plainEnd (ends : plainEnd? text i = some j) : i < j := by
  obtain ⟨k, next, rfl, _⟩ := (plainEnd?_eq_some_iff text i j).mp ends
  have low := ((Text.next?_eq_some_iff (by decide)).mp next).1
  omega

theorem blockComment_matched (found : text.hasAt "/*" i = true)
    (ends : plainEnd? text i = some j) :
    ∃ t, Meaning defs text blockComment i (.matched (.just (.text t)) j) := by
  obtain ⟨k, next, rfl, kind⟩ := (plainEnd?_eq_some_iff text i j).mp ends
  obtain ⟨low, here, before⟩ := (Text.next?_eq_some_iff (by decide)).mp next
  have high : k + 2 ≤ text.length := Text.length_le_of_hasAt here (by decide)
  cases empty : text.hasAt "/**/" i with
  | true =>
      have close := ((hasAt_empty text i).mp empty).2
      have same : k = i + 2 := by
        by_contra other
        rw [before (i + 2) (Nat.le_refl _) (by omega)] at close
        exact Bool.false_ne_true close
      have whole : Meaning defs text (.word "/**/") i _ :=
        Meaning.word_matched (by decide) empty
      rw [same]
      exact ⟨_, Meaning.joined (.choice_first whole rfl) (Payload.flatten_text _)⟩
  | false =>
      have plain : text.hasAt "/**" i = false := kind.resolve_left (by simp [empty])
      have starless : text.hasAt "*" (i + 2) = false := by
        rw [Bool.eq_false_iff]
        intro starred
        rw [(hasAt_documentationStart text i).mpr ⟨found, starred⟩] at plain
        exact Bool.false_ne_true plain.symm
      have third : Meaning defs text (.not star) (i + 2) _ :=
        Meaning.not_next (Meaning.word_failed starless)
          (List.getElem?_eq_getElem (by omega : i + 2 < text.length))
      have inner : Meaning defs text (.many (.not blockEnd)) (i + 2) _ :=
        Meaning.many_not low (by omega)
          (fun m ahead below => blockEnd_failed (before m ahead below))
          (.not_matched (blockEnd_matched here))
      have start : Meaning defs text blockStart i _ := blockStart_matched found
      have whole := start.sequence_next
        (.sequence_next (.skip_matched (.peek_matched third))
          (.sequence_next inner (blockEnd_matched here).sequence_singleton))
      have flat := Payload.flatten_cons (Payload.flatten_text "/*")
        (Payload.flatten_cons
          (Payload.flatten_characters ((text.drop (i + 2)).take (k - (i + 2))))
          (Payload.flatten_cons (Payload.flatten_text "*/") Payload.flatten_nil))
      have empty : Meaning defs text (.word "/**/") i (.failed i) := Meaning.word_failed empty
      exact ⟨_, Meaning.joined (.choice_later empty (.choice_first whole rfl) rfl) flat⟩

theorem blockComment_produces : Produces defs text Maybe.IsText blockComment := by
  have star : Produces defs text Maybe.IsText star := .word "*"
  have inner : Produces defs text Maybe.IsText (.not blockEnd) := blockEnd_produces.not
  apply Produces.joined
  apply Produces.choice false
  intro part member
  rcases List.mem_pair.mp member with rfl | rfl
  · exact (Produces.word "/**/").mono fun _ text => text.hasText
  · apply Produces.sequence
    intro part member
    simp only [List.mem_cons, List.not_mem_nil, or_false] at member
    rcases member with rfl | rfl | rfl | rfl
    · exact blockStart_produces.mono fun _ text => text.textual
    · exact star.not.peek.skip_textual
    · exact inner.many_texts.mono fun _ text => text.textual
    · exact blockEnd_produces.mono fun _ text => text.textual

theorem blockComment_needs {value : Maybe}
    (meaning : Meaning defs text blockComment i (.matched value j)) :
    text.hasAt "/*" i = true ∧ plainEnd? text i ≠ none := by
  have ended : ∀ k, i + 2 ≤ k → text.hasAt "*/" k = true →
      text.hasAt "/**/" i = true ∨ text.hasAt "/**" i = false → plainEnd? text i ≠ none := by
    intro k low here kind absent
    obtain ⟨m, next⟩ := Text.exists_next? (by decide) low here
    have there := (plainEnd?_eq_some_iff text i (m + 2)).mpr ⟨m, next, rfl, kind⟩
    exact absurd (absent.symm.trans there) nofun
  obtain ⟨inner, choice⟩ := meaning.map_matched
  obtain ⟨part, member, found⟩ := choice.choice_matched
  rcases List.mem_pair.mp member with rfl | rfl
  · have empty := (found.hasAt_of_word (by decide)).1
    obtain ⟨start, close⟩ := (hasAt_empty text i).mp empty
    exact ⟨start, ended (i + 2) (Nat.le_refl _) close (.inl empty)⟩
  · obtain ⟨_, k, _, start, rest, _⟩ := found.sequence_cons_matched
    obtain ⟨_, l, _, third, rest, _⟩ := rest.sequence_cons_matched
    obtain ⟨_, m, _, inside, rest, _⟩ := rest.sequence_cons_matched
    obtain ⟨_, n, _, close, _, _⟩ := rest.sequence_cons_matched
    obtain ⟨found, rfl⟩ := hasAt_of_mark ["/", "*"] (by decide) start
    obtain ⟨_, third⟩ := third.skip_matched_inner
    obtain ⟨rfl, _, third⟩ := third.peek_matched_inner
    obtain ⟨_, starless⟩ := third.not_matched_inner
    obtain ⟨close, _⟩ := hasAt_of_mark ["*", "/"] (by decide) close
    refine ⟨found, ended m inside.le_stop close (.inr ?_)⟩
    rw [Bool.eq_false_iff]
    intro starred
    have third : Meaning defs text star (i + 2) _ :=
      Meaning.word_matched (by decide) ((hasAt_documentationStart text i).mp starred).2
    exact absurd (third.unique starless) nofun

theorem blockComment_failed (missing : text.hasAt "/*" i = false ∨ plainEnd? text i = none) :
    ∃ e, Meaning defs text blockComment i (.failed e) := by
  apply blockComment_produces.failed_of_not_matched
  intro value j meaning
  obtain ⟨start, ends⟩ := blockComment_needs meaning
  rcases missing with missing | missing
  · rw [start] at missing
    exact absurd missing nofun
  · exact ends missing

theorem commentStart_failed (noLine : text.hasAt "//" i = false)
    (noBlock : text.hasAt "/*" i = false) :
    ∃ e, Meaning defs text commentStart i (.failed e) := by
  apply Meaning.choice_failed_of_all false
  intro part member
  rcases List.mem_pair.mp member with rfl | rfl
  · exact lineStart_failed noLine
  · exact blockStart_failed noBlock

def piece : Grammar :=
  firstOf [singleQuoted, doubleQuoted, lineComment, blockComment, .not commentStart]

end Descent.Comment
