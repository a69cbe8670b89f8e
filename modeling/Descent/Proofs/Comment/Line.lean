import Descent.Proofs.Comment.Filler

/-! Lines of a documentation comment, with and without the banners they start with. -/

namespace Descent.Comment

open Grammar

def dropSpace : Text → Text
  | [] => []
  | c :: rest => if c = ' ' then rest else c :: rest

/-- The line without the blanks, the star and the space at its front, if it has the star. -/
def withoutBanner (line : Text) : Text :=
  match line.dropWhile (· ∈ Charset.blank) with
  | [] => line
  | c :: rest => if c = '*' then dropSpace rest else line

/-- What stands behind the front of a line has no part in its banner, if it is no part of any. -/
theorem withoutBanner_append_cons (line : Text) {x : CodePoint} (visible : x ∉ Charset.blank)
    (other : x ≠ '*') (rest : Text) :
    withoutBanner (line ++ x :: rest) = withoutBanner line ++ x :: rest := by
  have noSpace : x ≠ ' ' := by
    rintro rfl
    exact visible (by decide)
  rw [withoutBanner, withoutBanner, List.dropWhile_append]
  cases line.dropWhile (· ∈ Charset.blank) with
  | nil => simp [visible, other]
  | cons c tail =>
      by_cases star : c = '*'
      · cases tail with
        | nil => simp [star, dropSpace, noSpace]
        | cons d tail => by_cases space : d = ' ' <;> simp [star, dropSpace, space]
      · simp [star]

/-- From `i` up to a newline or the end of a comment, whichever comes first. -/
structure LineAt (text : Text) (i : Nat) (line : Text) : Prop where
  here : text.hasAt line i = true
  unbroken : ∀ m, i ≤ m → m < i + line.length → text.hasAt "\n" m = false
  unclosed : ∀ m, i ≤ m → m < i + line.length → text.hasAt "*/" m = false
  ends : text.hasAt "\n" (i + line.length) = true ∨ text.hasAt "*/" (i + line.length) = true

variable {defs : Definitions} {text line front back : Text} {x : CodePoint} {i j k : Nat}

theorem LineAt.drop (stands : LineAt text i (front ++ back)) :
    LineAt text (i + front.length) back := by
  have size : i + (front ++ back).length = i + front.length + back.length := by
    rw [List.length_append]
    omega
  refine ⟨((Text.hasAt_append text front back i).mp stands.here).2, ?_, ?_, size ▸ stands.ends⟩
  · exact fun m low high => stands.unbroken m (by omega) (by omega)
  · exact fun m low high => stands.unclosed m (by omega) (by omega)

theorem LineAt.tail (stands : LineAt text i (x :: back)) : LineAt text (i + 1) back := by
  have whole : LineAt text i ([x] ++ back) := stands
  exact whole.drop

theorem LineAt.head (stands : LineAt text i (x :: back)) : text[i]? = some x :=
  ((Text.hasAt_cons text back x i).mp stands.here).1

theorem LineAt.next (stands : LineAt text i line) :
    text[i + line.length]? = some ('\n' : CodePoint) ∨
      text[i + line.length]? = some ('*' : CodePoint) ∧
        text.hasAt "*/" (i + line.length) = true := by
  rcases stands.ends with newline | close
  · exact .inl ((Text.hasAt_singleton text '\n' _).mp newline)
  · exact .inr ⟨((Text.hasAt_cons text "/" '*' _).mp close).1, close⟩

theorem LineAt.next_of_empty (stands : LineAt text i []) :
    text[i]? = some ('\n' : CodePoint) ∨
      text[i]? = some ('*' : CodePoint) ∧ text.hasAt "*/" i = true := stands.next

theorem LineAt.exists_head (stands : LineAt text i line) : ∃ x, text[i]? = some x := by
  cases line with
  | nil =>
      rcases stands.next_of_empty with newline | ⟨star, _⟩
      · exact ⟨_, newline⟩
      · exact ⟨_, star⟩
  | cons x line => exact ⟨x, stands.head⟩

theorem optionalSpace_matched (found : text.hasAt line i = true)
    (stops : text.hasAt " " (i + line.length) = false) :
    ∃ front value, line = front ++ dropSpace line ∧
      Meaning defs text (optional " ") i (.matched value (i + front.length)) := by
  have absent : text.hasAt " " i = false →
      Meaning defs text (optional " ") i (.matched .nothing i) := by
    intro missing
    exact .option_none (Meaning.word_failed missing)
  cases line with
  | nil => exact ⟨[], _, rfl, absent stops⟩
  | cons c rest =>
      have here := ((Text.hasAt_cons text rest c i).mp found).1
      by_cases same : c = ' '
      · subst same
        have space : Meaning defs text (.word " ") i _ :=
          Meaning.word_matched (by decide) ((Text.hasAt_singleton text ' ' i).mpr here)
        exact ⟨[' '], _, rfl, .option_some space rfl⟩
      · refine ⟨[], _, (if_neg same).symm, absent ?_⟩
        apply (Text.hasAt_singleton_false text ' ' i).mpr
        intro there
        exact same (Option.some.inj (here.symm.trans there))

theorem innerStar_matched (stands : LineAt text i (('*' : CodePoint) :: back)) :
    ∃ t, Meaning defs text innerStar i (.matched (.just (.text t)) (i + 1)) := by
  have first : Meaning defs text star i _ :=
    Meaning.word_matched (by decide) ((Text.hasAt_singleton text '*' i).mpr stands.head)
  have free : text.hasAt "/" (i + 1) = false := by
    rw [Bool.eq_false_iff]
    intro slash
    have close : text.hasAt "*/" i = true :=
      (Text.hasAt_cons text "/" '*' i).mpr ⟨stands.head, slash⟩
    rw [stands.unclosed i (Nat.le_refl i) (by simp)] at close
    exact Bool.false_ne_true close
  obtain ⟨x, next⟩ := stands.tail.exists_head
  have ahead : Meaning defs text (.skip (.peek (.not slash))) (i + 1) _ :=
    .skip_matched (.peek_matched (Meaning.not_next (Meaning.word_failed free) next))
  exact ⟨_, (Meaning.sequence_next first (.sequence_next ahead (.sequence_nil _))).joined
    (Payload.flatten_texts ["*"])⟩

theorem innerStar_failed (missing : text.hasAt "*" i = false ∨ text.hasAt "*/" i = true) :
    ∃ e, Meaning defs text innerStar i (.failed e) := by
  rcases missing with missing | close
  · exact ⟨i, .map_stop (.sequence_stop (Meaning.word_failed missing) rfl) rfl⟩
  · obtain ⟨here, after⟩ := (Text.hasAt_cons text "/" '*' i).mp close
    have first : Meaning defs text star i _ :=
      Meaning.word_matched (by decide) ((Text.hasAt_singleton text '*' i).mpr here)
    have second : Meaning defs text slash (i + 1) _ := Meaning.word_matched (by decide) after
    have ahead : Meaning defs text (.skip (.peek (.not slash))) (i + 1) (.failed (i + 1)) :=
      .skip_stop (.peek_stop (.not_matched second) rfl) rfl
    exact ⟨_, .map_stop (.sequence_next first (.sequence_stop ahead rfl)) rfl⟩

theorem takeWhile_blank (line : Text) :
    ∀ x ∈ line.takeWhile (· ∈ Charset.blank), x ∈ Charset.blank := by
  intro x member
  simpa using List.all_eq_true.mp List.all_takeWhile x member

theorem indent_matched (found : text.hasAt front i = true)
    (blank : ∀ y ∈ front, y ∈ Charset.blank) (here : text[i + front.length]? = some x)
    (visible : x ∉ Charset.blank) :
    Meaning defs text (.many (.oneOf Charset.blank)) i
      (.matched (.just (.list (Payload.characters front))) (i + front.length)) := by
  apply Meaning.many_oneOf found blank
  intro y there
  have same : x = y := Option.some.inj (here.symm.trans there)
  exact same ▸ visible

theorem banner_matched (stands : LineAt text i line)
    (starred : line.dropWhile (· ∈ Charset.blank) = ('*' : CodePoint) :: back) :
    ∃ front value, line = front ++ dropSpace back ∧
      Meaning defs text banner i (.matched value (i + front.length)) := by
  generalize blanks : line.takeWhile (· ∈ Charset.blank) = indent
  have whole : line = indent ++ ('*' : CodePoint) :: back := by
    rw [← blanks, ← starred, List.takeWhile_append_dropWhile]
  have blank : ∀ x ∈ indent, x ∈ Charset.blank := blanks ▸ takeWhile_blank line
  subst whole
  have atStar : LineAt text (i + indent.length) (('*' : CodePoint) :: back) := stands.drop
  have indented : Meaning defs text (.many (.oneOf Charset.blank)) i _ :=
    indent_matched ((Text.hasAt_append text indent _ i).mp stands.here).1 blank atStar.head
      (by decide)
  obtain ⟨t, mark⟩ : ∃ t, Meaning defs text innerStar (i + indent.length)
      (.matched (.just (.text t)) (i + indent.length + 1)) := innerStar_matched atStar
  have after : text.hasAt " " (i + indent.length + 1 + back.length) = false := by
    apply (Text.hasAt_singleton_false text ' ' _).mpr
    intro here
    rcases atStar.tail.next with next | ⟨next, _⟩
    · exact absurd (here.symm.trans next) (by decide)
    · exact absurd (here.symm.trans next) (by decide)
  obtain ⟨space, value, same, spaced⟩ : ∃ front value, back = front ++ dropSpace back ∧
      Meaning defs text (optional " ") (i + indent.length + 1)
        (.matched value (i + indent.length + 1 + front.length)) :=
    optionalSpace_matched atStar.tail.here after
  have meaning : Meaning defs text banner i _ :=
    .sequence_next indented (.sequence_next
      (.sequence_next mark (.sequence_next spaced (.sequence_nil _))) (.sequence_nil _))
  have size : i + indent.length + 1 + space.length =
      i + (indent ++ ('*' : CodePoint) :: space).length := by
    rw [List.length_append, List.length_cons]
    omega
  rw [size] at meaning
  refine ⟨indent ++ ('*' : CodePoint) :: space, _, ?_, meaning⟩
  rw [List.append_assoc, List.cons_append, ← same]

theorem banner_failed (stands : LineAt text i line)
    (starless : ∀ rest, line.dropWhile (· ∈ Charset.blank) ≠ ('*' : CodePoint) :: rest) :
    ∃ e, Meaning defs text banner i (.failed e) := by
  generalize blanks : line.takeWhile (· ∈ Charset.blank) = indent
  generalize rest : line.dropWhile (· ∈ Charset.blank) = core at starless
  have whole : line = indent ++ core := by
    rw [← blanks, ← rest, List.takeWhile_append_dropWhile]
  have blank : ∀ x ∈ indent, x ∈ Charset.blank := blanks ▸ takeWhile_blank line
  have stop := List.head?_dropWhile_not (fun x => decide (x ∈ Charset.blank)) line
  rw [rest] at stop
  subst whole
  have atCore : LineAt text (i + indent.length) core := stands.drop
  obtain ⟨x, here, visible, kind⟩ : ∃ x, text[i + indent.length]? = some x ∧
      x ∉ Charset.blank ∧ (x ≠ '*' ∨ text.hasAt "*/" (i + indent.length) = true) := by
    cases core with
    | nil =>
        rcases atCore.next_of_empty with next | ⟨next, close⟩
        · exact ⟨_, next, by decide, .inl (by decide)⟩
        · exact ⟨_, next, by decide, .inr close⟩
    | cons c core =>
        refine ⟨c, atCore.head, by simpa using stop, .inl ?_⟩
        rintro rfl
        exact starless core rfl
  have indented : Meaning defs text (.many (.oneOf Charset.blank)) i _ :=
    indent_matched ((Text.hasAt_append text indent _ i).mp stands.here).1 blank here visible
  obtain ⟨e, fails⟩ : ∃ e, Meaning defs text innerStar (i + indent.length) (.failed e) := by
    refine innerStar_failed (kind.imp_left fun other => ?_)
    apply (Text.hasAt_singleton_false text '*' _).mpr
    intro there
    exact other (Option.some.inj (here.symm.trans there))
  exact ⟨e, .sequence_next indented (.sequence_stop (.sequence_stop fails rfl) rfl)⟩

theorem optionalBanner_matched (stands : LineAt text i line) :
    ∃ front, line = front ++ withoutBanner line ∧
      Meaning defs text (optional (.skip banner)) i (.matched .nothing (i + front.length)) := by
  have absent : (∃ e, Meaning defs text banner i (.failed e)) →
      Meaning defs text (optional (.skip banner)) i (.matched .nothing i) := by
    rintro ⟨e, fails⟩
    exact .option_none (.skip_stop fails rfl)
  rw [withoutBanner]
  split
  · rename_i blank
    refine ⟨[], rfl, absent (banner_failed stands ?_)⟩
    rw [blank]
    exact nofun
  · rename_i c rest starts
    by_cases same : c = '*'
    · subst same
      obtain ⟨front, value, whole, meaning⟩ : ∃ front value, line = front ++ dropSpace rest ∧
          Meaning defs text banner i (.matched value (i + front.length)) :=
        banner_matched stands starts
      rw [if_pos rfl]
      exact ⟨front, whole, .option_some (.skip_matched meaning) rfl⟩
    · rw [if_neg same]
      refine ⟨[], rfl, absent (banner_failed stands ?_)⟩
      rw [starts]
      exact fun _ equal => same (List.cons.inj equal).1

def lineBreak : Grammar := firstOf [newline, blockEnd]

def lineText : Grammar :=
  joined (.sequence [oneOrMore (.not lineBreak), firstOf [newline, .skip (.peek blockEnd)]])

theorem newline_failed (close : text.hasAt "*/" i = true) :
    Meaning defs text newline i (.failed i) := by
  refine Meaning.word_failed ((Text.hasAt_singleton_false text '\n' i).mpr fun newline => ?_)
  have star := ((Text.hasAt_cons text "/" '*' i).mp close).1
  exact absurd (newline.symm.trans star) (by decide)

theorem lineBreak_matched
    (ends : text.hasAt "\n" i = true ∨ text.hasAt "*/" i = true) :
    ∃ value j, Meaning defs text lineBreak i (.matched value j) := by
  rcases ends with broken | close
  · have found : Meaning defs text newline i _ := Meaning.word_matched (by decide) broken
    exact ⟨_, _, .choice_first found rfl⟩
  · exact ⟨_, _, .choice_later (newline_failed close)
      (.choice_first (blockEnd_matched close) rfl) rfl⟩

theorem lineBreak_failed (unbroken : text.hasAt "\n" i = false)
    (unclosed : text.hasAt "*/" i = false) :
    ∃ e, Meaning defs text lineBreak i (.failed e) := by
  apply Meaning.choice_failed_of_all false
  intro part member
  rcases List.mem_pair.mp member with rfl | rfl
  · exact ⟨i, Meaning.word_failed unbroken⟩
  · exact blockEnd_failed unclosed

theorem LineAt.characters (stands : LineAt text i line) (inhabited : line ≠ []) :
    Meaning defs text (oneOrMore (.not lineBreak)) i
      (.matched (.just (.list (Payload.characters line))) (i + line.length)) := by
  have long : 0 < line.length := List.length_pos_iff.mpr inhabited
  have inside := Text.length_le_of_hasAt stands.here inhabited
  obtain ⟨value, j, ends⟩ : ∃ value j, Meaning defs text lineBreak (i + line.length)
      (.matched value j) := lineBreak_matched stands.ends
  have meaning : Meaning defs text (oneOrMore (.not lineBreak)) i _ :=
    Meaning.oneOrMore_not (by omega : i < i + line.length) inside
      (fun m low high => lineBreak_failed (stands.unbroken m low high)
        (stands.unclosed m low high)) (.not_matched ends)
  rwa [Nat.add_sub_cancel_left, Text.take_of_hasAt stands.here] at meaning

theorem lineText_newline (stands : LineAt text i line) (inhabited : line ≠ [])
    (broken : text.hasAt "\n" (i + line.length) = true) :
    Meaning defs text lineText i
      (.matched (.just (.text (line ++ "\n"))) (i + line.length + 1)) := by
  have ends : Meaning defs text newline (i + line.length) _ :=
    Meaning.word_matched (by decide) broken
  have ending : Meaning defs text (firstOf [newline, .skip (.peek blockEnd)])
      (i + line.length) _ := .choice_first ends rfl
  have flat := Payload.flatten_cons (Payload.flatten_characters line)
    (Payload.flatten_texts ["\n"])
  exact (Meaning.sequence_next (stands.characters inhabited)
    ending.sequence_singleton).joined flat

theorem lineText_close (stands : LineAt text i line) (inhabited : line ≠ [])
    (close : text.hasAt "*/" (i + line.length) = true) :
    Meaning defs text lineText i (.matched (.just (.text line)) (i + line.length)) := by
  have ending : Meaning defs text (firstOf [newline, .skip (.peek blockEnd)])
      (i + line.length) (.matched .nothing (i + line.length)) :=
    .choice_later (newline_failed close)
      (.choice_first (.skip_matched (.peek_matched (blockEnd_matched close))) rfl) rfl
  have flat := Payload.flatten_cons (Payload.flatten_characters line) Payload.flatten_nil
  rw [List.append_nil] at flat
  exact (Meaning.sequence_next (stands.characters inhabited)
    (.sequence_next ending (.sequence_nil _))).joined flat

theorem lineText_failed (ends : text.hasAt "\n" i = true ∨ text.hasAt "*/" i = true) :
    ∃ e, Meaning defs text lineText i (.failed e) := by
  obtain ⟨value, j, ends⟩ : ∃ value j, Meaning defs text lineBreak i (.matched value j) :=
    lineBreak_matched ends
  have nothing : Meaning defs text (oneOrMore (.not lineBreak)) i (.failed i) :=
    Meaning.oneOrMore_iff.mpr (.stop (.not_matched ends) rfl)
  exact ⟨i, .map_stop (.sequence_stop nothing rfl) rfl⟩

/-- What a line means is what is left of it behind its banner. -/
theorem documentationLine_matched {t : Text}
    (skipped : Meaning defs text (optional (.skip banner)) i (.matched .nothing j))
    (rest : Meaning defs text (firstOf [lineText, newline]) j (.matched (.just (.text t)) k)) :
    Meaning defs text documentationLine i (.matched (.just (.text t)) k) :=
  .map_done (.sequence_next skipped rest.sequence_singleton) rfl

theorem documentationLine_newline (stands : LineAt text i line)
    (broken : text.hasAt "\n" (i + line.length) = true) :
    Meaning defs text documentationLine i
      (.matched (.just (.text (withoutBanner line ++ "\n"))) (i + line.length + 1)) := by
  obtain ⟨front, whole, skipped⟩ : ∃ front, line = front ++ withoutBanner line ∧
      Meaning defs text (optional (.skip banner)) i (.matched .nothing (i + front.length)) :=
    optionalBanner_matched stands
  generalize withoutBanner line = rest at whole ⊢
  subst whole
  rw [List.length_append, ← Nat.add_assoc] at broken ⊢
  have atRest : LineAt text (i + front.length) rest := stands.drop
  apply documentationLine_matched skipped
  by_cases inhabited : rest = []
  · subst inhabited
    obtain ⟨e, fails⟩ : ∃ e, Meaning defs text lineText (i + front.length) (.failed e) :=
      lineText_failed (.inl broken)
    have ends : Meaning defs text newline (i + front.length) _ :=
      Meaning.word_matched (by decide) broken
    exact .choice_later fails (.choice_first ends rfl) rfl
  · exact .choice_first (lineText_newline atRest inhabited broken) rfl

theorem documentationLine_close (stands : LineAt text i line)
    (close : text.hasAt "*/" (i + line.length) = true) :
    if withoutBanner line = [] then ∃ e, Meaning defs text documentationLine i (.failed e)
    else Meaning defs text documentationLine i
      (.matched (.just (.text (withoutBanner line))) (i + line.length)) := by
  obtain ⟨front, whole, skipped⟩ : ∃ front, line = front ++ withoutBanner line ∧
      Meaning defs text (optional (.skip banner)) i (.matched .nothing (i + front.length)) :=
    optionalBanner_matched stands
  generalize withoutBanner line = rest at whole ⊢
  subst whole
  rw [List.length_append, ← Nat.add_assoc] at close ⊢
  have atRest : LineAt text (i + front.length) rest := stands.drop
  split
  · rename_i bare
    subst bare
    obtain ⟨e, fails⟩ : ∃ e, Meaning defs text lineText (i + front.length) (.failed e) :=
      lineText_failed (.inr close)
    have nothing : Meaning defs text (firstOf [lineText, newline]) (i + front.length) _ :=
      .choice_failed fails (.choice_failed (newline_failed close) (.choice_nil false _))
    exact ⟨_, .map_stop (.sequence_next skipped (.sequence_stop nothing rfl)) rfl⟩
  · rename_i inhabited
    exact documentationLine_matched skipped
      (.choice_first (lineText_close atRest inhabited close) rfl)

end Descent.Comment
