import Descent.Proofs.Comment.Line
import Descent.Proofs.Split

/-! What a documentation comment says, and when the end of its last line is lost. -/

namespace Descent

namespace Comment

open Grammar

def withoutBanners (content : Text) : Text :=
  Text.join "\n" ((Text.split '\n' content).map withoutBanner)

def lastLine (content : Text) : Text := (Text.split '\n' content).getLastD []

def IsBanner (line : Text) : Prop :=
  ∃ blanks : Text, (∀ x ∈ blanks, x ∈ Charset.blank) ∧
    (line = blanks ++ ("*" : Text) ∨ line = blanks ++ ("* " : Text))

structure ContentAt (text : Text) (i : Nat) (content : Text) : Prop where
  here : text.hasAt content i = true
  before : ∀ m, i ≤ m → m < i + content.length → text.hasAt "*/" m = false
  close : text.hasAt "*/" (i + content.length) = true

variable {defs : Definitions} {text content line front back : Text} {i j k : Nat}

theorem lastLine_of_not_mem (unbroken : ('\n' : CodePoint) ∉ line) : lastLine line = line := by
  rw [lastLine, Text.split_of_not_mem unbroken]
  rfl

theorem lastLine_append_cons (unbroken : ('\n' : CodePoint) ∉ line) (rest : Text) :
    lastLine (line ++ ('\n' : CodePoint) :: rest) = lastLine rest := by
  rw [lastLine, lastLine, Text.split_append_cons unbroken, List.getLastD_cons]
  cases pieces : Text.split '\n' rest with
  | nil => exact absurd pieces (Text.split_ne_nil _ _)
  | cons piece pieces => rw [List.getLastD_cons, List.getLastD_cons]

theorem withoutBanners_of_not_mem (unbroken : ('\n' : CodePoint) ∉ line) :
    withoutBanners line = withoutBanner line := by
  rw [withoutBanners, Text.split_of_not_mem unbroken]
  rfl

theorem withoutBanners_append_cons (unbroken : ('\n' : CodePoint) ∉ line) (rest : Text) :
    withoutBanners (line ++ ('\n' : CodePoint) :: rest) =
      withoutBanner line ++ ("\n" : Text) ++ withoutBanners rest := by
  have more : (Text.split '\n' rest).map withoutBanner ≠ [] :=
    fun none => Text.split_ne_nil _ _ (List.map_eq_nil_iff.mp none)
  rw [withoutBanners, Text.split_append_cons unbroken, List.map_cons,
    Text.join_cons _ _ more, withoutBanners]

/-- A banner is what leaves nothing of a line that has something. -/
theorem isBanner_iff (line : Text) : IsBanner line ↔ line ≠ [] ∧ withoutBanner line = [] := by
  constructor
  · rintro ⟨blanks, blank, same⟩
    have passed : ∀ rest : Text, (blanks ++ rest).dropWhile (· ∈ Charset.blank) =
        rest.dropWhile (· ∈ Charset.blank) :=
      fun rest => List.dropWhile_append_of_pos fun x member => by simpa using blank x member
    rcases same with rfl | rfl
    · refine ⟨by simp [Text.ofString], ?_⟩
      rw [withoutBanner, passed]
      rfl
    · refine ⟨by simp [Text.ofString], ?_⟩
      rw [withoutBanner, passed]
      rfl
  · rintro ⟨inhabited, bare⟩
    have whole : line.takeWhile (· ∈ Charset.blank) ++ line.dropWhile (· ∈ Charset.blank) = line :=
      List.takeWhile_append_dropWhile
    refine ⟨line.takeWhile (· ∈ Charset.blank), takeWhile_blank line, ?_⟩
    rw [withoutBanner] at bare
    split at bare
    · exact absurd bare inhabited
    · rename_i c rest starts
      rw [starts] at whole
      by_cases same : c = '*'
      · subst same
        rw [if_pos rfl] at bare
        cases rest with
        | nil => exact .inl whole.symm
        | cons x rest =>
            by_cases space : x = ' '
            · rw [dropSpace, if_pos space] at bare
              rw [space, bare] at whole
              exact .inr whole.symm
            · rw [dropSpace, if_neg space] at bare
              exact absurd bare (List.cons_ne_nil _ _)
      · rw [if_neg same] at bare
        exact absurd bare inhabited

theorem ContentAt.drop (stands : ContentAt text i (front ++ back)) :
    ContentAt text (i + front.length) back := by
  have size : i + (front ++ back).length = i + front.length + back.length := by
    rw [List.length_append]
    omega
  refine ⟨((Text.hasAt_append text front back i).mp stands.here).2, ?_, size ▸ stands.close⟩
  exact fun m low high => stands.before m (by omega) (by omega)

theorem ContentAt.of_next? (next : text.next? "*/" i = some k) :
    ContentAt text i ((text.drop i).take (k - i)) := by
  obtain ⟨low, found, before⟩ := (Text.next?_eq_some_iff (by decide)).mp next
  have high := Text.length_le_of_hasAt found (by decide)
  have size : i + ((text.drop i).take (k - i)).length = k := by
    rw [List.length_take, List.length_drop]
    omega
  refine ⟨(Text.hasAt_iff text _ i).mpr (List.take_prefix _ _), ?_, ?_⟩
  · rw [size]
    exact before
  · rw [size]
    exact found

theorem ContentAt.lineAt (stands : ContentAt text i (line ++ back))
    (unbroken : ('\n' : CodePoint) ∉ line)
    (ends : text.hasAt "\n" (i + line.length) = true ∨ text.hasAt "*/" (i + line.length) = true) :
    LineAt text i line := by
  have here := ((Text.hasAt_append text line back i).mp stands.here).1
  refine ⟨here, ?_, ?_, ends⟩
  · intro m low high
    apply (Text.hasAt_singleton_false text '\n' m).mpr
    intro newline
    obtain ⟨n, rfl⟩ := Nat.exists_eq_add_of_le low
    rw [Text.getElem?_of_hasAt here (by omega)] at newline
    exact unbroken (List.mem_of_getElem? newline)
  · intro m low high
    apply stands.before m low
    rw [List.length_append]
    omega

def LinesEnd (defs : Definitions) (text : Text) (i : Nat) (content : Text) : Prop :=
  ∃ (pieces : List Text) (j : Nat), Meaning defs text (.many documentationLine) i
      (.matched (.just (.list (pieces.map .text))) j) ∧
    (IsBanner (lastLine content) → j < i + content.length) ∧
    (¬ IsBanner (lastLine content) →
      j = i + content.length ∧ pieces.flatten = withoutBanners content)

theorem ContentAt.linesEnd_of_not_mem (stands : ContentAt text i content)
    (unbroken : ('\n' : CodePoint) ∉ content) : LinesEnd defs text i content := by
  have whole : ContentAt text i (content ++ []) := by
    rw [List.append_nil]
    exact stands
  have line : if withoutBanner content = [] then
        ∃ e, Meaning defs text documentationLine i (.failed e)
      else Meaning defs text documentationLine i
        (.matched (.just (.text (withoutBanner content))) (i + content.length)) :=
    documentationLine_close (whole.lineAt unbroken (.inr stands.close)) stands.close
  rw [LinesEnd]
  rw [lastLine_of_not_mem unbroken, withoutBanners_of_not_mem unbroken, isBanner_iff]
  by_cases bare : withoutBanner content = []
  · rw [if_pos bare] at line
    obtain ⟨e, fails⟩ := line
    refine ⟨[], i, .many_failed fails, ?_, ?_⟩
    · rintro ⟨inhabited, _⟩
      have long : 0 < content.length := List.length_pos_iff.mpr inhabited
      omega
    · intro kept
      have empty : content = [] := by
        by_contra inhabited
        exact kept ⟨inhabited, bare⟩
      rw [bare, empty]
      exact ⟨rfl, rfl⟩
  · rw [if_neg bare] at line
    have inhabited : content ≠ [] := by
      rintro rfl
      exact bare rfl
    have long : 0 < content.length := List.length_pos_iff.mpr inhabited
    have atEnd : ContentAt text (i + content.length) ([] ++ []) := whole.drop
    have ended : ∃ e, Meaning defs text documentationLine (i + content.length) (.failed e) :=
      documentationLine_close (atEnd.lineAt List.not_mem_nil (.inr stands.close)) stands.close
    obtain ⟨e, fails⟩ := ended
    refine ⟨[withoutBanner content], i + content.length,
      .many_next line (by omega) (.many_failed fails), ?_, ?_⟩
    · exact fun banner => absurd banner.2 bare
    · exact fun _ => ⟨rfl, List.flatten_singleton⟩

theorem ContentAt.linesEnd (stands : ContentAt text i content) :
    LinesEnd defs text i content := by
  -- The first newline splits off a line; what follows it ends at the same place.
  induction content using Text.lines_induction '\n' generalizing i with
  | last line unbroken => exact stands.linesEnd_of_not_mem unbroken
  | next line rest unbroken ih =>
      have atBreak : ContentAt text (i + line.length) (("\n" : Text) ++ rest) := stands.drop
      have atRest : ContentAt text (i + line.length + 1) rest := atBreak.drop
      have newline : text.hasAt "\n" (i + line.length) = true :=
        ((Text.hasAt_append text "\n" rest _).mp atBreak.here).1
      have first : Meaning defs text documentationLine i _ :=
        documentationLine_newline (stands.lineAt unbroken (.inl newline)) newline
      have length : i + (line ++ ('\n' : CodePoint) :: rest).length =
          i + line.length + 1 + rest.length := by
        rw [List.length_append, List.length_cons]
        omega
      obtain ⟨pieces, j, later, lost, kept⟩ := ih atRest
      refine ⟨(withoutBanner line ++ ("\n" : Text)) :: pieces, j,
        .many_next first (by omega) later, ?_, ?_⟩
      · rw [lastLine_append_cons unbroken, length]
        exact lost
      · rw [lastLine_append_cons unbroken, length, withoutBanners_append_cons unbroken]
        intro whole
        obtain ⟨same, text⟩ := kept whole
        exact ⟨same, by rw [List.flatten_cons, text]⟩

theorem documentationComment_of_content (start : text.hasAt "/**" i = true)
    (stands : ContentAt text (i + 3) content) :
    (IsBanner (lastLine (dropSpace content)) →
      ∃ e, Meaning defs text documentationComment i (.failed e)) ∧
    (¬ IsBanner (lastLine (dropSpace content)) →
      Meaning defs text documentationComment i
        (.matched (.just (.text (withoutBanners (dropSpace content))))
          (i + 3 + content.length + 2))) := by
  have opening : Meaning defs text (.skip documentationStart) i (.matched .nothing (i + 3)) :=
    .skip_matched (documentationStart_matched start)
  have stops : text.hasAt " " (i + 3 + content.length) = false := by
    apply (Text.hasAt_singleton_false text ' ' _).mpr
    intro space
    have star := ((Text.hasAt_cons text "/" '*' _).mp stands.close).1
    exact absurd (space.symm.trans star) (by decide)
  obtain ⟨front, value, whole, space⟩ : ∃ front value, content = front ++ dropSpace content ∧
      Meaning defs text (optional " ") (i + 3) (.matched value (i + 3 + front.length)) :=
    optionalSpace_matched stands.here stops
  generalize dropSpace content = rest at whole ⊢
  subst whole
  have atRest : ContentAt text (i + 3 + front.length) rest := stands.drop
  obtain ⟨pieces, j, lines, lost, kept⟩ : LinesEnd defs text (i + 3 + front.length) rest :=
    atRest.linesEnd
  have body := lines.joined (Payload.flatten_texts pieces)
  constructor
  · intro banner
    obtain ⟨e, fails⟩ : ∃ e, Meaning defs text blockEnd j (.failed e) :=
      blockEnd_failed (atRest.before j lines.le_stop (lost banner))
    exact ⟨e, .map_stop (.sequence_next opening (.sequence_next (.skip_matched space)
      (.sequence_next body (.sequence_stop (.skip_stop fails rfl) rfl)))) rfl⟩
  · intro whole
    obtain ⟨rfl, same⟩ := kept whole
    rw [same] at body
    have closing : Meaning defs text (.skip blockEnd) _ _ :=
      .skip_matched (blockEnd_matched atRest.close)
    rw [List.length_append, ← Nat.add_assoc]
    exact .map_done (.sequence_next opening (.sequence_next (.skip_matched space)
      (.sequence_next body (.sequence_next closing (.sequence_nil _))))) rfl

example : withoutBanners (dropSpace "\n * Greet a user.\n ") = "\nGreet a user.\n " := by decide

theorem innerStar_produces : Produces defs text Maybe.IsText innerStar := by
  have slash : Produces defs text Maybe.IsText slash := .word "/"
  apply Produces.joined
  apply Produces.sequence
  intro part member
  rcases List.mem_pair.mp member with rfl | rfl
  · exact (Produces.word "*").mono fun _ text => text.textual
  · exact slash.not.peek.skip_textual

theorem optionalSpace_produces : Produces defs text Maybe.Textual (optional " ") := by
  have space : Produces defs text Maybe.Textual (.word " ") :=
    (Produces.word " ").mono fun _ text => text.textual
  exact space.optional Maybe.nothing_textual

theorem banner_produces : Produces defs text Maybe.HasText banner := by
  have indent : Produces defs text Maybe.HasText (.many (.oneOf Charset.blank)) :=
    (Produces.oneOf Charset.blank).many_texts
  have mark : Produces defs text Maybe.HasText (.sequence [innerStar, optional " "]) := by
    apply Produces.sequence
    intro part member
    rcases List.mem_pair.mp member with rfl | rfl
    · exact innerStar_produces.mono fun _ text => text.textual
    · exact optionalSpace_produces
  apply Produces.sequence
  intro part member
  rcases List.mem_pair.mp member with rfl | rfl
  · exact indent.mono fun _ text => text.textual
  · exact mark.mono fun _ text => text.textual

theorem lineBreak_produces : Produces defs text Maybe.IsText lineBreak := by
  apply Produces.choice false
  intro part member
  rcases List.mem_pair.mp member with rfl | rfl
  · exact .word "\n"
  · exact blockEnd_produces

theorem lineText_produces : Produces defs text Maybe.IsText lineText := by
  have inside : Produces defs text Maybe.IsText (.not lineBreak) := lineBreak_produces.not
  have characters := inside.oneOrMore fun _ text => text.textual
  have ending : Produces defs text Maybe.Textual (firstOf [newline, .skip (.peek blockEnd)]) := by
    apply Produces.choice false
    intro part member
    rcases List.mem_pair.mp member with rfl | rfl
    · exact (Produces.word "\n").mono fun _ text => text.textual
    · exact blockEnd_produces.peek.skip_textual
  apply Produces.joined
  apply Produces.sequence
  intro part member
  rcases List.mem_pair.mp member with rfl | rfl
  · exact characters.mono fun _ list => list.hasText.textual
  · exact ending

theorem documentationLine_produces : Produces defs text Maybe.IsText documentationLine := by
  have rest : Produces defs text Maybe.IsText (firstOf [lineText, newline]) := by
    apply Produces.choice false
    intro part member
    rcases List.mem_pair.mp member with rfl | rfl
    · exact lineText_produces
    · exact .word "\n"
  exact .head (.sequence_skip (banner_produces.skip.optional rfl)
    (.sequence_text rest .sequence_nil))

theorem documentationComment_produces :
    Produces defs text Maybe.IsText documentationComment := by
  have opening : Produces defs text Maybe.IsText documentationStart :=
    mark_produces ["/", "*", "*"]
  have lines : Produces defs text Maybe.IsText (joined (.many documentationLine)) :=
    .joined documentationLine_produces.many_texts
  exact .head (.sequence_skip opening.skip (.sequence_skip optionalSpace_produces.skip
    (.sequence_text lines (.sequence_skip blockEnd_produces.skip .sequence_nil))))

theorem documentationComment_advances {value : Maybe}
    (meaning : Meaning defs text documentationComment i (.matched value j)) :
    text.hasAt "/**" i = true ∧ i < j := by
  obtain ⟨inner, whole⟩ := meaning.map_matched
  obtain ⟨_, k, _, opening, later, _⟩ := whole.sequence_cons_matched
  obtain ⟨_, opening⟩ := opening.skip_matched_inner
  obtain ⟨found, rfl⟩ := hasAt_of_mark ["/", "*", "*"] (by decide) opening
  have low : i + 3 ≤ j := later.le_stop
  exact ⟨found, by omega⟩

end Comment

end Descent
