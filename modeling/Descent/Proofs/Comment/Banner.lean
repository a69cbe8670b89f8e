import Descent.Proofs.Comment.Prefix
import Descent.Proofs.Lossless

/-! The body of a documentation comment is its content without the banners of its lines. -/

namespace Descent

namespace Text

def pieces (mark : CodePoint) : Text → List Text
  | [] => []
  | c :: rest =>
    if c = mark then [c] :: pieces mark rest
    else
      match pieces mark rest with
      | piece :: more => (c :: piece) :: more
      | [] => [[c]]

variable {mark : CodePoint} {line : Text}

theorem flatten_pieces (mark : CodePoint) (t : Text) : (pieces mark t).flatten = t := by
  induction t with
  | nil => rfl
  | cons c rest ih =>
      rw [pieces]
      split
      · rw [List.flatten_cons, ih, List.singleton_append]
      · split
        · rename_i piece more cut
          rw [cut, List.flatten_cons] at ih
          rw [List.flatten_cons, List.cons_append, ih]
        · rename_i cut
          rw [cut] at ih
          rw [← ih]
          rfl

theorem pieces_of_not_mem (missing : mark ∉ line) (inhabited : line ≠ []) :
    pieces mark line = [line] := by
  induction line with
  | nil => exact absurd rfl inhabited
  | cons c line ih =>
      have other := List.ne_of_not_mem_cons missing
      have later := List.not_mem_of_not_mem_cons missing
      rw [pieces, if_neg (Ne.symm other)]
      cases line with
      | nil => rfl
      | cons d line => rw [ih later (List.cons_ne_nil d line)]

theorem pieces_append_cons (missing : mark ∉ line) (rest : Text) :
    pieces mark (line ++ mark :: rest) = (line ++ [mark]) :: pieces mark rest := by
  induction line with
  | nil => rw [List.nil_append, pieces, if_pos rfl, List.nil_append]
  | cons c line ih =>
      have other := List.ne_of_not_mem_cons missing
      have later := List.not_mem_of_not_mem_cons missing
      rw [List.cons_append, pieces, if_neg (Ne.symm other), ih later, List.cons_append]

end Text

namespace Comment

open Grammar

variable {text line front more rest : Text} {i j k : Nat}

/-- What is left of a line behind the longest banner at its front, or all of a line without one. -/
inductive Bare (line : Text) : Text → Prop where
  | behind {front rest : Text} (whole : line = front ++ rest) (here : IsBanner front)
      (longest : ∀ other, IsBanner other → other <+: line → other.length ≤ front.length) :
      Bare line rest
  | whole (free : ∀ front, IsBanner front → ¬ front <+: line) : Bare line line

/-- The blanks of a banner are all the blanks at the front of a line. -/
theorem IsBanner.dropWhile (banner : IsBanner front) (more : Text) :
    ∃ tail : Text, (tail = [] ∨ tail = ([' '] : Text)) ∧
      front = (front ++ more).takeWhile (· ∈ Charset.blank) ++ ('*' : CodePoint) :: tail ∧
      (front ++ more).dropWhile (· ∈ Charset.blank) = ('*' : CodePoint) :: (tail ++ more) := by
  obtain ⟨blanks, blank, whole⟩ := banner
  have starred : ∃ tail : Text, (tail = [] ∨ tail = ([' '] : Text)) ∧
      front = blanks ++ ('*' : CodePoint) :: tail := by
    rcases whole with rfl | rfl
    · exact ⟨[], .inl rfl, rfl⟩
    · exact ⟨[' '], .inr rfl, rfl⟩
  obtain ⟨tail, kind, rfl⟩ := starred
  have passes : ∀ x ∈ blanks, decide (x ∈ Charset.blank) = true := fun x member =>
    decide_eq_true (blank x member)
  have stops : (('*' : CodePoint) ∈ Charset.blank) = False := by decide
  refine ⟨tail, kind, ?_, ?_⟩
  · rw [List.append_assoc, List.takeWhile_append_of_pos passes, List.cons_append,
      List.takeWhile_cons_of_neg (by simp [stops]), List.append_nil]
  · rw [List.append_assoc, List.dropWhile_append_of_pos passes, List.cons_append,
      List.dropWhile_cons_of_neg (by simp [stops])]

theorem not_prefix_of_starless
    (starless : ∀ rest, line.dropWhile (· ∈ Charset.blank) ≠ ('*' : CodePoint) :: rest) :
    ∀ front, IsBanner front → ¬ front <+: line := by
  rintro front banner ⟨more, rfl⟩
  obtain ⟨tail, _, _, starts⟩ := banner.dropWhile more
  exact starless _ starts

theorem dropSpace_cases (t : Text) :
    (∃ rest, t = (' ' : CodePoint) :: rest ∧ dropSpace t = rest) ∨
      (dropSpace t = t ∧ ∀ rest, t ≠ (' ' : CodePoint) :: rest) := by
  cases t with
  | nil => exact .inr ⟨rfl, nofun⟩
  | cons c rest =>
      by_cases space : c = ' '
      · subst space
        exact .inl ⟨rest, rfl, rfl⟩
      · exact .inr ⟨if_neg space, fun _ same => space (List.cons.inj same).1⟩

theorem bare_of_starred
    (starts : line.dropWhile (· ∈ Charset.blank) = ('*' : CodePoint) :: rest) :
    Bare line (dropSpace rest) := by
  generalize blanks : line.takeWhile (· ∈ Charset.blank) = indent
  have blank : ∀ x ∈ indent, x ∈ Charset.blank := blanks ▸ takeWhile_blank line
  have whole : line = indent ++ ('*' : CodePoint) :: rest := by
    rw [← blanks, ← starts, List.takeWhile_append_dropWhile]
  -- Any banner at the front has the same blanks and the same star, and a space only if there is one.
  have shape : ∀ other, IsBanner other → other <+: line → ∃ tail more : Text,
      (tail = [] ∨ tail = ([' '] : Text)) ∧ other = indent ++ ('*' : CodePoint) :: tail ∧
        tail ++ more = rest := by
    rintro other banner ⟨more, same⟩
    obtain ⟨tail, kind, front, behind⟩ := banner.dropWhile more
    rw [same] at front behind
    rw [blanks] at front
    exact ⟨tail, more, kind, front, (List.cons.inj (behind.symm.trans starts)).2⟩
  rcases dropSpace_cases rest with ⟨tail, spaced, dropped⟩ | ⟨kept, free⟩
  · rw [dropped]
    have split : line = (indent ++ ("* " : Text)) ++ tail := by
      rw [whole, spaced, List.append_assoc]
      rfl
    refine .behind split ⟨indent, blank, .inr rfl⟩ ?_
    intro other banner starts
    obtain ⟨tail, _, kind, rfl, _⟩ := shape other banner starts
    rcases kind with rfl | rfl <;> simp [Text.ofString]
  · rw [kept]
    have split : line = (indent ++ ("*" : Text)) ++ rest := by
      rw [whole, List.append_assoc]
      rfl
    refine .behind split ⟨indent, blank, .inl rfl⟩ ?_
    intro other banner starts
    obtain ⟨tail, more, kind, rfl, same⟩ := shape other banner starts
    rcases kind with rfl | rfl
    · exact Nat.le_refl _
    · exact absurd same.symm (free more)

theorem withoutBanner_bare (line : Text) : Bare line (withoutBanner line) := by
  rw [withoutBanner]
  split
  · rename_i blank
    apply Bare.whole
    apply not_prefix_of_starless
    rw [blank]
    exact fun rest => (List.cons_ne_nil _ rest).symm
  · rename_i c rest starts
    split
    · rename_i star
      subst star
      exact bare_of_starred starts
    · rename_i other
      apply Bare.whole
      apply not_prefix_of_starless
      rw [starts]
      exact fun _ same => other (List.cons.inj same).1

theorem withoutBanner_suffix (line : Text) : withoutBanner line <:+ line := by
  generalize bare : withoutBanner line = rest
  cases bare ▸ withoutBanner_bare line with
  | behind whole _ _ => exact ⟨_, whole.symm⟩
  | whole _ => exact List.suffix_refl line

theorem flatten_map_withoutBanner (content : Text) :
    ((Text.pieces '\n' content).map withoutBanner).flatten = withoutBanners content := by
  induction content using Text.lines_induction '\n' with
  | last line unbroken =>
      rw [withoutBanners_of_not_mem unbroken]
      by_cases empty : line = []
      · rw [empty]
        rfl
      · rw [Text.pieces_of_not_mem unbroken empty]
        exact List.flatten_singleton
  | next line rest unbroken ih =>
      have broken : withoutBanner (line ++ [('\n' : CodePoint)]) =
          withoutBanner line ++ [('\n' : CodePoint)] :=
        withoutBanner_append_cons line (by decide) (by decide) []
      rw [Text.pieces_append_cons unbroken, withoutBanners_append_cons unbroken, List.map_cons,
        List.flatten_cons, ih, broken]
      rfl

theorem bare_pieces (content : Text) :
    List.Forall₂ Bare (Text.pieces '\n' content)
      ((Text.pieces '\n' content).map withoutBanner) := by
  rw [List.forall₂_map_right_iff, List.forall₂_same]
  exact fun piece _ => withoutBanner_bare piece

theorem documentationComment_matched {value : Maybe}
    (meaning : Meaning [] text documentationComment i (.matched value j)) :
    ∃ k, text.next? "*/" (i + 3) = some k ∧ j = k + 2 ∧
      value = .just (.text (withoutBanners (dropSpace (text.between (i + 3) k)))) := by
  obtain ⟨m, low, close⟩ := documentationComment_closes meaning
  obtain ⟨k, next⟩ := Text.exists_next? (by decide) low close
  have start := (documentationComment_advances meaning).1
  have content := ContentAt.of_next? next
  obtain ⟨low, found, _⟩ := (Text.next?_eq_some_iff (by decide)).mp next
  have high := Text.length_le_of_hasAt found (by decide)
  have size : i + 3 + ((text.drop (i + 3)).take (k - (i + 3))).length = k := by
    rw [List.length_take, List.length_drop]
    omega
  obtain ⟨refused, read⟩ := @documentationComment_of_content [] _ _ _ start content
  rw [size] at read
  by_cases banner : IsBanner (lastLine (dropSpace ((text.drop (i + 3)).take (k - (i + 3)))))
  · obtain ⟨e, fails⟩ := refused banner
    exact absurd (meaning.unique fails) nofun
  · obtain ⟨rfl, rfl⟩ := Answer.matched.inj (meaning.unique (read banner))
    refine ⟨k, next, rfl, ?_⟩
    rw [Text.between, List.drop_take]

/-- A documentation comment reaches from `i` to the first end behind its opening. Its body is what
stands between, without one space at its front and without the banner at the front of each line. -/
theorem documentationComment_body (body : Body) (i : Nat) (r : Result)
    (run : (documentationComment.parse (body.cursor i)).outcome = .done r)
    (matched : r.succeeded = true) :
    body.text.hasAt "/**" i = true ∧ ∃ (k : Nat) (pieces rests : List Text),
      i + 3 ≤ k ∧ body.text.next? "*/" (i + 3) = some k ∧ r.stop = k + 2 ∧
      pieces = Text.pieces '\n' (dropSpace (body.text.between (i + 3) k)) ∧
      pieces.flatten = dropSpace (body.text.between (i + 3) k) ∧
      List.Forall₂ Bare pieces rests ∧ r.value = .just (.text rests.flatten) := by
  rcases documentationComment.parse_sound [] body i with unsettled | ⟨a, meaning, yields⟩
  · exact absurd (run.symm.trans unsettled) nofun
  · have same : Outcome.done r = a.outcome body i := run.symm.trans yields
    cases a with
    | raised fault => cases same
    | failed e =>
        cases same
        simp at matched
    | matched value j =>
        cases same
        obtain ⟨k, next, rfl, rfl⟩ := documentationComment_matched meaning
        have low := ((Text.next?_eq_some_iff (by decide)).mp next).1
        refine ⟨(documentationComment_advances meaning).1, k, _, _, low, next, rfl, rfl,
          Text.flatten_pieces _ _, bare_pieces _, ?_⟩
        rw [flatten_map_withoutBanner]
        rfl

/-- Lines with a banner, with a second star behind it, with nothing but a banner, and without. -/
theorem documentationComment_body_lines :
    ∃ (body : Body) (r : Result), body = { text := "(/** *a\n\t* *b\n *\n\n c */", name := [] } ∧
      (documentationComment.parse (body.cursor 1)).outcome = .done r ∧ r.succeeded = true ∧
      r.value = .just (.text "a\n*b\n\n\n c ") ∧
      body.text.hasAt "/**" 1 = true ∧ ∃ (k : Nat) (pieces rests : List Text),
        1 + 3 ≤ k ∧ body.text.next? "*/" (1 + 3) = some k ∧ r.stop = k + 2 ∧
        pieces = Text.pieces '\n' (dropSpace (body.text.between (1 + 3) k)) ∧
        pieces.flatten = dropSpace (body.text.between (1 + 3) k) ∧
        List.Forall₂ Bare pieces rests ∧ r.value = .just (.text rests.flatten) := by
  let body : Body := { text := "(/** *a\n\t* *b\n *\n\n c */", name := [] }
  let r : Result := .success (.just (.text "a\n*b\n\n\n c ")) (body.cursor 23) 1
  have run : (documentationComment.parse (body.cursor 1)).outcome = .done r := by cbv
  exact ⟨body, r, rfl, run, rfl, rfl, documentationComment_body body 1 r run rfl⟩

end Comment

end Descent
