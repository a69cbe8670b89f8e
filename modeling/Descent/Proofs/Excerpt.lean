import Descent.Diagnostic
import Descent.Proofs.Line

/-! What a report shows of a line, and where its caret stands. -/

namespace Descent.Diagnostic

open CodePoint (newline)

/-- The window is a part of the line, and the caret under it stands below the column, or right
behind the window if the column is the one behind the line. -/
structure Excerpt.Marks (e : Excerpt) (shown : Text) (column : Nat) : Prop where
  part : e.window <:+: shown
  length_le : e.window.length ≤ 40
  reaches : column ≤ shown.length + 1
  under : column ≤ shown.length → e.window[e.indent]? = shown[column - 1]?
  past : column = shown.length + 1 → e.indent = e.window.length

theorem Excerpt.marks_of_short (shown : Text) {column : Nat} (reaches : column ≤ shown.length + 1)
    (short : column ≤ 20) :
    Excerpt.Marks { window := shown.take 40, indent := column - 1 } shown column where
  part := (List.take_prefix 40 shown).isInfix
  length_le := List.length_take_le 40 shown
  reaches
  under _ := by
    have inside : column - 1 < 40 := by omega
    exact List.getElem?_take_of_lt inside
  past := by
    intro last
    change column - 1 = (shown.take 40).length
    rw [List.length_take]
    omega

theorem Excerpt.marks_of_shifted (shown : Text) {column : Nat}
    (reaches : column ≤ shown.length + 1) (shifted : 20 < column) :
    Excerpt.Marks { window := (shown.drop (column - 20)).take 40, indent := 19 } shown column where
  part := (List.take_prefix 40 _).isInfix.trans (List.drop_suffix _ shown).isInfix
  length_le := List.length_take_le 40 _
  reaches
  under _ := by
    have inside : 19 < 40 := by decide
    have place : column - 20 + 19 = column - 1 := by omega
    exact (List.getElem?_take_of_lt inside).trans (by rw [List.getElem?_drop, place])
  past := by
    intro last
    change 19 = ((shown.drop (column - 20)).take 40).length
    rw [List.length_take, List.length_drop]
    omega

theorem Excerpt.ofLine_marks (shown : Text) {column : Nat} (reaches : column ≤ shown.length + 1) :
    (Excerpt.ofLine shown column).Marks shown column := by
  rw [Excerpt.ofLine]
  by_cases short : column ≤ 20
  · have indent : ((column : Int) - 1).toNat = column - 1 := by omega
    rw [if_pos (by omega), indent]
    exact marks_of_short shown reaches short
  · have skipped : ((column : Int) - 20).toNat = column - 20 := by omega
    rw [if_neg (by omega), skipped]
    exact marks_of_shifted shown reaches (by omega)

variable {d : Diagnostic} {position : Nat}

theorem excerpt?_eq_some_iff {column : Nat} (reported : d.column = column) (e : Excerpt) :
    d.excerpt? = some e ↔
      ∃ shown, d.source.lines[d.line - 1]? = some shown ∧ column ≤ shown.length + 1 ∧
        e = Excerpt.ofLine shown column := by
  rw [excerpt?, reported]
  cases d.source.lines[d.line - 1]? with
  | none => simp
  | some shown =>
      have reaches : (column : Int) - 1 ≤ shown.length ↔ column ≤ shown.length + 1 := by omega
      simp only [reaches, Option.some.injEq, exists_eq_left']
      split
      · rename_i inside
        simp [inside, eq_comm]
      · rename_i outside
        simp [outside]

theorem note_of_excerpt {e : Excerpt} (shown : d.excerpt? = some e) :
    d.note = Text.concat [d.header, "\n", e.window, "\n", List.replicate e.indent ' ', "^"] := by
  rw [note, shown]
  simp [Text.concat, Excerpt.render]

/-- A report names the only line and column that its position is at, and if it shows anything, its
caret is below that column of what it shows. -/
theorem caret_marks_column (d : Diagnostic) (position : Nat) (placed : d.position = position) :
    ∃ column : Nat, d.column = column ∧
      (∀ n c, d.source.Located (min position d.source.length) n c ↔ n = d.line ∧ c = column) ∧
      d.header = Text.concat
        [if d.name.isEmpty then [] else Text.concat [d.name, ": "], "At position ",
          Text.ofNat (min position d.source.length), " (line ", Text.ofNat d.line, ", column ",
          Text.ofNat column, ")"] ∧
      ((∃ e, d.excerpt? = some e) ↔
        ∃ shown, d.source.lines[d.line - 1]? = some shown ∧ column ≤ shown.length + 1) ∧
      ∀ e, d.excerpt? = some e →
        d.note = Text.concat
          [d.header, "\n", e.window, "\n", List.replicate e.indent ' ', "^"] ∧
        ∃ shown, d.source.lines[d.line - 1]? = some shown ∧ e.Marks shown column := by
  have line := d.line_of_nonneg position placed
  have column := d.column_of_nonneg position placed
  refine ⟨_, column, ?_, ?_, ?_, ?_⟩
  · intro n c
    rw [line]
    exact Text.located_iff (Nat.min_le_right _ _) n c
  · rw [header, d.offset_of_nonneg position placed, column]
    rfl
  · simp only [excerpt?_eq_some_iff column]
    constructor
    · intro found
      obtain ⟨_, shown, piece, reaches, _⟩ := found
      exact ⟨shown, piece, reaches⟩
    · intro found
      obtain ⟨shown, piece, reaches⟩ := found
      exact ⟨_, shown, piece, reaches, rfl⟩
  · intro e found
    obtain ⟨shown, piece, reaches, rfl⟩ := (excerpt?_eq_some_iff column _).mp found
    exact ⟨note_of_excerpt found, shown, piece, Excerpt.ofLine_marks shown reaches⟩

/-- A caret moved to the twentieth place below the last character of a line. -/
theorem caret_marks_column_shifted :
    ∃ (d : Diagnostic) (e : Excerpt) (shown : Text),
      d = { source := "a\nabcdefghijklmnopqrstuvw", position := 24, message := [], name := [] } ∧
      d.line = 2 ∧ d.column = 23 ∧ d.source.Located 24 2 23 ∧
      shown = "abcdefghijklmnopqrstuvw" ∧ e = { window := "defghijklmnopqrstuvw", indent := 19 } ∧
      d.note = "At position 24 (line 2, column 23)\ndefghijklmnopqrstuvw\n                   ^" ∧
      d.excerpt? = some e ∧ e.Marks shown 23 := by
  let d : Diagnostic :=
    { source := "a\nabcdefghijklmnopqrstuvw", position := 24, message := [], name := [] }
  have line : d.line = 2 := rfl
  have column : d.column = 23 := rfl
  have found : d.excerpt? = some { window := "defghijklmnopqrstuvw", indent := 19 } := rfl
  have piece : d.source.lines[d.line - 1]? = some "abcdefghijklmnopqrstuvw" := rfl
  have note : d.note =
      "At position 24 (line 2, column 23)\ndefghijklmnopqrstuvw\n                   ^" := by decide
  obtain ⟨c, reported, located, _, _, marked⟩ := caret_marks_column d 24 rfl
  have same : c = 23 := Int.ofNat.inj (reported.symm.trans column)
  subst same
  obtain ⟨_, shown, found', marks⟩ := marked _ found
  rw [piece] at found'
  cases found'
  exact ⟨d, _, _, rfl, line, column, (located 2 23).mpr ⟨line.symm, rfl⟩, rfl, rfl, note, found,
    marks⟩

section

variable {p : Nat} {before line after : Text}

theorem reported_of_onLine (placed : d.position = position)
    (clipped : p = min position d.source.length) (on : d.source.OnLine p before line after) :
    d.line = before.count newline + 1 ∧ d.column = (p - before.length + 1 : Nat) := by
  rw [d.line_of_nonneg position placed, d.column_of_nonneg position placed, ← clipped,
    on.place_line, on.place_column]
  exact ⟨rfl, rfl⟩

/-- If only newlines break the lines before, the line is shown up to its own first break. -/
theorem excerpt_of_plain (placed : d.position = position)
    (clipped : p = min position d.source.length) (on : d.source.OnLine p before line after)
    (plain : before.PlainlyBroken) {e : Excerpt} (found : d.excerpt? = some e) :
    e.Marks line.firstPiece (p - before.length + 1) := by
  obtain ⟨number, column⟩ := reported_of_onLine placed clipped on
  obtain ⟨shown, piece, reaches, rfl⟩ := (excerpt?_eq_some_iff column e).mp found
  rw [number, Nat.add_sub_cancel, on.lines_at_of_plain plain] at piece
  split at piece
  · cases piece
  · cases piece
    exact Excerpt.ofLine_marks _ reaches

/-- Another break there moves the excerpt to what comes before the line. -/
theorem excerpt_of_not_plain (placed : d.position = position)
    (clipped : p = min position d.source.length) (on : d.source.OnLine p before line after)
    (other : ¬ before.PlainlyBroken) {e : Excerpt} (found : d.excerpt? = some e) :
    ∃ piece, piece <:+: before ∧ e.Marks piece (p - before.length + 1) := by
  obtain ⟨number, column⟩ := reported_of_onLine placed clipped on
  obtain ⟨shown, there, reaches, rfl⟩ := (excerpt?_eq_some_iff column e).mp found
  obtain ⟨piece, here, inside⟩ := on.lines_at_of_not_plain other
  rw [number, Nat.add_sub_cancel, here] at there
  cases there
  exact ⟨_, inside, Excerpt.ofLine_marks _ reaches⟩

theorem above_caret_iff (on : d.source.OnLine p before line after) {e : Excerpt}
    (marks : e.Marks line.firstPiece (p - before.length + 1)) :
    (p < before.length + line.length → e.window[e.indent]? = d.source[p]?) ↔
      ∀ c, d.source[p]? = some c → c.isLineBreak = true → c = newline := by
  have long : line.firstPiece.length ≤ line.length := (List.takeWhile_prefix _).length_le
  have low := on.low
  rcases Nat.lt_or_eq_of_le (Nat.le_of_succ_le_succ marks.reaches) with inside | last
  · obtain ⟨c, there, here, inner⟩ := Text.getElem?_firstPiece inside
    have found : d.source[p]? = some c := (on.getElem?_eq (by omega)).trans there
    rw [marks.under inside, Nat.add_sub_cancel, here, found]
    refine iff_of_true (fun _ => rfl) fun x same breaks => ?_
    rw [← Option.some.inj same, inner] at breaks
    cases breaks
  rcases Nat.lt_or_eq_of_le on.high with inside | last'
  · -- The window ends where the line is cut, so there is nothing above the caret.
    obtain ⟨c, there, breaks⟩ := Text.exists_break (t := line) (by omega)
    have found : d.source[p]? = some c := (on.getElem?_eq inside).trans (last ▸ there)
    have nothing : e.window[e.indent]? = none := by
      rw [marks.past (by rw [last])]
      exact List.getElem?_eq_none (Nat.le_refl _)
    rw [nothing, found]
    refine iff_of_false (fun same => nomatch same inside) fun only => ?_
    rw [only c rfl breaks] at there
    exact on.unbroken (List.mem_of_getElem? there)
  · refine iff_of_true (fun inside => absurd inside (by omega)) fun c found _ => ?_
    rw [on.getElem?_end last'] at found
    rcases on.ends with rfl | ⟨back, rfl⟩
    · cases found
    · exact (Option.some.inj found).symm

end

/-- If nothing but newlines, with or without carriage returns before them, breaks the lines before,
the excerpt is a part of the line that is reported, and the character that the position is at stands
above the caret unless it is itself a break. Otherwise the excerpt is a part of an earlier line. -/
theorem excerpt_of_reported_line (d : Diagnostic) (position p : Nat)
    (placed : d.position = position) (clipped : p = min position d.source.length)
    (before line after : Text) (on : d.source.OnLine p before line after) :
    d.line = before.count newline + 1 ∧
    (before.PlainlyBroken → ∀ e, d.excerpt? = some e → e.window <:+: line ∧
      ((p < before.length + line.length → e.window[e.indent]? = d.source[p]?) ↔
        ∀ c, d.source[p]? = some c → c.isLineBreak = true → c = newline)) ∧
    (¬ before.PlainlyBroken → ∀ e, d.excerpt? = some e → e.window <:+: before) := by
  refine ⟨(reported_of_onLine placed clipped on).1, ?_, ?_⟩
  · intro plain e found
    have marks := excerpt_of_plain placed clipped on plain found
    exact ⟨marks.part.trans (List.takeWhile_prefix _).isInfix, above_caret_iff on marks⟩
  · intro other e found
    obtain ⟨piece, inside, marks⟩ := excerpt_of_not_plain placed clipped on other found
    exact marks.part.trans inside

/-- A line behind a carriage return and a newline, with a vertical tab behind the position. -/
theorem excerpt_of_reported_line_tab :
    ∃ (d : Diagnostic) (before line : Text) (e : Excerpt),
      d = { source := "ab\x0d\ncd\x0bef", position := 5, message := [], name := [] } ∧
      before = "ab\x0d\n" ∧ line = "cd\x0bef" ∧ e = { window := "cd", indent := 1 } ∧
      d.source.OnLine 5 before line [] ∧ before.PlainlyBroken ∧ d.excerpt? = some e ∧
      d.line = before.count newline + 1 ∧ e.window <:+: line ∧
      d.source[5]? = some (CodePoint.ofChar 'd') ∧
      e.window[e.indent]? = d.source[5]? := by
  let d : Diagnostic :=
    { source := "ab\x0d\ncd\x0bef", position := 5, message := [], name := [] }
  have on : d.source.OnLine 5 "ab\x0d\n" "cd\x0bef" [] :=
    { text_eq := rfl
      whole := .inr ⟨"ab\x0d", rfl⟩
      unbroken := by decide
      ends := .inl rfl
      low := by decide
      high := by decide }
  have plain : Text.PlainlyBroken "ab\x0d\n" :=
    (Text.length_lines_newline "ab\x0d").2.mp (by decide)
  have found : d.excerpt? = some { window := "cd", indent := 1 } := rfl
  obtain ⟨number, shown, _⟩ := excerpt_of_reported_line d 5 5 rfl (by decide) _ _ _ on
  obtain ⟨part, above⟩ := shown plain _ found
  refine ⟨d, _, _, _, rfl, rfl, rfl, rfl, on, plain, found, number, part, rfl, ?_⟩
  refine above.mpr ?_ (by decide)
  intro c here breaks
  rw [← Option.some.inj here] at breaks
  cases breaks

/-- A vertical tab in an earlier line moves its second half before the line that is reported. -/
theorem excerpt_of_earlier_line :
    ∃ (d : Diagnostic) (before line : Text) (e : Excerpt),
      d = { source := "a\x0bb\nc", position := 4, message := [], name := [] } ∧
      before = "a\x0bb\n" ∧ line = "c" ∧ e = { window := "b", indent := 0 } ∧
      d.source.OnLine 4 before line [] ∧ d.line = before.count newline + 1 ∧
      d.note = "At position 4 (line 2, column 1)\nb\n^" ∧ d.excerpt? = some e ∧
      ¬ e.window <:+: line ∧ 4 < before.length + line.length ∧
      e.window[e.indent]? ≠ d.source[4]? := by
  have on : Text.OnLine "a\x0bb\nc" 4 "a\x0bb\n" "c" [] :=
    { text_eq := rfl
      whole := .inr ⟨"a\x0bb", rfl⟩
      unbroken := by decide
      ends := .inl rfl
      low := by decide
      high := by decide }
  have other : ¬ Text.ofString "b" <:+: Text.ofString "c" := by decide
  exact ⟨_, _, _, _, rfl, rfl, rfl, rfl, on, by decide, by decide, by decide, other, by decide,
    by decide⟩

end Descent.Diagnostic
