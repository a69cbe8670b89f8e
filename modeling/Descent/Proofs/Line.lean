import Descent.Text.Line
import Mathlib.Data.List.Infix
import Mathlib.Data.List.TakeWhile

/-! The line that a position lies on, and the pieces between all breaks of a text. -/

namespace Descent.Text

open CodePoint (newline carriageReturn)

def Whole (t : Text) : Prop := t = [] ∨ ∃ front, t = front ++ [newline]

/-- A position on the line between two parts of a text. Newlines alone part lines. -/
structure OnLine (t : Text) (position : Nat) (before line after : Text) : Prop where
  text_eq : t = before ++ line ++ after
  whole : before.Whole
  unbroken : newline ∉ line
  ends : after = [] ∨ ∃ back, after = newline :: back
  low : before.length ≤ position
  high : position ≤ before.length + line.length

variable {t before line after : Text} {position : Nat}

theorem exists_lastLine (t : Text) :
    ∃ before line, t = before ++ line ∧ before.Whole ∧ newline ∉ line := by
  induction t using List.reverseRecOn with
  | nil => exact ⟨[], [], rfl, .inl rfl, List.not_mem_nil⟩
  | append_singleton t c ih =>
      by_cases ends : c = newline
      · subst ends
        exact ⟨t ++ [newline], [], (List.append_nil _).symm, .inr ⟨t, rfl⟩, List.not_mem_nil⟩
      · obtain ⟨before, line, rfl, whole, unbroken⟩ := ih
        refine ⟨before, line ++ [c], List.append_assoc _ _ _, whole, ?_⟩
        rw [List.mem_append, List.mem_singleton, not_or]
        exact ⟨unbroken, fun same => ends same.symm⟩

theorem exists_firstLine (t : Text) :
    ∃ line after, t = line ++ after ∧ newline ∉ line ∧
      (after = [] ∨ ∃ back, after = newline :: back) := by
  induction t with
  | nil => exact ⟨[], [], rfl, List.not_mem_nil, .inl rfl⟩
  | cons c t ih =>
      by_cases ends : c = newline
      · subst ends
        exact ⟨[], newline :: t, rfl, List.not_mem_nil, .inr ⟨t, rfl⟩⟩
      · obtain ⟨line, after, rfl, unbroken, last⟩ := ih
        refine ⟨c :: line, after, rfl, ?_, last⟩
        rw [List.mem_cons, not_or]
        exact ⟨fun same => ends same.symm, unbroken⟩

theorem exists_onLine (inside : position ≤ t.length) :
    ∃ before line after, t.OnLine position before line after := by
  obtain ⟨before, left, front, whole, unbrokenLeft⟩ := exists_lastLine (t.take position)
  obtain ⟨right, after, back, unbrokenRight, ends⟩ := exists_firstLine (t.drop position)
  have size : before.length + left.length = position := by
    rw [← List.length_append, ← front, List.length_take, Nat.min_eq_left inside]
  refine ⟨before, left ++ right, after, ?_⟩
  exact
    { text_eq := by
        rw [← List.append_assoc, ← front, List.append_assoc, ← back, List.take_append_drop]
      whole
      unbroken := by
        rw [List.mem_append, not_or]
        exact ⟨unbrokenLeft, unbrokenRight⟩
      ends
      low := by omega
      high := by
        rw [List.length_append]
        omega }

namespace OnLine

theorem take_eq (on : t.OnLine position before line after) :
    t.take position = before ++ line.take (position - before.length) := by
  have high : position - before.length ≤ line.length := Nat.sub_le_iff_le_add'.mpr on.high
  rw [on.text_eq, List.append_assoc, List.take_append, List.take_of_length_le on.low,
    List.take_append_of_le_length high]

theorem getElem?_eq (on : t.OnLine position before line after)
    (inside : position < before.length + line.length) :
    t[position]? = (line : Text)[position - before.length]? := by
  rw [on.text_eq, List.append_assoc, List.getElem?_append_right on.low,
    List.getElem?_append_left (by have := on.low; omega)]

theorem getElem?_end (on : t.OnLine position before line after)
    (last : position = before.length + line.length) : t[position]? = after.head? := by
  rw [on.text_eq, last, ← List.length_append, List.getElem?_append_right (Nat.le_refl _),
    Nat.sub_self, List.head?_eq_getElem?]

theorem count_take (on : t.OnLine position before line after) :
    (t.take position).count newline = before.count newline := by
  have none : (line.take (position - before.length)).count newline = 0 :=
    List.count_eq_zero.mpr fun member => on.unbroken (List.mem_of_mem_take member)
  rw [on.take_eq, List.count_append, none, Nat.add_zero]

theorem place_line (on : t.OnLine position before line after) :
    (t.place position).line = before.count newline + 1 := by
  change (t.take position).count newline + 1 = _
  rw [on.count_take]

theorem place_column (on : t.OnLine position before line after) :
    (t.place position).column = position - before.length + 1 := by
  have high : position - before.length ≤ line.length := Nat.sub_le_iff_le_add'.mpr on.high
  have inner : ∀ c ∈ (line.take (position - before.length)).reverse, c ≠ newline := by
    rintro c member rfl
    exact on.unbroken (List.mem_of_mem_take (List.mem_reverse.mp member))
  have outer : before.reverse.takeWhile (· ≠ newline) = [] := by
    rcases on.whole with rfl | ⟨front, rfl⟩
    · rfl
    · simp
  change ((t.take position).reverse.takeWhile (· ≠ newline)).length + 1 = _
  rw [on.take_eq, List.reverse_append, List.takeWhile_append_of_pos (by simpa using inner), outer,
    List.append_nil, List.length_reverse, List.length_take, Nat.min_eq_left high]

end OnLine

/-- The line and the column of a position, both counted from one: how many newlines come before it,
and how many characters from the start of its line. -/
def Located (t : Text) (position line column : Nat) : Prop :=
  (t.take position).count newline + 1 = line ∧
    ∃ before text after, t.OnLine position before text after ∧ before.length + column = position + 1

theorem located_iff (inside : position ≤ t.length) (number column : Nat) :
    t.Located position number column ↔
      number = (t.place position).line ∧ column = (t.place position).column := by
  constructor
  · intro located
    obtain ⟨newlines, before, line, after, on, distance⟩ := located
    have low := on.low
    rw [on.count_take] at newlines
    rw [on.place_line, on.place_column]
    exact ⟨newlines.symm, by omega⟩
  · intro same
    obtain ⟨before, line, after, on⟩ := exists_onLine inside
    have low := on.low
    rw [on.place_line, on.place_column] at same
    refine ⟨by rw [on.count_take, same.1], before, line, after, on, ?_⟩
    rw [same.2]
    omega

def firstPiece (t : Text) : Text := t.takeWhile fun c => !c.isLineBreak

theorem exists_firstPiece (t : Text) :
    ∃ rest, t = t.firstPiece ++ rest ∧ (∀ c ∈ t.firstPiece, c.isLineBreak = false) ∧
      ∀ c, rest.head? = some c → c.isLineBreak = true := by
  refine ⟨t.dropWhile fun c => !c.isLineBreak, List.takeWhile_append_dropWhile.symm, ?_, ?_⟩
  · intro c member
    have inner : (!c.isLineBreak) = true :=
      List.mem_takeWhile_imp (p := fun c : CodePoint => !c.isLineBreak) member
    exact (Bool.not_eq_true' _).mp inner
  · intro c first
    have breaks := List.head?_dropWhile_not (fun c : CodePoint => !c.isLineBreak) t
    rw [first] at breaks
    simpa using breaks

theorem getElem?_firstPiece {k : Nat} (inside : k < t.firstPiece.length) :
    ∃ c, t[k]? = some c ∧ t.firstPiece[k]? = some c ∧ c.isLineBreak = false := by
  obtain ⟨rest, split, inner, _⟩ := t.exists_firstPiece
  have there : t[k]? = (t.firstPiece ++ rest)[k]? := congrArg (·[k]?) split
  have here : t.firstPiece[k]? = some t.firstPiece[k] := List.getElem?_eq_getElem inside
  refine ⟨_, ?_, here, inner _ (List.getElem_mem inside)⟩
  rw [there, List.getElem?_append_left inside, here]

theorem exists_break (more : t.firstPiece.length < t.length) :
    ∃ c, t[t.firstPiece.length]? = some c ∧ c.isLineBreak = true := by
  obtain ⟨rest, split, _, breaks⟩ := t.exists_firstPiece
  have there : ∀ k : Nat, t[k]? = (t.firstPiece ++ rest)[k]? := fun k => congrArg (·[k]?) split
  have here : t[t.firstPiece.length]? = rest.head? := by
    rw [there, List.getElem?_append_right (Nat.le_refl _), Nat.sub_self, List.head?_eq_getElem?]
  have found : rest.head? = some t[t.firstPiece.length] :=
    here.symm.trans (List.getElem?_eq_getElem more)
  exact ⟨_, here.trans found, breaks _ found⟩

theorem lines_return {rest : Text} (next : rest.head? = some newline) :
    lines (carriageReturn :: rest) = lines rest := by
  rw [lines, if_pos ⟨rfl, next⟩]

theorem lines_break {c : CodePoint} {rest : Text} (breaks : c.isLineBreak = true)
    (alone : ¬ (c = carriageReturn ∧ rest.head? = some newline)) :
    lines (c :: rest) = [] :: lines rest := by
  rw [lines, if_neg alone, if_pos breaks]

theorem lines_character {c : CodePoint} (rest : Text) (inner : c.isLineBreak = false) :
    lines (c :: rest) = (c :: (lines rest).headD []) :: (lines rest).tail := by
  have alone : ¬ (c = carriageReturn ∧ rest.head? = some newline) := by
    rintro ⟨rfl, _⟩
    exact absurd inner (by decide)
  rw [lines, if_neg alone, inner, if_neg Bool.false_ne_true]
  cases lines rest <;> rfl

theorem break_cases (c : CodePoint) (rest : Text) :
    (c = carriageReturn ∧ rest.head? = some newline) ∨
      (c.isLineBreak = true ∧ ¬ (c = carriageReturn ∧ rest.head? = some newline)) ∨
      c.isLineBreak = false := by
  by_cases pair : c = carriageReturn ∧ rest.head? = some newline
  · exact .inl pair
  · cases breaks : c.isLineBreak with
    | true => exact .inr (.inl ⟨rfl, pair⟩)
    | false => exact .inr (.inr rfl)

theorem head?_lines (inhabited : t ≠ []) : (lines t).head? = some t.firstPiece := by
  induction t with
  | nil => exact absurd rfl inhabited
  | cons c rest ih =>
      rcases break_cases c rest with ⟨rfl, next⟩ | ⟨breaks, alone⟩ | inner
      · obtain ⟨back, rfl⟩ := List.head?_eq_some_iff.mp next
        rw [lines_return next, ih (List.cons_ne_nil _ _)]
        rfl
      · rw [lines_break breaks alone, List.head?_cons, firstPiece,
          List.takeWhile_cons_of_neg (by simp [breaks])]
      · rw [lines_character rest inner, List.head?_cons, firstPiece,
          List.takeWhile_cons_of_pos (by simp [inner]), List.headD_eq_head?_getD]
        cases rest with
        | nil => rfl
        | cons d back =>
            rw [ih (List.cons_ne_nil _ _)]
            rfl

theorem lines_ne_nil (inhabited : t ≠ []) : lines t ≠ [] := by
  intro none
  have first := head?_lines inhabited
  rw [none] at first
  cases first

theorem lines_append_newline (front rest : Text) :
    lines (front ++ newline :: rest) = lines (front ++ [newline]) ++ lines rest := by
  induction front with
  | nil =>
      have alone : ∀ back : Text, ¬ (newline = carriageReturn ∧ back.head? = some newline) :=
        fun back pair => absurd pair.1 (by decide)
      rw [List.nil_append, List.nil_append, lines_break rfl (alone _), lines_break rfl (alone _)]
      rfl
  | cons c front ih =>
      have next : (front ++ newline :: rest).head? = (front ++ [newline]).head? := by
        cases front <;> rfl
      rw [List.cons_append, List.cons_append]
      rcases break_cases c (front ++ [newline]) with ⟨rfl, follows⟩ | ⟨breaks, alone⟩ | inner
      · rw [lines_return (next.trans follows), lines_return follows, ih]
      · rw [lines_break breaks (next ▸ alone), lines_break breaks alone, ih, List.cons_append]
      · rw [lines_character _ inner, lines_character _ inner, ih]
        cases first : lines (front ++ [newline]) with
        | nil => exact absurd first (lines_ne_nil (by simp))
        | cons line more => rfl

/-- Behind whole lines the pieces begin anew. -/
theorem lines_append (whole : before.Whole) (rest : Text) :
    lines (before ++ rest) = lines before ++ lines rest := by
  rcases whole with rfl | ⟨front, rfl⟩
  · rfl
  · rw [List.append_assoc]
    exact lines_append_newline front rest

theorem infix_of_mem_lines {piece : Text} (member : piece ∈ lines t) : piece <:+: t := by
  induction t generalizing piece with
  | nil => cases member
  | cons c rest ih =>
      rcases break_cases c rest with ⟨rfl, next⟩ | ⟨breaks, alone⟩ | inner
      · rw [lines_return next] at member
        exact (ih member).trans (List.suffix_cons _ _).isInfix
      · rw [lines_break breaks alone] at member
        rcases List.mem_cons.mp member with rfl | later
        · exact List.nil_infix
        · exact (ih later).trans (List.suffix_cons _ _).isInfix
      · rw [lines_character rest inner] at member
        rcases List.mem_cons.mp member with rfl | later
        · -- The first piece is not only inside the text but at its start.
          refine List.IsPrefix.isInfix (List.prefix_cons_inj c |>.mpr ?_)
          cases rest with
          | nil => exact List.nil_prefix
          | cons d back =>
              rw [List.headD_eq_head?_getD, head?_lines (List.cons_ne_nil _ _)]
              exact List.takeWhile_prefix _
        · exact (ih (List.mem_of_mem_tail later)).trans (List.suffix_cons _ _).isInfix

/-- The only breaks are newlines, and carriage returns right before them. -/
def PlainlyBroken (t : Text) : Prop :=
  ∀ front c back, t = front ++ c :: back → c.isLineBreak = true →
    c = newline ∨ (c = carriageReturn ∧ back.head? = some newline)

theorem plainlyBroken_cons (c : CodePoint) (rest : Text) :
    PlainlyBroken (c :: rest) ↔
      (c.isLineBreak = true → c = newline ∨ (c = carriageReturn ∧ rest.head? = some newline)) ∧
        PlainlyBroken rest := by
  constructor
  · intro plain
    refine ⟨plain [] c rest rfl, fun front d back same => ?_⟩
    exact plain (c :: front) d back (congrArg (c :: ·) same)
  · rintro ⟨first, plain⟩ front d back same
    cases front with
    | nil =>
        cases same
        exact first
    | cons e front =>
        cases same
        exact plain front d back rfl

/-- Lines that end in newlines are no fewer pieces than there are newlines, and just as many only if
nothing else breaks them. -/
theorem length_lines_newline (front : Text) :
    (front ++ [newline]).count newline ≤ (lines (front ++ [newline])).length ∧
      ((lines (front ++ [newline])).length = (front ++ [newline]).count newline ↔
        PlainlyBroken (front ++ [newline])) := by
  induction front with
  | nil =>
      refine ⟨Nat.le_refl 1, iff_of_true rfl ((plainlyBroken_cons newline []).mpr ⟨?_, ?_⟩)⟩
      · exact fun _ => .inl rfl
      · intro front c back same
        simp at same
  | cons c front ih =>
      obtain ⟨least, exact⟩ := ih
      rw [List.cons_append, plainlyBroken_cons, ← exact]
      rcases break_cases c (front ++ [newline]) with ⟨rfl, next⟩ | ⟨breaks, alone⟩ | inner
      · have other : carriageReturn ≠ newline := by decide
        rw [lines_return next, List.count_cons_of_ne other]
        exact ⟨least, by simp [next]⟩
      · rw [lines_break breaks alone, List.length_cons]
        by_cases same : c = newline
        · subst same
          rw [List.count_cons_self]
          exact ⟨Nat.succ_le_succ least, by simp⟩
        · rw [List.count_cons_of_ne same]
          refine ⟨Nat.le_succ_of_le least, iff_of_false (by omega) ?_⟩
          rintro ⟨only, _⟩
          rcases only breaks with isNewline | pair
          · exact same isNewline
          · exact alone pair
      · have other : c ≠ newline := by
          rintro rfl
          cases inner
        have more : (lines (front ++ [newline])).tail.length + 1 =
            (lines (front ++ [newline])).length := by
          have some : 0 < (lines (front ++ [newline])).length :=
            List.length_pos_iff.mpr (lines_ne_nil (by simp))
          rw [List.length_tail]
          omega
        rw [lines_character _ inner, List.length_cons, more, List.count_cons_of_ne other]
        exact ⟨least, by simp [inner]⟩

theorem length_lines_of_plain (whole : before.Whole) (plain : before.PlainlyBroken) :
    (lines before).length = before.count newline := by
  rcases whole with rfl | ⟨front, rfl⟩
  · rfl
  · exact (length_lines_newline front).2.mpr plain

theorem count_lt_length_lines (whole : before.Whole) (other : ¬ before.PlainlyBroken) :
    before.count newline < (lines before).length := by
  rcases whole with rfl | ⟨front, rfl⟩
  · refine absurd (fun front c back same => ?_) other
    simp at same
  · obtain ⟨least, exact⟩ := length_lines_newline front
    exact Nat.lt_of_le_of_ne least fun same => other (exact.mp same.symm)

namespace OnLine

theorem lines_eq (on : t.OnLine position before line after) :
    lines t = lines before ++ lines (line ++ after) := by
  rw [on.text_eq, List.append_assoc, lines_append on.whole]

theorem firstPiece_append (on : t.OnLine position before line after) :
    (line ++ after).firstPiece = line.firstPiece := by
  have behind : after.firstPiece = [] := by
    rcases on.ends with rfl | ⟨back, rfl⟩
    · rfl
    · rfl
  rw [firstPiece, firstPiece, List.takeWhile_append]
  split
  · rename_i inner
    change line ++ after.firstPiece = _
    rw [behind, List.append_nil]
    exact (List.IsPrefix.eq_of_length (List.takeWhile_prefix _) inner).symm
  · rfl

/-- Where only newlines break the lines before, the piece with the number of the line is its own
first one; at the very end of the text there is no such piece. -/
theorem lines_at_of_plain (on : t.OnLine position before line after)
    (plain : before.PlainlyBroken) :
    (lines t)[before.count newline]? =
      if line ++ after = [] then none else some line.firstPiece := by
  rw [on.lines_eq, ← length_lines_of_plain on.whole plain,
    List.getElem?_append_right (Nat.le_refl _), Nat.sub_self, ← List.head?_eq_getElem?]
  split
  · rename_i last
    rw [last]
    rfl
  · rename_i inhabited
    rw [head?_lines inhabited, on.firstPiece_append]

/-- Another break in the lines before moves an earlier piece to the number of the line. -/
theorem lines_at_of_not_plain (on : t.OnLine position before line after)
    (other : ¬ before.PlainlyBroken) :
    ∃ piece, (lines t)[before.count newline]? = some piece ∧ piece <:+: before := by
  have inside := count_lt_length_lines on.whole other
  refine ⟨(lines before)[before.count newline], ?_, infix_of_mem_lines (List.getElem_mem inside)⟩
  rw [on.lines_eq, List.getElem?_append_left inside, List.getElem?_eq_getElem inside]

end OnLine

end Descent.Text
