import Descent.Text.Basic
import Mathlib.Data.Nat.Init

/-! Texts that are cut at a mark, and put together again. -/

namespace Descent.Text

theorem split_ne_nil (mark : CodePoint) (t : Text) : split mark t ≠ [] := by
  cases t with
  | nil => exact List.cons_ne_nil _ _
  | cons c rest =>
      rw [split]
      split
      · exact List.cons_ne_nil _ _
      · split <;> exact List.cons_ne_nil _ _

theorem split_append_cons {mark : CodePoint} {line : Text} (missing : mark ∉ line)
    (rest : Text) : split mark (line ++ mark :: rest) = line :: split mark rest := by
  induction line with
  | nil => rw [List.nil_append, split, if_pos rfl]
  | cons c line ih =>
      have other := List.ne_of_not_mem_cons missing
      have later := List.not_mem_of_not_mem_cons missing
      rw [List.cons_append, split, if_neg (Ne.symm other), ih later]

/-- A text is a line without the mark, or such a line with the mark and a text behind it. -/
@[elab_as_elim] theorem lines_induction (mark : CodePoint) {motive : Text → Prop}
    (last : ∀ line, mark ∉ line → motive line)
    (next : ∀ line rest, mark ∉ line → motive rest → motive (line ++ mark :: rest)) (t : Text) :
    motive t := by
  induction size : t.length using Nat.strong_induction_on generalizing t with
  | _ n ih =>
      by_cases marked : mark ∈ t
      · obtain ⟨line, rest, rfl, missing⟩ := List.eq_append_cons_of_mem marked
        rw [List.length_append, List.length_cons] at size
        exact next line rest missing (ih rest.length (by omega) rest rfl)
      · exact last t marked

theorem join_cons (separator piece : Text) {pieces : List Text} (more : pieces ≠ []) :
    join separator (piece :: pieces) = piece ++ separator ++ join separator pieces := by
  cases pieces with
  | nil => exact absurd rfl more
  | cons next pieces => rfl

theorem join_split (mark : CodePoint) (t : Text) : join [mark] (split mark t) = t := by
  induction t using lines_induction mark with
  | last line missing => rw [split_of_not_mem missing, join]
  | next line rest missing ih =>
      rw [split_append_cons missing, join_cons _ _ (split_ne_nil mark rest), ih, List.append_assoc]
      rfl

end Descent.Text
