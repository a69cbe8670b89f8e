import Descent.Proofs.Comment.Document

/-! Why a text is rejected: an open comment, or a closed one with nothing but a banner at its end. -/

namespace Descent.Comment

open Grammar

/-- From `e` on there is a documentation comment with an end, but its last line is only a banner. -/
def EndsInBanner (text : Text) (e : Nat) : Prop :=
  text.hasAt "/**" e = true ∧
    ∃ content, ContentAt text (e + 3) content ∧ IsBanner (lastLine (dropSpace content))

variable {text : Text} {e k : Nat}

theorem documentation_of_not_plain (start : text.hasAt "/*" e = true)
    (notPlain : plainEnd? text e = none) (closed : text.next? "*/" (e + 2) = some k) :
    text.hasAt "/**" e = true ∧ text.next? "*/" (e + 3) = some k := by
  have kind : ¬ (text.hasAt "/**/" e = true ∨ text.hasAt "/**" e = false) := by
    intro kind
    have plain := (plainEnd?_eq_some_iff text e (k + 2)).mpr ⟨k, closed, rfl, kind⟩
    exact absurd (plain.symm.trans notPlain) nofun
  obtain ⟨notEmpty, starred⟩ := not_or.mp kind
  obtain ⟨low, found, before⟩ := (Text.next?_eq_some_iff (by decide)).mp closed
  have later : k ≠ e + 2 := by
    rintro rfl
    exact notEmpty ((hasAt_empty text e).mpr ⟨start, found⟩)
  refine ⟨Bool.eq_true_of_not_eq_false starred, ?_⟩
  exact (Text.next?_eq_some_iff (by decide)).mpr
    ⟨by omega, found, fun m ahead below => before m (by omega) below⟩

/-- A closed documentation comment is refused for its last line and for nothing else. -/
theorem comment_refused_iff (start : text.hasAt "/**" e = true) (low : e + 3 ≤ k)
    (close : text.hasAt "*/" k = true) :
    documentationComment.matchAt? text e = none ↔ EndsInBanner text e := by
  constructor
  · intro refused
    obtain ⟨m, next⟩ := Text.exists_next? (by decide) low close
    have content := ContentAt.of_next? next
    refine ⟨start, _, content, ?_⟩
    by_contra whole
    have found : Meaning [] text documentationComment e _ :=
      (documentationComment_of_content start content).2 whole
    have there := (Grammar.matchAt?_eq_some_iff _ text e _ _).mpr found
    exact absurd (there.symm.trans refused) nofun
  · rintro ⟨_, content, stands, banner⟩
    obtain ⟨f, fails⟩ : ∃ f, Meaning [] text documentationComment e (.failed f) :=
      (documentationComment_of_content start stands).1 banner
    exact Grammar.matchAt?_of_failed fails

theorem closed_iff_of_stuck (stuck : step text e = .stuck) :
    (∃ k, e + 2 ≤ k ∧ text.hasAt "*/" k = true) ↔ EndsInBanner text e := by
  cases reads_of_step stuck with
  | stuck start notPlain _ noComment =>
      constructor
      · rintro ⟨m, low, found⟩
        obtain ⟨k, next⟩ := Text.exists_next? (by decide) low found
        obtain ⟨starred, closed⟩ := documentation_of_not_plain start notPlain next
        obtain ⟨ahead, close, _⟩ := (Text.next?_eq_some_iff (by decide)).mp closed
        obtain ⟨f, fails⟩ := noComment
        apply (comment_refused_iff starred ahead close).mp
        exact Grammar.matchAt?_of_failed fails
      · rintro ⟨_, content, stands, _⟩
        exact ⟨_, by omega, stands.close⟩

/-- A text is rejected at a comment in stars, and the comment is open unless its last line is only a
banner. For no other reason is a closed documentation comment refused. -/
theorem rejected_open_iff (text name : Text) :
    (∀ r, document.run text name = .done r → r.succeeded = false →
      text.hasAt "/*" r.stop = true ∧
        ((∀ k, r.stop + 2 ≤ k → text.hasAt "*/" k = false) ↔ ¬ EndsInBanner text r.stop)) ∧
    (∀ e k, text.hasAt "/**" e = true → e + 3 ≤ k → text.hasAt "*/" k = true →
      (documentationComment.matchAt? text e = none ↔ EndsInBanner text e)) := by
  refine ⟨?_, fun e k start low close => comment_refused_iff start low close⟩
  intro r ends fails
  have answer := (document_yields text name).outcome_eq.symm.trans ends
  obtain ⟨k, _, last⟩ := documentationComments_matched text
  rcases last with ⟨_, none⟩ | ⟨stuck, some⟩
  · rw [Scan.answer, none] at answer
    cases answer
    simp at fails
  · rw [Scan.answer, some] at answer
    cases answer
    cases reads_of_step stuck with
    | stuck start _ _ _ =>
        refine ⟨start, ?_⟩
        change (∀ m, k + 2 ≤ m → text.hasAt "*/" m = false) ↔ ¬ EndsInBanner text k
        rw [← closed_iff_of_stuck stuck]
        simp only [not_exists, not_and, Bool.not_eq_true]

/-- An open comment behind a closed one. -/
theorem rejected_open_iff_second :
    ∃ text : Text, text = "/**a*//*" ∧
      document.run text [] = .done (.failure (({ text, name := [] } : Body).cursor 6) 6) ∧
      (text.hasAt "/*" 6 = true ∧
        ((∀ k, 6 + 2 ≤ k → text.hasAt "*/" k = false) ↔ ¬ EndsInBanner text 6)) ∧
      (text.hasAt "/**" 0 = true ∧ text.hasAt "*/" 4 = true ∧
        (documentationComment.matchAt? text 0 = none ↔ EndsInBanner text 0)) :=
  ⟨_, rfl, rfl, (rejected_open_iff "/**a*//*" []).1 _ rfl rfl, rfl, rfl,
    (rejected_open_iff "/**a*//*" []).2 0 4 rfl (by decide) rfl⟩

/-- A closed comment is rejected if all of its last line is a star between two spaces. -/
theorem rejects_closed_banner :
    ∃ text : Text, text = "/**\n * */" ∧
      document.run text [] = .done (.failure (({ text, name := [] } : Body).cursor 0) 0) ∧
      text.hasAt "*/" 7 = true :=
  ⟨_, rfl, rfl, rfl⟩

end Descent.Comment
