import Descent.Proofs.Comment.Banner
import Descent.Proofs.Comment.Extraction

/-! The comments of a source have no characters but those of the source. -/

namespace Descent

namespace Text

theorem between_sublist (text : Text) (i j : Nat) : (text.between i j).Sublist text :=
  (List.drop_sublist i _).trans (List.take_sublist j text)

theorem mem_join {separator : Text} {pieces : List Text} {c : CodePoint}
    (member : c ∈ join separator pieces) : c ∈ separator ∨ ∃ piece ∈ pieces, c ∈ piece := by
  induction pieces with
  | nil => exact absurd member List.not_mem_nil
  | cons piece pieces ih =>
      by_cases more : pieces = []
      · subst more
        exact .inr ⟨piece, List.mem_singleton_self piece, member⟩
      · rw [join_cons separator piece more, List.append_assoc, List.mem_append,
          List.mem_append] at member
        rcases member with here | between | later
        · exact .inr ⟨piece, List.mem_cons_self, here⟩
        · exact .inl between
        · refine (ih later).imp_right ?_
          rintro ⟨other, behind, within⟩
          exact ⟨other, List.mem_cons_of_mem piece behind, within⟩

end Text

namespace Comment

open Grammar

variable {text body : Text} {i j : Nat}

theorem dropSpace_suffix (t : Text) : dropSpace t <:+ t := by
  rcases dropSpace_cases t with ⟨rest, whole, dropped⟩ | ⟨kept, _⟩
  · rw [dropped, whole]
    exact List.suffix_cons _ rest
  · rw [kept]

theorem withoutBanners_sublist (content : Text) : (withoutBanners content).Sublist content := by
  induction content using Text.lines_induction '\n' with
  | last line unbroken =>
      rw [withoutBanners_of_not_mem unbroken]
      exact (withoutBanner_suffix line).sublist
  | next line rest unbroken ih =>
      rw [withoutBanners_append_cons unbroken, List.append_assoc]
      exact (withoutBanner_suffix line).sublist.append (ih.cons_cons _)

theorem body_sublist
    (meaning : Meaning [] text documentationComment i (.matched (.just (.text body)) j)) :
    body.Sublist text := by
  obtain ⟨k, _, _, value⟩ := documentationComment_matched meaning
  cases value
  exact (withoutBanners_sublist _).trans ((dropSpace_suffix _).sublist.trans
    (text.between_sublist (i + 3) k))

theorem bodies_sublist (text : Text) (i : Nat) :
    ∀ body ∈ (scan text i).bodies, body.Sublist text := by
  induction i using scan_induction text with
  | finished i here =>
      rw [scan_finished here]
      exact List.forall_mem_nil _
  | stuck i here =>
      rw [scan_stuck here]
      exact List.forall_mem_nil _
  | skip i stop here ih =>
      rw [scan_skip here]
      exact ih
  | emit i body stop here ih =>
      rw [scan_emit here, List.forall_mem_cons]
      refine ⟨?_, ih⟩
      cases reads_of_step here with
      | emit _ _ found => exact body_sublist found

/-- Only the blank lines between the comments may be new. -/
theorem mem_of_mem_extraction {source name : Text} {extraction : Extraction} {c : CodePoint}
    (extracted : extract source name = .done extraction) (accepted : extraction.outcome = .ok text)
    (member : c ∈ text) : c ∈ source ∨ c = '\n' := by
  obtain ⟨r, scanned⟩ := exists_extract_eq source name
  cases scanned.symm.trans extracted
  rw [Scan.extraction] at accepted
  cases ends : (scan source 0).stuck? with
  | some e =>
      rw [ends] at accepted
      cases accepted
  | none =>
      rw [ends] at accepted
      cases accepted
      rcases Text.mem_join member with between | ⟨body, found, within⟩
      · refine .inr ?_
        simpa [Text.ofString] using between
      · exact .inl ((bodies_sublist source 0 body found).mem within)

end Comment

end Descent
