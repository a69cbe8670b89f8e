import Descent.Comment.Extract
import Descent.Proofs.Comment.Document

/-! What the extraction of comments from a text comes to. -/

namespace Descent.Comment

theorem assemble_texts (texts : List Text) :
    assemble (.list (texts.map .text)) = .ok (texts.length, Text.join "\n\n" texts) := by
  have collected : (texts.map Payload.text).mapM Payload.text? = some texts := by
    induction texts with
    | nil => rfl
    | cons t texts ih => simp [List.mapM_cons, ih, Payload.text?]
  rw [assemble, collected]

def Scan.extraction (s : Scan) (r : Result) : Extraction :=
  match s.stuck? with
  | none =>
    { outcome := .ok (Text.join "\n\n" s.bodies)
      log := [r.record, foundRecord s.bodies.length] }
  | some _ => { outcome := .error r.error, log := [r.record] }

theorem extract_of_run {text name : Text} {r : Result} (run : document.run text name = .done r) :
    extract text name = .done ((scan text 0).extraction r) := by
  have answer := (document_yields text name).outcome_eq.symm.trans run
  rw [extract, run, Scan.extraction]
  rw [Scan.answer] at answer
  cases ends : (scan text 0).stuck? with
  | some e =>
      rw [ends] at answer
      cases answer
      rfl
  | none =>
      rw [ends] at answer
      cases answer
      simp only [Outcome.bind_done, Result.unwrap, Result.verdict, Verdict.unwrap, Maybe.just,
        assemble_texts, Outcome.ofExcept]
      rfl

theorem exists_extract_eq (source name : Text) :
    ∃ r, extract source name = .done ((scan source 0).extraction r) := by
  have yields := (document_yields source name).outcome_eq
  rw [Scan.answer] at yields
  cases ends : (scan source 0).stuck? with
  | none =>
      rw [ends] at yields
      exact ⟨_, extract_of_run yields⟩
  | some e =>
      rw [ends] at yields
      exact ⟨_, extract_of_run yields⟩

/-- Every source gives the text of its comments or a report. -/
theorem extract_returns (source name : Text) : ∃ e, extract source name = .done e := by
  obtain ⟨r, scanned⟩ := exists_extract_eq source name
  exact ⟨_, scanned⟩

theorem outcome_of_scan {source name : Text} {bodies : List Text} {e : Extraction}
    (pass : scan source 0 = { bodies, stuck? := none }) (extracted : extract source name = .done e) :
    e.outcome = .ok (Text.join "\n\n" bodies) := by
  obtain ⟨r, scanned⟩ := exists_extract_eq source name
  rw [pass] at scanned
  cases scanned.symm.trans extracted
  rfl

end Descent.Comment
