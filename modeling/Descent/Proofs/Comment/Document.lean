import Descent.Grammar.Run
import Descent.Proofs.Comment.Scanner

/-! The grammar of a whole text finds what the pass over it finds. -/

namespace Descent.Comment

open Grammar

variable {text : Text} {i j k : Nat}

theorem many_piece (text : Text) (i : Nat) :
    ∃ values k, Meaning [] text (.many piece) i (.matched (.just (.list values)) k) ∧
      (∀ v ∈ values, v.Textual) ∧ scan text i = scan text k ∧
      ∀ stop, step text k ≠ .skip stop := by
  -- Every skip leaves less of the text.
  induction left : text.length - i using Nat.strong_induction_on generalizing i with
  | _ n ih =>
      by_cases skips : ∃ stop, step text i = .skip stop
      · obtain ⟨stop, here⟩ := skips
        obtain ⟨inside, ahead⟩ := lt_of_step_skip here
        cases reads_of_step here with
        | @skip t _ _ found =>
            obtain ⟨values, k, later, each, same, last⟩ :=
              ih (text.length - stop) (by omega) stop rfl
            refine ⟨.text t :: values, k, .many_next found ahead later, ?_,
              (scan_skip here).trans same, last⟩
            exact List.forall_mem_cons.mpr ⟨⟨t, Payload.flatten_text t⟩, each⟩
      · have stays : ∀ stop, step text i ≠ .skip stop := fun stop here => skips ⟨stop, here⟩
        obtain ⟨e, fails⟩ := (step_reads text i).piece_failed stays
        exact ⟨[], i, .many_failed fails, by simp, rfl, stays⟩

theorem filler_matched (text : Text) (i : Nat) :
    ∃ t k, Meaning [] text filler i (.matched (.just (.text t)) k) ∧
      scan text i = scan text k ∧ ∀ stop, step text k ≠ .skip stop := by
  obtain ⟨values, k, pieces, each, same, last⟩ := many_piece text i
  obtain ⟨t, flat⟩ := Payload.textual_list each
  exact ⟨t, k, pieces.joined flat, same, last⟩

def EndsAt (text : Text) (k : Nat) (stuck? : Option Nat) : Prop :=
  (step text k = .finished ∧ stuck? = none) ∨ (step text k = .stuck ∧ stuck? = some k)

theorem EndsAt.comment_failed {stuck? : Option Nat} (ends : EndsAt text k stuck?) :
    ∃ e, Meaning [] text documentationComment k (.failed e) := by
  rcases ends with ⟨here, _⟩ | ⟨here, _⟩
  · cases reads_of_step here with
    | finished _ _ noComment => exact noComment
  · cases reads_of_step here with
    | stuck _ _ _ noComment => exact noComment

theorem EndsAt.filler_matched {stuck? : Option Nat} (ends : EndsAt text k stuck?) :
    Meaning [] text filler k (.matched (.just (.text [])) k) := by
  have stays : ∀ stop, step text k ≠ .skip stop := by
    intro stop skips
    rcases ends with ⟨here, _⟩ | ⟨here, _⟩ <;> rw [here] at skips <;> cases skips
  obtain ⟨e, fails⟩ := (step_reads text k).piece_failed stays
  exact (Meaning.many_failed fails).joined Payload.flatten_nil

theorem EndsAt.scan_eq {stuck? : Option Nat} (ends : EndsAt text k stuck?) :
    scan text k = { bodies := [], stuck? } := by
  rcases ends with ⟨here, rfl⟩ | ⟨here, rfl⟩
  · exact scan_finished here
  · exact scan_stuck here

theorem emit_or_endsAt (stays : ∀ stop, step text k ≠ .skip stop) :
    (∃ body stop, step text k = .emit body stop) ∨ ∃ stuck?, EndsAt text k stuck? := by
  cases here : step text k with
  | finished => exact .inr ⟨none, .inl ⟨here, rfl⟩⟩
  | skip stop => exact absurd here (stays stop)
  | emit body stop => exact .inl ⟨body, stop, rfl⟩
  | stuck => exact .inr ⟨some k, .inr ⟨here, rfl⟩⟩

/-- The comments from `i` on with the filler before each, up to the filler at the end. -/
theorem comments_repeat (text : Text) (i : Nat) :
    ∃ (bodies : List Text) (k l : Nat) (t : Text) (stuck? : Option Nat),
      Repeats Maybe.items (Meaning [] text (.sequence [.skip filler, documentationComment])) i
        (.matched (.just (.list (bodies.map .text))) k) ∧
      Meaning [] text filler k (.matched (.just (.text t)) l) ∧ EndsAt text l stuck? ∧
      scan text i = { bodies, stuck? } := by
  -- Every comment leaves less of the text, whatever filler comes before it.
  induction left : text.length - i using Nat.strong_induction_on generalizing i with
  | _ n ih =>
      obtain ⟨t, k, pieces, same, stays⟩ := filler_matched text i
      have passed : Meaning [] text (.skip filler) i (.matched .nothing k) := .skip_matched pieces
      rcases emit_or_endsAt stays with ⟨body, stop, here⟩ | ⟨stuck?, ends⟩
      · obtain ⟨inside, ahead⟩ := lt_of_step_emit here
        cases reads_of_step here with
        | emit _ _ found =>
            have before := pieces.le_stop
            obtain ⟨bodies, l, m, u, stuck?, later, last, ends, rest⟩ :=
              ih (text.length - stop) (by omega) stop rfl
            have group : Meaning [] text (.sequence [.skip filler, documentationComment]) i
                (.matched (.just (.list [.text body])) stop) :=
              .sequence_next passed found.sequence_singleton
            refine ⟨body :: bodies, l, m, u, stuck?, .next group (by omega) later, last, ends, ?_⟩
            rw [same, scan_emit here, rest]
      · obtain ⟨e, fails⟩ := ends.comment_failed
        have nothing : Meaning [] text (.sequence [.skip filler, documentationComment]) i
            (.failed e) := .sequence_next passed (.sequence_stop fails rfl)
        exact ⟨[], i, k, t, stuck?, .failed nothing, pieces, ends, same.trans ends.scan_eq⟩

theorem documentationComments_matched (text : Text) :
    ∃ (k : Nat), Meaning [] text documentationComments 0
        (.matched (.just (.list ((scan text 0).bodies.map .text))) k) ∧
      EndsAt text k (scan text 0).stuck? := by
  obtain ⟨t, j, pieces, same, stays⟩ := filler_matched text 0
  have first : Meaning [] text (.skip (optional filler)) 0 (.matched .nothing j) :=
    .skip_matched (.option_some pieces rfl)
  rcases emit_or_endsAt stays with ⟨body, stop, here⟩ | ⟨stuck?, ends⟩
  · cases reads_of_step here with
    | emit _ _ found =>
        obtain ⟨bodies, k, l, u, stuck?, repeats, last, ends, rest⟩ := comments_repeat text stop
        have comments : Meaning [] text (separatedBy documentationComment (.skip filler)) j
            (.matched (.just (.list (.text body :: bodies.map .text))) k) :=
          Meaning.separatedBy_iff.mpr (.next found repeats)
        have closing : Meaning [] text (.skip (optional filler)) k (.matched .nothing l) :=
          .skip_matched (.option_some last rfl)
        rw [same, scan_emit here, rest]
        exact ⟨l, .map_done (.sequence_next first (.sequence_next (.option_some comments rfl)
          (.sequence_next closing (.sequence_nil l)))) rfl, ends⟩
  · obtain ⟨e, fails⟩ := ends.comment_failed
    have comments : Meaning [] text (separatedBy documentationComment (.skip filler)) j
        (.failed e) := Meaning.separatedBy_iff.mpr (.stop fails rfl)
    have closing : Meaning [] text (.skip (optional filler)) j (.matched .nothing j) :=
      .skip_matched (.option_some ends.filler_matched rfl)
    rw [same, ends.scan_eq]
    exact ⟨j, .map_done (.sequence_next first (.sequence_next (.option_none comments)
      (.sequence_next closing (.sequence_nil j)))) rfl, ends⟩

def Scan.answer (s : Scan) (text : Text) : Answer :=
  match s.stuck? with
  | none => .matched (.just (.list (s.bodies.map .text))) text.length
  | some e => .failed e

theorem document_meaning (text : Text) :
    Meaning [] text document 0 ((scan text 0).answer text) := by
  obtain ⟨k, comments, ends⟩ := documentationComments_matched text
  have last : Meaning [] text .endOfText k _ := .endOfText k
  rcases ends with ⟨here, none⟩ | ⟨here, some⟩
  · cases reads_of_step here with
    | finished ended _ _ =>
        have high := comments.stop_le
        rw [Nat.zero_max] at high
        have same : k = text.length := Nat.le_antisymm high ended
        subst same
        rw [Answer.endOfText, if_pos rfl] at last
        rw [Scan.answer, none]
        exact .map_done (.sequence_next comments last.sequence_singleton) rfl
  · cases reads_of_step here with
    | stuck start _ _ _ =>
        have inside := Text.length_le_of_hasAt start (by decide)
        have long : 0 < ("/*" : Text).length := by decide
        have more : k ≠ text.length := by omega
        rw [Answer.endOfText, if_neg more] at last
        rw [Scan.answer, some]
        exact .map_stop (.sequence_next comments (.sequence_stop last rfl)) rfl

theorem document_yields (text name : Text) :
    Parser.Yields { text, name } (document.parse · []) 0 ((scan text 0).answer text) :=
  Grammar.parse_complete (document_meaning text)

/-- The grammar of a whole text and the pass over it are the same: they accept the same texts, give
the bodies of the same comments in the order of the text, and stop at the same positions. -/
theorem document_run_eq_scan (text name : Text) :
    document.run text name =
      ((scan text 0).answer text).outcome { text, name } 0 :=
  (document_yields text name).outcome_eq

end Descent.Comment
