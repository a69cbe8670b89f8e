import Descent.Proofs.Flatten
import Descent.Proofs.Repetition

/-! Words, and the characters up to the next place where something matches. -/

namespace Descent.Meaning

variable {defs : Definitions} {text : Text} {part : Grammar} {i j k e : Nat} {value : Maybe}

theorem word_matched {w : Text} (inhabited : w ≠ []) (found : text.hasAt w i = true) :
    Meaning defs text (.word w) i (.matched (.just (.text w)) (i + w.length)) := by
  have inside := Text.length_le_of_hasAt found inhabited
  have meaning : Meaning defs text (.word w) i _ := .word w i
  rwa [Answer.word, if_pos ⟨by omega, found⟩] at meaning

theorem word_failed {w : Text} (missing : text.hasAt w i = false) :
    Meaning defs text (.word w) i (.failed i) := by
  have meaning : Meaning defs text (.word w) i _ := .word w i
  rwa [Answer.word, if_neg (by simp [missing])] at meaning

theorem hasAt_of_word {w : Text} (inhabited : w ≠ [])
    (meaning : Meaning defs text (.word w) i (.matched value j)) :
    text.hasAt w i = true ∧ j = i + w.length := by
  cases found : text.hasAt w i with
  | false => exact absurd (meaning.unique (word_failed found)) nofun
  | true =>
      have same := meaning.unique (word_matched inhabited found)
      exact ⟨rfl, (Answer.matched.inj same).2⟩

theorem words_matched {words : List Text} (inhabited : ∀ w ∈ words, w ≠ [])
    (found : text.hasAt words.flatten i = true) :
    Meaning defs text (.sequence (words.map .word)) i
      (.matched (.just (.list (words.map .text))) (i + words.flatten.length)) := by
  induction words generalizing i with
  | nil => exact .sequence_nil i
  | cons w words ih =>
      rw [List.flatten_cons, Text.hasAt_append] at found
      have first : Meaning defs text (.word w) i _ :=
        word_matched (inhabited w List.mem_cons_self) found.1
      have later := ih (fun w member => inhabited w (List.mem_cons_of_mem _ member)) found.2
      rw [List.flatten_cons, List.length_append, ← Nat.add_assoc]
      exact .sequence_next first later

theorem words_failed {words : List Text} (inhabited : ∀ w ∈ words, w ≠ [])
    (missing : text.hasAt words.flatten i = false) :
    ∃ e, Meaning defs text (.sequence (words.map .word)) i (.failed e) := by
  induction words generalizing i with
  | nil => simp at missing
  | cons w words ih =>
      cases found : text.hasAt w i with
      | false => exact ⟨i, .sequence_stop (word_failed found) rfl⟩
      | true =>
          have rest : text.hasAt words.flatten (i + w.length) = false := by
            rw [Bool.eq_false_iff]
            intro there
            have whole := (Text.hasAt_append text w words.flatten i).mpr ⟨found, there⟩
            rw [List.flatten_cons, whole] at missing
            exact Bool.false_ne_true missing.symm
          have first : Meaning defs text (.word w) i _ :=
            word_matched (inhabited w List.mem_cons_self) found
          obtain ⟨e, later⟩ :=
            ih (fun w member => inhabited w (List.mem_cons_of_mem _ member)) rest
          exact ⟨e, .sequence_next first later⟩

theorem not_next {x : CodePoint} (fails : Meaning defs text part i (.failed e))
    (here : text[i]? = some x) :
    Meaning defs text (.not part) i (.matched (.just (.text [x])) (i + 1)) := by
  have meaning := Meaning.not_failed fails
  simpa [Answer.character, here] using meaning

theorem not_end (fails : Meaning defs text part i (.failed e)) (ended : text.length ≤ i) :
    Meaning defs text (.not part) i (.failed i) := by
  have outside : text[i]? = none := List.getElem?_eq_none_iff.mpr ended
  have meaning := Meaning.not_failed fails
  simpa [Answer.character, outside] using meaning

theorem many_not (low : i ≤ k) (high : k ≤ text.length)
    (passes : ∀ m, i ≤ m → m < k → ∃ e, Meaning defs text part m (.failed e))
    (stops : Meaning defs text (.not part) k (.failed k)) :
    Meaning defs text (.many (.not part)) i
      (.matched (.just (.list (Payload.characters ((text.drop i).take (k - i))))) k) := by
  induction left : k - i generalizing i with
  | zero =>
      have same : i = k := by omega
      subst same
      exact .many_failed stops
  | succ n ih =>
      have inside : i < text.length := by omega
      obtain ⟨e, fails⟩ := passes i (Nat.le_refl i) (by omega)
      have first := not_next fails (List.getElem?_eq_getElem inside)
      have later := ih (i := i + 1) (by omega) (fun m ahead => passes m (by omega)) (by omega)
      rw [List.drop_eq_getElem_cons inside, List.take_succ_cons]
      exact .many_next first (by omega) later

theorem oneOrMore_not (low : i < k) (high : k ≤ text.length)
    (passes : ∀ m, i ≤ m → m < k → ∃ e, Meaning defs text part m (.failed e))
    (stops : Meaning defs text (.not part) k (.failed k)) :
    Meaning defs text (.oneOrMore (.not part)) i
      (.matched (.just (.list (Payload.characters ((text.drop i).take (k - i))))) k) := by
  have inside : i < text.length := by omega
  obtain ⟨e, fails⟩ := passes i (Nat.le_refl i) low
  have first := not_next fails (List.getElem?_eq_getElem inside)
  have later := many_not (i := i + 1) (by omega) high (fun m ahead => passes m (by omega)) stops
  have whole : (text.drop i).take (k - i) =
      text[i] :: (text.drop (i + 1)).take (k - (i + 1)) := by
    rw [List.drop_eq_getElem_cons inside, show k - i = (k - (i + 1)) + 1 by omega,
      List.take_succ_cons]
  rw [whole]
  exact oneOrMore_iff.mpr (.next first later)

theorem many_oneOf {set front : Text} (found : text.hasAt front i = true)
    (member : ∀ x ∈ front, x ∈ set)
    (stops : ∀ x, text[i + front.length]? = some x → x ∉ set) :
    Meaning defs text (.many (.oneOf set)) i
      (.matched (.just (.list (Payload.characters front))) (i + front.length)) := by
  induction front generalizing i with
  | nil =>
      have last : Meaning defs text (.oneOf set) i (.failed i) := by
        have meaning : Meaning defs text (.oneOf set) i _ := .oneOf set i
        rw [Answer.character] at meaning
        split at meaning
        · rename_i x here
          rwa [if_neg (by simpa using stops x here)] at meaning
        · exact meaning
      exact .many_failed last
  | cons x front ih =>
      obtain ⟨here, rest⟩ := (Text.hasAt_cons text front x i).mp found
      have inside : x ∈ set := member x List.mem_cons_self
      have first : Meaning defs text (.oneOf set) i
          (.matched (.just (.text [x])) (i + 1)) := by
        have meaning : Meaning defs text (.oneOf set) i _ := .oneOf set i
        simpa [Answer.character, here, inside] using meaning
      have shift : i + (x :: front).length = i + 1 + front.length := by
        rw [List.length_cons]
        omega
      rw [shift] at stops ⊢
      exact .many_next first (by omega)
        (ih rest (fun y later => member y (List.mem_cons_of_mem _ later)) stops)

theorem joined {payload : Payload} {t : Text}
    (meaning : Meaning defs text part i (.matched (.just payload) j))
    (flat : payload.flatten = .ok t) :
    Meaning defs text (.joined part) i (.matched (.just (.text t)) j) :=
  .map_done meaning (Payload.joined_of_flatten flat)

theorem sequence_cons_matched {parts : List Grammar}
    (meaning : Meaning defs text (.sequence (part :: parts)) i (.matched value k)) :
    ∃ first j values, Meaning defs text part i (.matched first j) ∧
      Meaning defs text (.sequence parts) j (.matched (.just (.list values)) k) ∧
      value = .just (.list (first.toList ++ values)) := by
  generalize whole : Answer.matched value k = a at meaning
  cases sequence_cons_iff.mp meaning with
  | stop begins stops => subst whole; simp at stops
  | @next j first b begins later =>
      cases b with
      | failed position => simp at whole
      | raised fault => simp at whole
      | matched rest stop =>
          obtain ⟨values, rfl⟩ := later.sequence_list
          rw [Answer.prepend, Maybe.prepend_list] at whole
          obtain ⟨rfl, rfl⟩ := Answer.matched.inj whole
          exact ⟨first, j, values, begins, later, rfl⟩

theorem choice_failed_of_all (deepest : Bool) {parts : List Grammar}
    (each : ∀ part ∈ parts, ∃ e, Meaning defs text part i (.failed e)) :
    ∃ e, Meaning defs text (.choice deepest parts) i (.failed e) := by
  induction parts with
  | nil => exact ⟨i, .choice_nil deepest i⟩
  | cons part parts ih =>
      obtain ⟨e, first⟩ := each part List.mem_cons_self
      obtain ⟨f, later⟩ := ih fun part member => each part (List.mem_cons_of_mem _ member)
      exact ⟨_, .choice_failed first later⟩

theorem choice_of_front (deepest : Bool) {front back : List Grammar}
    (each : ∀ part ∈ front, ∃ e, Meaning defs text part i (.failed e))
    (found : Meaning defs text part i (.matched value j)) :
    Meaning defs text (.choice deepest (front ++ part :: back)) i (.matched value j) := by
  induction front with
  | nil => exact .choice_first found rfl
  | cons other front ih =>
      obtain ⟨e, first⟩ := each other List.mem_cons_self
      exact .choice_later first
        (ih fun part member => each part (List.mem_cons_of_mem _ member)) rfl

theorem choice_matched {deepest : Bool} {parts : List Grammar}
    (meaning : Meaning defs text (.choice deepest parts) i (.matched value j)) :
    ∃ part ∈ parts, Meaning defs text part i (.matched value j) := by
  induction parts with
  | nil => cases meaning
  | cons part parts ih =>
      cases meaning with
      | choice_first first _ => exact ⟨part, List.mem_cons_self, first⟩
      | choice_later _ later _ =>
          obtain ⟨other, member, found⟩ := ih later
          exact ⟨other, List.mem_cons_of_mem _ member, found⟩

theorem both_matched {first : Grammar} {others : List Grammar}
    (meaning : Meaning defs text (.both first others) i (.matched value j)) :
    Meaning defs text first i (.matched value j) := by
  induction others with
  | nil =>
      cases meaning with
      | both_nil alone => exact alone
      | both_first _ stops => simp at stops
  | cons part others ih =>
      cases meaning with
      | both_first _ stops => simp at stops
      | both_other _ _ stops => simp at stops
      | both_next _ _ later => exact ih later

theorem map_matched {f : Payload → Except Fault Payload}
    (meaning : Meaning defs text (.map f part) i (.matched value j)) :
    ∃ inner, Meaning defs text part i (.matched inner j) := by
  cases meaning with
  | map_done inner _ => exact ⟨_, inner⟩
  | map_absent inner _ => exact ⟨_, inner⟩
  | map_stop inner stops => simp at stops

theorem map_carry {text' : Text} {f : Payload → Except Fault Payload}
    (carry : ∀ inner, Meaning defs text part i (.matched inner j) →
      Meaning defs text' part i (.matched inner j))
    (meaning : Meaning defs text (.map f part) i (.matched value j)) :
    Meaning defs text' (.map f part) i (.matched value j) := by
  cases meaning with
  | map_done found applied => exact .map_done (carry _ found) applied
  | map_absent found absent => exact .map_absent (carry _ found) absent
  | map_stop _ stops => simp at stops

theorem skip_matched_inner (meaning : Meaning defs text (.skip part) i (.matched value j)) :
    ∃ inner, Meaning defs text part i (.matched inner j) := by
  cases meaning with
  | skip_matched inner => exact ⟨_, inner⟩
  | skip_stop inner stops => simp at stops

theorem peek_matched_inner (meaning : Meaning defs text (.peek part) i (.matched value j)) :
    j = i ∧ ∃ k, Meaning defs text part i (.matched value k) := by
  cases meaning with
  | peek_matched inner => exact ⟨rfl, _, inner⟩
  | peek_stop inner stops => simp at stops

theorem not_matched_inner (meaning : Meaning defs text (.not part) i (.matched value j)) :
    ∃ e, Meaning defs text part i (.failed e) := by
  generalize whole : Answer.matched value j = a at meaning
  cases meaning with
  | not_matched inner => cases whole
  | not_failed inner => exact ⟨_, inner⟩
  | not_raised inner => cases whole

end Descent.Meaning
