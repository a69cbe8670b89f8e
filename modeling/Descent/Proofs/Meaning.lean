import Descent.Grammar.Parse
import Descent.Proofs.Occurrence

/-! What grammars mean at a position of a text, with neither cursors nor bounds. -/

namespace Descent

def Maybe.prepend (values : List Payload) : Maybe → Maybe
  | { present := true, value := .list rest } => .just (.list (values ++ rest))
  | m => m

@[simp] theorem Maybe.prepend_list (values rest : List Payload) :
    (Maybe.just (.list rest)).prepend values = .just (.list (values ++ rest)) := rfl

theorem Maybe.prepend_prepend (values more : List Payload) (m : Maybe) :
    (m.prepend more).prepend values = m.prepend (values ++ more) := by
  obtain ⟨present, value⟩ := m
  cases present <;> cases value <;> simp [prepend, just]

/-- A match with its payload and its end, the place where it gives up, or what an applied function
stopped with. -/
inductive Answer where
  | matched (value : Maybe) (stop : Nat)
  | failed (position : Nat)
  | raised (fault : Fault)

namespace Answer

@[simp] def isMatch : Answer → Bool
  | matched .. => true
  | _ => false

@[simp] def isFailure : Answer → Bool
  | failed _ => true
  | _ => false

def character (accepts : CodePoint → Bool) (text : Text) (i : Nat) : Answer :=
  match text[i]? with
  | some x => if accepts x then matched (.just (.text [x])) (i + 1) else failed i
  | none => failed i

def word (w text : Text) (i : Nat) : Answer :=
  if i ≤ text.length ∧ text.hasAt w i then matched (.just (.text w)) (i + w.length)
  else failed i

def wordIgnoringCase (w text : Text) (i : Nat) : Answer :=
  let piece := (text.drop i).take w.length
  let small := Text.lower w
  if piece.length = w.length ∧ Text.lower piece = small then
    matched (.just (.text small)) (i + w.length)
  else failed i

def endOfText (text : Text) (i : Nat) : Answer :=
  if i = text.length then matched (.just (.text [])) i else failed i

@[simp] def prepend (values : List Payload) : Answer → Answer
  | matched value stop => matched (value.prepend values) stop
  | failed position => failed position
  | raised fault => raised fault

/-- From position `i` on, and inside the text unless `i` is already outside. -/
def Within (text : Text) (i : Nat) : Answer → Prop
  | matched _ stop => i ≤ stop ∧ stop ≤ max i text.length
  | failed position => i ≤ position ∧ position ≤ max i text.length
  | raised _ => True

theorem Within.prepend {text : Text} {i : Nat} {answer : Answer} (within : answer.Within text i)
    (values : List Payload) : (answer.prepend values).Within text i := by
  cases answer <;> exact within

theorem Within.trans {text : Text} {i j : Nat} {value : Maybe} {answer : Answer}
    (first : (matched value j).Within text i) (later : answer.Within text j) :
    answer.Within text i := by
  cases answer with
  | matched value stop => simp only [Within] at *; omega
  | failed position => simp only [Within] at *; omega
  | raised fault => trivial

theorem character_within (accepts : CodePoint → Bool) (text : Text) (i : Nat) :
    (character accepts text i).Within text i := by
  unfold character
  split
  · rename_i x found
    have inside : i < text.length := (List.getElem?_eq_some_iff.mp found).1
    split <;> simp only [Within] <;> omega
  · simp only [Within]; omega

theorem word_within (w text : Text) (i : Nat) : (word w text i).Within text i := by
  unfold word
  split
  · rename_i found
    obtain ⟨inside, starts⟩ := found
    have long := ((Text.hasAt_iff text w i).mp starts).length_le
    rw [List.length_drop] at long
    simp only [Within]; omega
  · simp only [Within]; omega

theorem wordIgnoringCase_within (w text : Text) (i : Nat) :
    (wordIgnoringCase w text i).Within text i := by
  simp only [wordIgnoringCase]
  split
  · rename_i found
    have long := found.1
    rw [List.length_take, List.length_drop] at long
    simp only [Within]; omega
  · simp only [Within]; omega

theorem endOfText_within (text : Text) (i : Nat) : (endOfText text i).Within text i := by
  unfold endOfText
  split <;> simp only [Within] <;> omega

end Answer

/-- The answers of a grammar. Where there is none, the grammar runs on forever. -/
inductive Meaning (defs : Definitions) (text : Text) : Grammar → Nat → Answer → Prop where
  | oneOf (set : Text) (i : Nat) :
      Meaning defs text (.oneOf set) i (.character (· ∈ set) text i)
  | noneOf (set : Text) (i : Nat) :
      Meaning defs text (.noneOf set) i (.character (· ∉ set) text i)
  | word (w : Text) (i : Nat) : Meaning defs text (.word w) i (.word w text i)
  | wordIgnoringCase (w : Text) (i : Nat) :
      Meaning defs text (.wordIgnoringCase w) i (.wordIgnoringCase w text i)
  | endOfText (i : Nat) : Meaning defs text .endOfText i (.endOfText text i)
  | sequence_nil (i : Nat) :
      Meaning defs text (.sequence []) i (.matched (.just (.list [])) i)
  | sequence_stop {part : Grammar} {parts : List Grammar} {i : Nat} {a : Answer}
      (first : Meaning defs text part i a) (stops : a.isMatch = false) :
      Meaning defs text (.sequence (part :: parts)) i a
  | sequence_next {part : Grammar} {parts : List Grammar} {i j : Nat} {value : Maybe} {a : Answer}
      (first : Meaning defs text part i (.matched value j))
      (later : Meaning defs text (.sequence parts) j a) :
      Meaning defs text (.sequence (part :: parts)) i (a.prepend value.toList)
  | choice_nil (deepest : Bool) (i : Nat) : Meaning defs text (.choice deepest []) i (.failed i)
  | choice_first {deepest : Bool} {part : Grammar} {parts : List Grammar} {i : Nat} {a : Answer}
      (first : Meaning defs text part i a) (holds : a.isFailure = false) :
      Meaning defs text (.choice deepest (part :: parts)) i a
  | choice_later {deepest : Bool} {part : Grammar} {parts : List Grammar} {i e : Nat} {a : Answer}
      (first : Meaning defs text part i (.failed e))
      (later : Meaning defs text (.choice deepest parts) i a) (holds : a.isFailure = false) :
      Meaning defs text (.choice deepest (part :: parts)) i a
  /-- The furthest failure, or without `deepest` the start. -/
  | choice_failed {deepest : Bool} {part : Grammar} {parts : List Grammar} {i e f : Nat}
      (first : Meaning defs text part i (.failed e))
      (later : Meaning defs text (.choice deepest parts) i (.failed f)) :
      Meaning defs text (.choice deepest (part :: parts)) i
        (.failed (if deepest then max e f else i))
  | both_nil {first : Grammar} {i : Nat} {a : Answer} (alone : Meaning defs text first i a) :
      Meaning defs text (.both first []) i a
  | both_first {first : Grammar} {others : List Grammar} {i : Nat} {a : Answer}
      (stop : Meaning defs text first i a) (stops : a.isMatch = false) :
      Meaning defs text (.both first others) i a
  | both_other {first part : Grammar} {others : List Grammar} {i j : Nat} {value : Maybe}
      {a : Answer} (start : Meaning defs text first i (.matched value j))
      (stop : Meaning defs text part i a) (stops : a.isMatch = false) :
      Meaning defs text (.both first (part :: others)) i a
  | both_next {first part : Grammar} {others : List Grammar} {i j k : Nat} {value other : Maybe}
      {a : Answer} (start : Meaning defs text first i (.matched value j))
      (check : Meaning defs text part i (.matched other k))
      (later : Meaning defs text (.both first others) i a) :
      Meaning defs text (.both first (part :: others)) i a
  | many_failed {part : Grammar} {i e : Nat} (last : Meaning defs text part i (.failed e)) :
      Meaning defs text (.many part) i (.matched (.just (.list [])) i)
  | many_still {part : Grammar} {i j : Nat} {value : Maybe}
      (last : Meaning defs text part i (.matched value j)) (still : j ≤ i) :
      Meaning defs text (.many part) i (.matched (.just (.list [])) i)
  | many_raised {part : Grammar} {i : Nat} {fault : Fault}
      (last : Meaning defs text part i (.raised fault)) :
      Meaning defs text (.many part) i (.raised fault)
  | many_next {part : Grammar} {i j : Nat} {value : Maybe} {a : Answer}
      (first : Meaning defs text part i (.matched value j)) (advances : i < j)
      (later : Meaning defs text (.many part) j a) :
      Meaning defs text (.many part) i (a.prepend value.toList)
  | skip_matched {part : Grammar} {i j : Nat} {value : Maybe}
      (inner : Meaning defs text part i (.matched value j)) :
      Meaning defs text (.skip part) i (.matched .nothing j)
  | skip_stop {part : Grammar} {i : Nat} {a : Answer} (inner : Meaning defs text part i a)
      (stops : a.isMatch = false) : Meaning defs text (.skip part) i a
  | option_some {default : Maybe} {part : Grammar} {i : Nat} {a : Answer}
      (inner : Meaning defs text part i a) (holds : a.isFailure = false) :
      Meaning defs text (.option default part) i a
  | option_none {default : Maybe} {part : Grammar} {i e : Nat}
      (inner : Meaning defs text part i (.failed e)) :
      Meaning defs text (.option default part) i (.matched default i)
  | peek_matched {part : Grammar} {i j : Nat} {value : Maybe}
      (inner : Meaning defs text part i (.matched value j)) :
      Meaning defs text (.peek part) i (.matched value i)
  | peek_stop {part : Grammar} {i : Nat} {a : Answer} (inner : Meaning defs text part i a)
      (stops : a.isMatch = false) : Meaning defs text (.peek part) i a
  | not_matched {part : Grammar} {i j : Nat} {value : Maybe}
      (inner : Meaning defs text part i (.matched value j)) :
      Meaning defs text (.not part) i (.failed i)
  /-- Where the part fails, any one character. -/
  | not_failed {part : Grammar} {i e : Nat} (inner : Meaning defs text part i (.failed e)) :
      Meaning defs text (.not part) i (.character (fun _ => true) text i)
  | not_raised {part : Grammar} {i : Nat} {fault : Fault}
      (inner : Meaning defs text part i (.raised fault)) :
      Meaning defs text (.not part) i (.raised fault)
  | map_done {f : Payload → Except Fault Payload} {part : Grammar} {i j : Nat}
      {value image : Payload} (inner : Meaning defs text part i (.matched (.just value) j))
      (applied : f value = .ok image) :
      Meaning defs text (.map f part) i (.matched (.just image) j)
  | map_raised {f : Payload → Except Fault Payload} {part : Grammar} {i j : Nat}
      {value : Payload} {fault : Fault}
      (inner : Meaning defs text part i (.matched (.just value) j))
      (applied : f value = .error fault) : Meaning defs text (.map f part) i (.raised fault)
  | map_absent {f : Payload → Except Fault Payload} {part : Grammar} {i j : Nat} {value : Maybe}
      (inner : Meaning defs text part i (.matched value j)) (absent : value.present = false) :
      Meaning defs text (.map f part) i (.matched value j)
  | map_stop {f : Payload → Except Fault Payload} {part : Grammar} {i : Nat} {a : Answer}
      (inner : Meaning defs text part i a) (stops : a.isMatch = false) :
      Meaning defs text (.map f part) i a
  | rule {name : String} {g : Grammar} {i : Nat} {a : Answer} (found : defs.lookup name = some g)
      (body : Meaning defs text g i a) : Meaning defs text (.rule name) i a
  | rule_undefined {name : String} {i : Nat} (missing : defs.lookup name = none) :
      Meaning defs text (.rule name) i (.raised (.undefined name))

namespace Meaning

variable {defs : Definitions} {text : Text}

/-- No answer lies before the position, and none past the end unless the position does. -/
theorem within {g : Grammar} {i : Nat} {a : Answer} (meaning : Meaning defs text g i a) :
    a.Within text i := by
  induction meaning with
  | oneOf set i => exact Answer.character_within _ _ _
  | noneOf set i => exact Answer.character_within _ _ _
  | word w i => exact Answer.word_within _ _ _
  | wordIgnoringCase w i => exact Answer.wordIgnoringCase_within _ _ _
  | endOfText i => exact Answer.endOfText_within _ _
  | sequence_nil i => simp only [Answer.Within]; omega
  | sequence_stop _ _ first => exact first
  | sequence_next _ _ first later => exact (first.trans later).prepend _
  | choice_nil deepest i => simp only [Answer.Within]; omega
  | choice_first _ _ first => exact first
  | choice_later _ _ _ _ later => exact later
  | choice_failed _ _ first later =>
      simp only [Answer.Within] at *
      split <;> omega
  | both_nil _ alone => exact alone
  | both_first _ _ stop => exact stop
  | both_other _ _ _ _ stop => exact stop
  | both_next _ _ _ _ _ later => exact later
  | many_failed _ _ => simp only [Answer.Within]; omega
  | many_still _ _ _ => simp only [Answer.Within]; omega
  | many_raised _ _ => trivial
  | many_next _ _ _ first later => exact (first.trans later).prepend _
  | skip_matched _ inner => exact inner
  | skip_stop _ _ inner => exact inner
  | option_some _ _ inner => exact inner
  | option_none _ _ => simp only [Answer.Within]; omega
  | peek_matched _ _ => simp only [Answer.Within]; omega
  | peek_stop _ _ inner => exact inner
  | not_matched _ _ => simp only [Answer.Within]; omega
  | not_failed _ _ => exact Answer.character_within _ _ _
  | not_raised _ _ => trivial
  | map_done _ _ inner => exact inner
  | map_raised _ _ _ => trivial
  | map_absent _ _ inner => exact inner
  | map_stop _ _ inner => exact inner
  | rule _ _ body => exact body
  | rule_undefined _ => trivial

theorem le_stop {g : Grammar} {i j : Nat} {value : Maybe}
    (meaning : Meaning defs text g i (.matched value j)) : i ≤ j := meaning.within.1

theorem stop_le {g : Grammar} {i j : Nat} {value : Maybe}
    (meaning : Meaning defs text g i (.matched value j)) : j ≤ max i text.length :=
  meaning.within.2

theorem lt_length {g : Grammar} {i j : Nat} {value : Maybe}
    (meaning : Meaning defs text g i (.matched value j)) (ahead : i < j) : i < text.length := by
  have high := meaning.stop_le
  omega

theorem stop_le_length {g : Grammar} {i j : Nat} {value : Maybe}
    (meaning : Meaning defs text g i (.matched value j)) (ahead : i < j) : j ≤ text.length := by
  have inside := meaning.lt_length ahead
  have high := meaning.stop_le
  omega

theorem choice_false_failed {parts : List Grammar} {i e : Nat}
    (meaning : Meaning defs text (.choice false parts) i (.failed e)) : e = i := by
  cases meaning with
  | choice_nil deepest i => rfl
  | choice_first first holds => simp at holds
  | choice_later first later holds => simp at holds
  | choice_failed first later => rfl

end Meaning

end Descent
