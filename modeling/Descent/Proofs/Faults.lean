import Descent.Proofs.Meaning

/-! What a run may stop with: only mappings and names without definition raise anything. -/

namespace Descent

namespace Grammar

def parts : Grammar → List Grammar
  | sequence parts => parts
  | choice _ parts => parts
  | both first others => first :: others
  | many part | skip part | option _ part | peek part | not part | map _ part => [part]
  | oneOf _ | noneOf _ | word _ | wordIgnoringCase _ | endOfText | rule _ => []

/-- A grammar, its parts and what its names stand for: all that a run of it may run. -/
inductive Runs (defs : Definitions) : Grammar → Grammar → Prop where
  | self (g : Grammar) : Runs defs g g
  | part {g part inner : Grammar} (member : part ∈ g.parts) (runs : Runs defs part inner) :
      Runs defs g inner
  | rule {name : String} {g inner : Grammar} (found : defs.lookup name = some g)
      (runs : Runs defs g inner) : Runs defs (.rule name) inner

inductive Faults (defs : Definitions) (g : Grammar) : Fault → Prop where
  | mapping {f : Payload → Except Fault Payload} {part : Grammar} {value : Payload} {fault : Fault}
      (runs : g.Runs defs (.map f part)) (applied : f value = .error fault) : Faults defs g fault
  | undefined {name : String} (runs : g.Runs defs (.rule name))
      (missing : defs.lookup name = none) : Faults defs g (.undefined name)

namespace Faults

variable {defs : Definitions} {g h inner : Grammar} {fault : Fault}

theorem of_runs (each : ∀ found, inner.Runs defs found → g.Runs defs found)
    (faults : inner.Faults defs fault) : g.Faults defs fault := by
  cases faults with
  | mapping runs applied => exact .mapping (each _ runs) applied
  | undefined runs missing => exact .undefined (each _ runs) missing

theorem of_part (member : inner ∈ g.parts) (faults : inner.Faults defs fault) :
    g.Faults defs fault :=
  faults.of_runs fun _ => .part member

theorem of_rule {name : String} (found : defs.lookup name = some g)
    (faults : g.Faults defs fault) : (Grammar.rule name).Faults defs fault :=
  faults.of_runs fun _ => .rule found

theorem of_parts (faults : g.Faults defs fault) (noMapping : ∀ f part, g ≠ .map f part)
    (noName : ∀ name, g ≠ .rule name) (inherits : ∀ part ∈ g.parts, part ∈ h.parts) :
    h.Faults defs fault := by
  cases faults with
  | mapping runs applied =>
      cases runs with
      | self => exact absurd rfl (noMapping _ _)
      | part member runs => exact .mapping (.part (inherits _ member) runs) applied
      | rule _ _ => exact absurd rfl (noName _)
  | undefined runs missing =>
      cases runs with
      | self => exact absurd rfl (noName _)
      | part member runs => exact .undefined (.part (inherits _ member) runs) missing
      | rule _ _ => exact absurd rfl (noName _)

theorem of_sequence_tail {part : Grammar} {parts : List Grammar}
    (faults : (Grammar.sequence parts).Faults defs fault) :
    (Grammar.sequence (part :: parts)).Faults defs fault :=
  faults.of_parts nofun nofun fun _ => List.mem_cons_of_mem part

theorem of_choice_tail {deepest : Bool} {part : Grammar} {parts : List Grammar}
    (faults : (Grammar.choice deepest parts).Faults defs fault) :
    (Grammar.choice deepest (part :: parts)).Faults defs fault :=
  faults.of_parts nofun nofun fun _ => List.mem_cons_of_mem part

theorem of_both_tail {first part : Grammar} {others : List Grammar}
    (faults : (Grammar.both first others).Faults defs fault) :
    (Grammar.both first (part :: others)).Faults defs fault := by
  refine faults.of_parts nofun nofun fun inner member => ?_
  rcases List.mem_cons.mp member with rfl | later
  · exact List.mem_cons_self
  · exact List.mem_cons_of_mem _ (List.mem_cons_of_mem _ later)

end Faults

end Grammar

namespace Answer

@[simp] theorem prepend_eq_raised {a : Answer} {values : List Payload} {fault : Fault} :
    a.prepend values = .raised fault ↔ a = .raised fault := by
  cases a <;> simp

theorem character_ne_raised (accepts : CodePoint → Bool) (text : Text) (i : Nat) (fault : Fault) :
    character accepts text i ≠ .raised fault := by
  unfold character
  split
  · split <;> simp
  · simp

theorem word_ne_raised (w text : Text) (i : Nat) (fault : Fault) :
    word w text i ≠ .raised fault := by
  unfold word
  split <;> simp

theorem wordIgnoringCase_ne_raised (w text : Text) (i : Nat) (fault : Fault) :
    wordIgnoringCase w text i ≠ .raised fault := by
  simp only [wordIgnoringCase]
  split <;> simp

theorem endOfText_ne_raised (text : Text) (i : Nat) (fault : Fault) :
    endOfText text i ≠ .raised fault := by
  unfold endOfText
  split <;> simp

end Answer

/-- What a run stops with comes from a mapping or a name in its grammar. -/
theorem Meaning.faults {defs : Definitions} {text : Text} {g : Grammar} {i : Nat} {fault : Fault}
    (meaning : Meaning defs text g i (.raised fault)) : g.Faults defs fault := by
  generalize same : Answer.raised fault = a at meaning
  induction meaning with
  | oneOf set i => exact absurd same.symm (Answer.character_ne_raised _ _ _ _)
  | noneOf set i => exact absurd same.symm (Answer.character_ne_raised _ _ _ _)
  | word w i => exact absurd same.symm (Answer.word_ne_raised _ _ _ _)
  | wordIgnoringCase w i => exact absurd same.symm (Answer.wordIgnoringCase_ne_raised _ _ _ _)
  | endOfText i => exact absurd same.symm (Answer.endOfText_ne_raised _ _ _)
  | not_failed _ => exact absurd same.symm (Answer.character_ne_raised _ _ _ _)
  | sequence_stop _ _ ih => exact (ih same).of_part List.mem_cons_self
  | sequence_next _ _ _ ih =>
      exact (ih (Answer.prepend_eq_raised.mp same.symm).symm).of_sequence_tail
  | choice_first _ _ ih => exact (ih same).of_part List.mem_cons_self
  | choice_later _ _ _ _ ih => exact (ih same).of_choice_tail
  | both_nil _ ih => exact (ih same).of_part List.mem_cons_self
  | both_first _ _ ih => exact (ih same).of_part List.mem_cons_self
  | both_other _ _ _ _ ih => exact (ih same).of_part (List.mem_cons_of_mem _ List.mem_cons_self)
  | both_next _ _ _ _ _ ih => exact (ih same).of_both_tail
  | many_raised _ ih => exact (ih same).of_part List.mem_cons_self
  | many_next _ _ _ _ ih => exact ih (Answer.prepend_eq_raised.mp same.symm).symm
  | skip_stop _ _ ih => exact (ih same).of_part List.mem_cons_self
  | option_some _ _ ih => exact (ih same).of_part List.mem_cons_self
  | peek_stop _ _ ih => exact (ih same).of_part List.mem_cons_self
  | not_raised _ ih => exact (ih same).of_part List.mem_cons_self
  | map_raised _ applied =>
      cases same
      exact .mapping (.self _) applied
  | map_stop _ _ ih => exact (ih same).of_part List.mem_cons_self
  | rule found _ ih => exact (ih same).of_rule found
  | rule_undefined missing =>
      cases same
      exact .undefined (.self _) missing
  | _ => cases same

end Descent
