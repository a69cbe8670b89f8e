import Descent.Proofs.Completeness
import Descent.Proofs.Lending

/-! Grammars without payloads. What is done with payloads decides nothing about matches. -/

namespace Descent

namespace Grammar

mutual

/-- Drops all mappings, skips and defaults; repetitions with a first match are what is left of
their sequences. -/
def erase : Grammar → Grammar
  | oneOf set => oneOf set
  | noneOf set => noneOf set
  | word w => word w
  | wordIgnoringCase w => wordIgnoringCase w
  | endOfText => endOfText
  | sequence parts => sequence (eraseAll parts)
  | choice deepest parts => choice deepest (eraseAll parts)
  | both first others => both first.erase (eraseAll others)
  | many part => many part.erase
  | skip part => part.erase
  | option _ part => optional part.erase
  | peek part => peek part.erase
  | not part => not part.erase
  | map _ part => part.erase
  | rule name => rule name

def eraseAll : List Grammar → List Grammar
  | [] => []
  | part :: parts => part.erase :: eraseAll parts

end

end Grammar

namespace Definitions

def erase (defs : Definitions) : Definitions := defs.map fun entry => (entry.1, entry.2.erase)

theorem lookup_erase (defs : Definitions) (name : String) :
    defs.erase.lookup name = (defs.lookup name).map Grammar.erase := by
  induction defs with
  | nil => rfl
  | cons entry defs ih =>
      obtain ⟨other, g⟩ := entry
      change List.lookup name ((other, g.erase) :: Definitions.erase defs) = _
      rw [List.lookup_cons, List.lookup_cons]
      cases name == other with
      | true => rfl
      | false => exact ih

theorem lookup_erase_of_some {defs : Definitions} {name : String} {g : Grammar}
    (found : defs.lookup name = some g) : defs.erase.lookup name = some g.erase := by
  rw [defs.lookup_erase, found]
  rfl

end Definitions

theorem Grammar.Handles.erase {defs : Definitions} {g : Grammar} {handling : Handling}
    (handles : g.Handles defs handling) : g.erase.Handles defs.erase handling := by
  induction handles with
  | @shape g handling known => cases g <;> first | exact .shape known | cases known
  | skip _ ih => exact ih
  | map _ ih => exact ih
  | rule found _ ih => exact .rule (Definitions.lookup_erase_of_some found) ih

/-- The grammar has the answer up to the payload. A fault may be one of a mapping, and does not
count. -/
def Grammar.Recognizes (defs : Definitions) (text : Text) (g : Grammar) (i : Nat) : Answer → Prop
  | .matched _ j => ∃ value, Meaning defs text g i (.matched value j)
  | .failed e => Meaning defs text g i (.failed e)
  | .raised _ => True

namespace Grammar.Recognizes

variable {defs : Definitions} {text : Text} {g g' : Grammar} {i j : Nat} {a : Answer}

theorem of_meaning (meaning : Meaning defs text g i a) : Recognizes defs text g i a := by
  cases a with
  | matched value j => exact ⟨value, meaning⟩
  | failed e => exact meaning
  | raised fault => trivial

theorem mono (known : Recognizes defs text g i a)
    (rule : ∀ b, Meaning defs text g i b → Meaning defs text g' j b) :
    Recognizes defs text g' j a := by
  cases a with
  | matched value k =>
      obtain ⟨other, meaning⟩ := known
      exact ⟨other, rule _ meaning⟩
  | failed e => exact rule _ known
  | raised fault => trivial

theorem stop (known : Recognizes defs text g i a) (stops : a.isMatch = false)
    (rule : ∀ b, Meaning defs text g i b → b.isMatch = false → Meaning defs text g' i b) :
    Recognizes defs text g' i a := by
  cases a with
  | matched value k => simp at stops
  | failed e => exact rule _ known rfl
  | raised fault => trivial

theorem pass (known : Recognizes defs text g i a) (holds : a.isFailure = false)
    (rule : ∀ b, Meaning defs text g i b → b.isFailure = false → Meaning defs text g' i b) :
    Recognizes defs text g' i a := by
  cases a with
  | matched value k =>
      obtain ⟨other, meaning⟩ := known
      exact ⟨other, rule _ meaning rfl⟩
  | failed e => simp at holds
  | raised fault => trivial

theorem prepend (known : Recognizes defs text g i a) (values : List Payload)
    {values' : List Payload}
    (rule : ∀ b, Meaning defs text g i b → Meaning defs text g' j (b.prepend values')) :
    Recognizes defs text g' j (a.prepend values) := by
  cases a with
  | matched value k =>
      obtain ⟨other, meaning⟩ := known
      exact ⟨_, rule _ meaning⟩
  | failed e => exact rule _ known
  | raised fault => trivial

end Grammar.Recognizes

/-- Every answer but a fault is one of the erased grammar, up to the payload. -/
theorem Meaning.erase {defs : Definitions} {text : Text} {g : Grammar} {i : Nat} {a : Answer}
    (meaning : Meaning defs text g i a) : g.erase.Recognizes defs.erase text i a := by
  -- Rules that decide something have counterparts; those of skips and mappings add nothing.
  induction meaning with
  | oneOf set i => exact .of_meaning (.oneOf set i)
  | noneOf set i => exact .of_meaning (.noneOf set i)
  | word w i => exact .of_meaning (.word w i)
  | wordIgnoringCase w i => exact .of_meaning (.wordIgnoringCase w i)
  | endOfText i => exact .of_meaning (.endOfText i)
  | sequence_nil i => exact .of_meaning (.sequence_nil i)
  | sequence_stop _ stops ih => exact ih.stop stops fun _ => .sequence_stop
  | sequence_next _ _ first later =>
      obtain ⟨value, first⟩ := first
      exact later.prepend _ fun _ => .sequence_next first
  | choice_nil deepest i => exact .of_meaning (.choice_nil deepest i)
  | choice_first _ holds ih => exact ih.pass holds fun _ => .choice_first
  | choice_later _ _ holds first later => exact later.pass holds fun _ => .choice_later first
  | choice_failed _ _ first later => exact Meaning.choice_failed first later
  | both_nil _ ih => exact ih.mono fun _ => .both_nil
  | both_first _ stops ih => exact ih.stop stops fun _ => .both_first
  | both_other _ _ stops start stop =>
      obtain ⟨value, start⟩ := start
      exact stop.stop stops fun _ => .both_other start
  | both_next _ _ _ start check later =>
      obtain ⟨value, start⟩ := start
      obtain ⟨other, check⟩ := check
      exact later.mono fun _ => .both_next start check
  | many_failed _ ih => exact ⟨_, .many_failed ih⟩
  | many_still _ still ih =>
      obtain ⟨value, last⟩ := ih
      exact ⟨_, .many_still last still⟩
  | many_raised _ _ => trivial
  | many_next _ advances _ first later =>
      obtain ⟨value, first⟩ := first
      exact later.prepend _ fun _ => .many_next first advances
  | skip_matched _ ih => exact ih
  | skip_stop _ _ ih => exact ih
  | option_some _ holds ih => exact ih.pass holds fun _ => .option_some
  | option_none _ ih => exact ⟨_, .option_none ih⟩
  | peek_matched _ ih =>
      obtain ⟨value, inner⟩ := ih
      exact ⟨value, .peek_matched inner⟩
  | peek_stop _ stops ih => exact ih.stop stops fun _ => .peek_stop
  | not_matched _ ih =>
      obtain ⟨value, inner⟩ := ih
      exact Meaning.not_matched inner
  | not_failed _ ih => exact .of_meaning (.not_failed ih)
  | not_raised _ _ => trivial
  | map_done _ _ ih => exact ih
  | map_raised _ _ _ => trivial
  | map_absent _ _ ih => exact ih
  | map_stop _ _ ih => exact ih
  | rule found _ ih => exact ih.mono fun _ => .rule (Definitions.lookup_erase_of_some found)
  | rule_undefined _ => trivial

structure Result.SameSpan (r s : Result) : Prop where
  succeeded : r.succeeded = s.succeeded
  start : r.start = s.start
  stop : r.stop = s.stop
  state : r.state = s.state

namespace Result.SameSpan

variable {r s t : Result}

theorem symm (same : r.SameSpan s) : s.SameSpan r :=
  ⟨same.succeeded.symm, same.start.symm, same.stop.symm, same.state.symm⟩

theorem trans (first : r.SameSpan s) (second : s.SameSpan t) : r.SameSpan t :=
  ⟨first.succeeded.trans second.succeeded, first.start.trans second.start,
    first.stop.trans second.stop, first.state.trans second.state⟩

theorem after_eq (same : r.SameSpan s) (handling : Handling) (c : Cursor) :
    handling.after c r = handling.after c s := by
  cases handling with
  | copied => rfl
  | direct =>
      cases r with
      | success value state start =>
          cases s with
          | success value' state' start' => exact same.state
          | failure state' start' => exact absurd same.succeeded nofun
      | failure state start =>
          cases s with
          | success value' state' start' => exact absurd same.succeeded nofun
          | failure state' start' => rfl

end Result.SameSpan

namespace Grammar

variable {defs : Definitions} {g : Grammar} {body : Body} {i : Nat} {r : Result}

theorem parse_erase_span (ends : (g.parse (body.cursor i) defs).outcome = .done r) :
    ∃ s, (g.erase.parse (body.cursor i) defs.erase).outcome = .done s ∧ r.SameSpan s := by
  rcases g.parse_sound defs body i with unsettled | ⟨a, meaning, yields⟩
  · exact absurd (ends.symm.trans unsettled) nofun
  · have known := meaning.erase
    have same : Outcome.done r = a.outcome body i := ends.symm.trans yields
    cases a with
    | raised fault => cases same
    | matched value j =>
        obtain ⟨other, recognized⟩ := known
        cases same
        exact ⟨_, parse_complete recognized, rfl, rfl, rfl, rfl⟩
    | failed e =>
        cases same
        exact ⟨_, parse_complete known, rfl, rfl, rfl, rfl⟩

theorem parse_erase (ends : (g.parse (body.cursor i) defs).outcome = .done r) :
    ∃ s, (g.erase.parse (body.cursor i) defs.erase).outcome = .done s ∧ r.SameSpan s ∧
      (g.parse (body.cursor i) defs).lent = (g.erase.parse (body.cursor i) defs.erase).lent := by
  obtain ⟨s, endsErased, same⟩ := parse_erase_span ends
  obtain ⟨handling, handles, leaves⟩ := g.parse_predicts defs (body.cursor i) r ends
  obtain ⟨other, handlesErased, leavesErased⟩ :=
    g.erase.parse_predicts defs.erase (body.cursor i) s endsErased
  have handled : handling = other := handles.erase.unique handlesErased
  subst handled
  refine ⟨s, endsErased, same, ?_⟩
  calc
    (g.parse (body.cursor i) defs).lent = handling.after (body.cursor i) r := leaves r ends
    _ = handling.after (body.cursor i) s := same.after_eq handling _
    _ = (g.erase.parse (body.cursor i) defs.erase).lent := (leavesErased s endsErased).symm

end Grammar

/-- A run that ends with a result ends in the same place, and leaves its cursor in the same place,
if all that is done with payloads is left out. So grammars that differ in nothing else match the
same where each of them has a result. -/
theorem recognition_ignores_payloads (defs : Definitions) (g : Grammar) (body : Body) (i : Nat)
    (r : Result) (ends : (g.parse (body.cursor i) defs).outcome = .done r) :
    (∃ s, (g.erase.parse (body.cursor i) defs.erase).outcome = .done s ∧ r.SameSpan s ∧
      (g.parse (body.cursor i) defs).lent = (g.erase.parse (body.cursor i) defs.erase).lent) ∧
    ∀ (defs' : Definitions) (g' : Grammar) (r' : Result), defs'.erase = defs.erase →
      g'.erase = g.erase → (g'.parse (body.cursor i) defs').outcome = .done r' →
      r.SameSpan r' ∧
        (g.parse (body.cursor i) defs).lent = (g'.parse (body.cursor i) defs').lent := by
  obtain ⟨s, endsErased, same, lent⟩ := Grammar.parse_erase ends
  refine ⟨⟨s, endsErased, same, lent⟩, ?_⟩
  intro defs' g' r' sameDefs sameGrammar ends'
  obtain ⟨s', endsErased', same', lent'⟩ := Grammar.parse_erase ends'
  rw [sameDefs, sameGrammar] at endsErased' lent'
  cases endsErased.symm.trans endsErased'
  exact ⟨same.trans same'.symm, lent.trans lent'.symm⟩

/-- A list that refers to itself, with capitals and a null at its end, and without them. -/
theorem recognition_ignores_payloads_list :
    ∃ (defs : Definitions) (body : Body) (r s : Result),
      defs = [("list", .sequence [.map Payload.upper "a",
        .optionalOr .null (.sequence [.skip ",", .rule "list"])])] ∧
      body = { text := "a,a;", name := [] } ∧
      r = .success (.just (.list [.text "A", .list [.list [.text "A", .null]]])) (body.cursor 3) 0 ∧
      s = .success (.just (.list [.text "a", .list [.text ",", .list [.text "a"]]]))
        (body.cursor 3) 0 ∧
      ((Grammar.rule "list").parse (body.cursor 0) defs).outcome = .done r ∧
      ((Grammar.rule "list").erase.parse (body.cursor 0) defs.erase).outcome = .done s ∧
      r.SameSpan s := by
  let defs : Definitions := [("list", .sequence [.map Payload.upper "a",
    .optionalOr .null (.sequence [.skip ",", .rule "list"])])]
  let body : Body := { text := "a,a;", name := [] }
  let r : Result :=
    .success (.just (.list [.text "A", .list [.list [.text "A", .null]]])) (body.cursor 3) 0
  let s : Result :=
    .success (.just (.list [.text "a", .list [.text ",", .list [.text "a"]]])) (body.cursor 3) 0
  have ends : ((Grammar.rule "list").parse (body.cursor 0) defs).outcome = .done r := rfl
  have endsErased : ((Grammar.rule "list").erase.parse (body.cursor 0) defs.erase).outcome =
      .done s := rfl
  obtain ⟨⟨t, endsThere, same, _⟩, _⟩ :=
    recognition_ignores_payloads defs (.rule "list") body 0 r ends
  cases endsErased.symm.trans endsThere
  exact ⟨defs, body, r, s, rfl, rfl, rfl, rfl, ends, endsErased, same⟩

end Descent
