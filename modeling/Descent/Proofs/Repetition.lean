import Descent.Proofs.Completeness

/-! Sequences and repetitions by their matches, and the two repetitions that start with a match. -/

namespace Descent

/-- One match and then what `more` has to say from its end on, with the payloads in one list. -/
inductive FollowedBy (first more : Nat → Answer → Prop) : Nat → Answer → Prop where
  | stop {i : Nat} {a : Answer} (begins : first i a) (stops : a.isMatch = false) :
      FollowedBy first more i a
  | next {i j : Nat} {value : Maybe} {a : Answer} (begins : first i (.matched value j))
      (later : more j a) : FollowedBy first more i (a.prepend value.toList)

/-- As many matches as advance, each of which adds what is collected from it to the list. -/
inductive Repeats (collect : Maybe → List Payload) (step : Nat → Answer → Prop) :
    Nat → Answer → Prop where
  | failed {i e : Nat} (last : step i (.failed e)) :
      Repeats collect step i (.matched (.just (.list [])) i)
  | still {i j : Nat} {value : Maybe} (last : step i (.matched value j)) (still : j ≤ i) :
      Repeats collect step i (.matched (.just (.list [])) i)
  | raised {i : Nat} {fault : Fault} (last : step i (.raised fault)) :
      Repeats collect step i (.raised fault)
  | next {i j : Nat} {value : Maybe} {a : Answer} (first : step i (.matched value j))
      (advances : i < j) (later : Repeats collect step j a) :
      Repeats collect step i (a.prepend (collect value))

theorem FollowedBy.mono {first more more' : Nat → Answer → Prop} {i : Nat} {a : Answer}
    (followed : FollowedBy first more i a) (each : ∀ j b, more j b → more' j b) :
    FollowedBy first more' i a := by
  cases followed with
  | stop begins stops => exact .stop begins stops
  | next begins later => exact .next begins (each _ _ later)

def Maybe.items : Maybe → List Payload
  | { present := true, value := .list values } => values
  | _ => []

@[simp] theorem Maybe.items_list (values : List Payload) :
    (Maybe.just (.list values)).items = values := rfl

theorem Repeats.list_or_raised {collect : Maybe → List Payload} {step : Nat → Answer → Prop}
    {i : Nat} {a : Answer} (repeats : Repeats collect step i a) :
    (∃ values j, a = .matched (.just (.list values)) j) ∨ ∃ fault, a = .raised fault := by
  induction repeats with
  | failed last => exact .inl ⟨_, _, rfl⟩
  | still last still => exact .inl ⟨_, _, rfl⟩
  | raised last => exact .inr ⟨_, rfl⟩
  | next first advances later ih =>
      rcases ih with ⟨values, j, rfl⟩ | ⟨fault, rfl⟩
      · exact .inl ⟨_, _, rfl⟩
      · exact .inr ⟨_, rfl⟩

/-- Where a repetition ends does not depend on what is collected. -/
theorem Repeats.exists_collect {collect : Maybe → List Payload} {step : Nat → Answer → Prop}
    {i : Nat} {a : Answer} (repeats : Repeats collect step i a)
    (collect' : Maybe → List Payload) : ∃ b, Repeats collect' step i b := by
  induction repeats with
  | failed last => exact ⟨_, .failed last⟩
  | still last still => exact ⟨_, .still last still⟩
  | raised last => exact ⟨_, .raised last⟩
  | next first advances later ih =>
      obtain ⟨b, rest⟩ := ih
      exact ⟨_, .next first advances rest⟩

theorem Payload.prependFirst_list (m : Maybe) (values : List Payload) :
    prependFirst (.list (m.toList ++ [.list values])) = .ok (.list (m.toList ++ values)) := by
  rw [Maybe.toList]
  split <;> rfl

namespace Meaning

variable {defs : Definitions} {text : Text} {part item separator : Grammar}
  {parts : List Grammar} {value : Payload} {i j : Nat} {a : Answer}

theorem sequence_cons_iff :
    Meaning defs text (.sequence (part :: parts)) i a ↔
      FollowedBy (Meaning defs text part) (Meaning defs text (.sequence parts)) i a := by
  constructor
  · intro meaning
    cases meaning with
    | sequence_stop first stops => exact .stop first stops
    | sequence_next first later => exact .next first later
  · intro followed
    cases followed with
    | stop begins stops => exact .sequence_stop begins stops
    | next begins later => exact .sequence_next begins later

theorem sequence_list {value : Maybe} (meaning : Meaning defs text (.sequence parts) i
    (.matched value j)) : ∃ values, value = .just (.list values) := by
  induction parts generalizing i j value with
  | nil => cases meaning; exact ⟨[], rfl⟩
  | cons part parts ih =>
      generalize whole : Answer.matched value j = a at meaning
      cases sequence_cons_iff.mp meaning with
      | stop begins stops => subst whole; simp at stops
      | @next k first b begins later =>
          cases b with
          | failed position => simp at whole
          | raised fault => simp at whole
          | matched rest stop =>
              obtain ⟨values, rfl⟩ := ih later
              rw [Answer.prepend, Maybe.prepend_list] at whole
              exact ⟨_, (Answer.matched.inj whole).1⟩

theorem many_iff :
    Meaning defs text (.many part) i a ↔ Repeats Maybe.toList (Meaning defs text part) i a := by
  constructor
  · intro meaning
    generalize whole : Grammar.many part = g at meaning
    induction meaning with
    | many_failed last => cases whole; exact .failed last
    | many_still last still => cases whole; exact .still last still
    | many_raised last => cases whole; exact .raised last
    | many_next first advances _ _ ih => cases whole; exact .next first advances (ih rfl)
    | _ => cases whole
  · intro repeats
    induction repeats with
    | failed last => exact .many_failed last
    | still last still => exact .many_still last still
    | raised last => exact .many_raised last
    | next first advances _ ih => exact .many_next first advances ih

theorem map_inner {f : Payload → Except Fault Payload}
    (meaning : Meaning defs text (.map f part) i a) : ∃ b, Meaning defs text part i b := by
  cases meaning with
  | map_done inner _ => exact ⟨_, inner⟩
  | map_raised inner _ => exact ⟨_, inner⟩
  | map_absent inner _ => exact ⟨_, inner⟩
  | map_stop inner _ => exact ⟨_, inner⟩

theorem sequence_singleton (meaning : Meaning defs text part i (.matched (.just value) j)) :
    Meaning defs text (.sequence [part]) i (.matched (.just (.list [value])) j) :=
  .sequence_next meaning (.sequence_nil j)

theorem prependFirst_of_followedBy {rest : Grammar} {more : Nat → Answer → Prop}
    (list : ∀ j a, more j a → Meaning defs text rest j a ∧
      ((∃ values k, a = .matched (.just (.list values)) k) ∨ ∃ fault, a = .raised fault))
    (followed : FollowedBy (Meaning defs text part) more i a) :
    Meaning defs text (.map Payload.prependFirst (.sequence [part, rest])) i a := by
  cases followed with
  | stop begins stops => exact .map_stop (.sequence_stop begins stops) stops
  | @next j value b begins later =>
      obtain ⟨meaning, ⟨values, k, rfl⟩ | ⟨fault, rfl⟩⟩ := list j b later
      · have whole := Meaning.sequence_next begins meaning.sequence_singleton
        exact .map_done whole (Payload.prependFirst_list value values)
      · exact .map_stop (.sequence_next begins (.sequence_stop meaning rfl)) rfl

theorem prependFirst_iff {rest : Grammar} {more : Nat → Answer → Prop}
    (list : ∀ j a, more j a → Meaning defs text rest j a ∧
      ((∃ values k, a = .matched (.just (.list values)) k) ∨ ∃ fault, a = .raised fault))
    (found : ∀ j a, Meaning defs text rest j a → ∃ b, more j b) :
    Meaning defs text (.map Payload.prependFirst (.sequence [part, rest])) i a ↔
      FollowedBy (Meaning defs text part) more i a := by
  constructor
  · intro meaning
    -- Each part that was run has an answer, and the whole has no other than the one made of them.
    obtain ⟨b, inner⟩ := meaning.map_inner
    cases sequence_cons_iff.mp inner with
    | stop begins stops =>
        have followed : FollowedBy (Meaning defs text part) more i b := .stop begins stops
        rw [meaning.unique (prependFirst_of_followedBy list followed)]
        exact followed
    | @next j value c begins later =>
        have more : ∃ d, more j d := by
          cases sequence_cons_iff.mp later with
          | stop begins _ => exact found _ _ begins
          | next begins _ => exact found _ _ begins
        obtain ⟨d, later⟩ := more
        have followed := FollowedBy.next begins later
        rw [meaning.unique (prependFirst_of_followedBy list followed)]
        exact followed
  · exact prependFirst_of_followedBy list

/-- One match and then any number of them. -/
theorem oneOrMore_iff :
    Meaning defs text (.oneOrMore part) i a ↔
      FollowedBy (Meaning defs text part) (Meaning defs text (.many part)) i a :=
  prependFirst_iff (fun _ _ meaning => ⟨meaning, (many_iff.mp meaning).list_or_raised⟩)
    (fun _ _ meaning => ⟨_, meaning⟩)

theorem many_groups (repeats : Repeats Maybe.items (Meaning defs text (.sequence parts)) i a) :
    (∃ (groups : List (List Payload)) (j : Nat), Meaning defs text (.many (.sequence parts)) i
        (.matched (.just (.list (groups.map .list))) j) ∧
      a = .matched (.just (.list groups.flatten)) j) ∨
    ∃ fault, Meaning defs text (.many (.sequence parts)) i (.raised fault) ∧ a = .raised fault := by
  induction repeats with
  | failed last => exact .inl ⟨[], _, .many_failed last, rfl⟩
  | still last still => exact .inl ⟨[], _, .many_still last still, rfl⟩
  | raised last => exact .inr ⟨_, .many_raised last, rfl⟩
  | next first advances later ih =>
      obtain ⟨values, rfl⟩ := first.sequence_list
      rcases ih with ⟨groups, k, meaning, rfl⟩ | ⟨fault, meaning, rfl⟩
      · exact .inl ⟨values :: groups, k, .many_next first advances meaning, rfl⟩
      · exact .inr ⟨fault, .many_next first advances meaning, rfl⟩

theorem concat_groups (groups : List (List Payload)) :
    Payload.concat (.list (groups.map .list)) = .ok (.list groups.flatten) := by
  have lists : (groups.map Payload.list).mapM Payload.items? = some groups := by
    induction groups with
    | nil => rfl
    | cons group groups ih => simp [List.mapM_cons, ih, Payload.items?]
  simp [Payload.concat, lists]

/-- One item and then any number of pairs of a separator and an item. -/
theorem separatedBy_iff :
    Meaning defs text (.separatedBy item separator) i a ↔
      FollowedBy (Meaning defs text item)
        (Repeats Maybe.items (Meaning defs text (.sequence [separator, item]))) i a := by
  refine prependFirst_iff ?_ ?_
  · intro j a repeats
    refine ⟨?_, repeats.list_or_raised⟩
    rcases many_groups repeats with ⟨groups, k, meaning, rfl⟩ | ⟨fault, meaning, rfl⟩
    · exact .map_done meaning (concat_groups groups)
    · exact .map_stop meaning rfl
  · intro j a meaning
    obtain ⟨b, inner⟩ := meaning.map_inner
    exact (many_iff.mp inner).exists_collect _
end Meaning

end Descent
