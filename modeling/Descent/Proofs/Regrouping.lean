import Descent.Proofs.Attempt

/-! Runs of parts that are put into groups of their own. -/

namespace Descent

namespace Answer

/-- What becomes of an answer behind a failure at `e` in a choice that starts at `i`. -/
def behindFailure (deepest : Bool) (i e : Nat) : Answer → Answer
  | matched value stop => matched value stop
  | failed f => failed (if deepest then max e f else i)
  | raised fault => raised fault

theorem behindFailure_of_not_failure {deepest : Bool} {i e : Nat} {a : Answer}
    (holds : a.isFailure = false) : a.behindFailure deepest i e = a := by
  cases a with
  | matched value stop => rfl
  | failed f => cases holds
  | raised fault => rfl

theorem isFailure_behindFailure (deepest : Bool) (i e : Nat) (a : Answer) :
    (a.behindFailure deepest i e).isFailure = a.isFailure := by
  cases a <;> rfl

theorem behindFailure_behindFailure (deepest : Bool) (i e f : Nat) (a : Answer) :
    (a.behindFailure deepest i f).behindFailure deepest i e =
      a.behindFailure deepest i (if deepest then max e f else i) := by
  cases a with
  | matched value stop => rfl
  | raised fault => rfl
  | failed g =>
      cases deepest with
      | false => rfl
      | true => simp only [behindFailure, if_true, Nat.max_assoc]

theorem prepend_prepend (values more : List Payload) (a : Answer) :
    (a.prepend more).prepend values = a.prepend (values ++ more) := by
  cases a with
  | matched value stop => simp only [prepend, Maybe.prepend_prepend]
  | failed e => rfl
  | raised fault => rfl

theorem isMatch_prepend (values : List Payload) (a : Answer) :
    (a.prepend values).isMatch = a.isMatch := by
  cases a <;> rfl

end Answer

inductive OrElse (deepest : Bool) (i : Nat) (first later : Answer → Prop) : Answer → Prop where
  | first {a : Answer} (tried : first a) (holds : a.isFailure = false) :
      OrElse deepest i first later a
  | later {e : Nat} {a : Answer} (tried : first (.failed e)) (next : later a) :
      OrElse deepest i first later (a.behindFailure deepest i e)

namespace OrElse

variable {deepest : Bool} {i : Nat} {p q r : Answer → Prop} {a : Answer}

theorem assoc : OrElse deepest i (OrElse deepest i p q) r a ↔
    OrElse deepest i p (OrElse deepest i q r) a := by
  constructor
  · intro tried
    cases tried with
    | first left holds =>
        cases left with
        | first tried _ => exact .first tried holds
        | later tried next =>
            rw [Answer.isFailure_behindFailure] at holds
            exact .later tried (.first next holds)
    | @later e c left last =>
        generalize failure : Answer.failed e = b at left
        cases left with
        | first _ holds =>
            subst failure
            cases holds
        | @later f b tried next =>
            cases b with
            | matched value stop => cases failure
            | raised fault => cases failure
            | failed g =>
                cases failure
                rw [← Answer.behindFailure_behindFailure]
                exact .later tried (.later next last)
  · intro tried
    cases tried with
    | first tried holds => exact .first (.first tried holds) holds
    | later tried next =>
        cases next with
        | first next holds =>
            refine .first (.later tried next) ?_
            rw [Answer.isFailure_behindFailure]
            exact holds
        | later next last =>
            rw [Answer.behindFailure_behindFailure]
            exact .later (.later tried next) last

end OrElse

inductive ListThen (first later : Nat → Answer → Prop) : Nat → Answer → Prop where
  | stop {i : Nat} {a : Answer} (begins : first i a) (stops : a.isMatch = false) :
      ListThen first later i a
  | next {i j : Nat} {values : List Payload} {a : Answer}
      (begins : first i (.matched (.just (.list values)) j)) (more : later j a) :
      ListThen first later i (a.prepend values)

namespace ListThen

variable {i : Nat} {p q r : Nat → Answer → Prop} {a : Answer}

theorem assoc
    (lists : ∀ i value j, q i (.matched value j) → ∃ values, value = .just (.list values)) :
    ListThen (FollowedBy p q) r i a ↔ FollowedBy p (ListThen q r) i a := by
  constructor
  · intro both
    cases both with
    | stop begins stops =>
        cases begins with
        | stop begins _ => exact .stop begins stops
        | next begins later =>
            rw [Answer.isMatch_prepend] at stops
            exact .next begins (.stop later stops)
    | @next j values c begins last =>
        generalize whole : Answer.matched (.just (.list values)) j = b at begins
        cases begins with
        | stop _ stops =>
            subst whole
            cases stops
        | @next k head b begins later =>
            cases b with
            | failed e => cases whole
            | raised fault => cases whole
            | matched value stop =>
                obtain ⟨rest, rfl⟩ := lists _ _ _ later
                cases whole
                rw [← Answer.prepend_prepend]
                exact .next begins (.next later last)
  · intro both
    cases both with
    | stop begins stops => exact .stop (.stop begins stops) stops
    | next begins rest =>
        cases rest with
        | stop later stops =>
            refine .stop (.next begins later) ?_
            rw [Answer.isMatch_prepend]
            exact stops
        | next later last =>
            rw [Answer.prepend_prepend]
            exact .next (.next begins later) last

end ListThen

namespace Meaning

variable {defs : Definitions} {text : Text} {part : Grammar} {parts front group back : List Grammar}
  {deepest : Bool} {i j : Nat} {a b : Answer}

theorem choice_cons_iff :
    Meaning defs text (.choice deepest (part :: parts)) i a ↔
      OrElse deepest i (Meaning defs text part i)
        (Meaning defs text (.choice deepest parts) i) a := by
  constructor
  · intro meaning
    cases meaning with
    | choice_first first holds => exact .first first holds
    | choice_later first later holds =>
        rw [← Answer.behindFailure_of_not_failure holds]
        exact .later first later
    | choice_failed first later => exact .later first later
  · intro tried
    cases tried with
    | first first holds => exact .choice_first first holds
    | @later e b first later =>
        cases b with
        | matched value stop => exact .choice_later first later rfl
        | failed f => exact .choice_failed first later
        | raised fault => exact .choice_later first later rfl

theorem behindFailure_start (meaning : Meaning defs text (.choice deepest parts) i a) :
    a.behindFailure deepest i i = a := by
  cases a with
  | matched value stop => rfl
  | raised fault => rfl
  | failed e =>
      cases deepest with
      | false =>
          rw [meaning.choice_false_failed]
          rfl
      | true =>
          have ahead : i ≤ e := meaning.within.1
          rw [Answer.behindFailure, if_pos rfl, Nat.max_eq_right ahead]

theorem choice_nil_orElse_iff :
    OrElse deepest i (Meaning defs text (.choice deepest []) i)
        (Meaning defs text (.choice deepest parts) i) a ↔
      Meaning defs text (.choice deepest parts) i a := by
  constructor
  · intro tried
    cases tried with
    | first nothing holds =>
        cases nothing
        cases holds
    | later nothing meaning =>
        cases nothing
        rw [meaning.behindFailure_start]
        exact meaning
  · intro meaning
    rw [← meaning.behindFailure_start]
    exact .later (.choice_nil deepest i) meaning

theorem choice_append_iff :
    Meaning defs text (.choice deepest (front ++ back)) i a ↔
      OrElse deepest i (Meaning defs text (.choice deepest front) i)
        (Meaning defs text (.choice deepest back) i) a := by
  induction front generalizing a with
  | nil => exact choice_nil_orElse_iff.symm
  | cons part front ih =>
      have whole : Meaning defs text (.choice deepest (part :: front)) i =
          OrElse deepest i (Meaning defs text part i)
            (Meaning defs text (.choice deepest front) i) :=
        funext fun _ => propext choice_cons_iff
      have rest : Meaning defs text (.choice deepest (front ++ back)) i =
          OrElse deepest i (Meaning defs text (.choice deepest front) i)
            (Meaning defs text (.choice deepest back) i) :=
        funext fun _ => propext ih
      rw [List.cons_append, choice_cons_iff, rest, whole, OrElse.assoc]

/-- A group is tried as the parts in it are. -/
theorem choice_group_iff :
    Meaning defs text (.choice deepest (front ++ .choice deepest group :: back)) i a ↔
      Meaning defs text (.choice deepest (front ++ group ++ back)) i a := by
  have inner : Meaning defs text (.choice deepest (.choice deepest group :: back)) i =
      Meaning defs text (.choice deepest (group ++ back)) i :=
    funext fun _ => propext (choice_cons_iff.trans choice_append_iff.symm)
  rw [List.append_assoc, choice_append_iff, choice_append_iff, inner]

theorem sequence_nil_listThen_iff :
    ListThen (Meaning defs text (.sequence [])) (Meaning defs text (.sequence parts)) i a ↔
      Meaning defs text (.sequence parts) i a := by
  have same : ∀ {b : Answer}, Meaning defs text (.sequence parts) i b → b.prepend [] = b := by
    intro b meaning
    cases b with
    | failed e => rfl
    | raised fault => rfl
    | matched value j =>
        obtain ⟨values, rfl⟩ := meaning.sequence_list
        rfl
  constructor
  · intro both
    cases both with
    | stop nothing stops =>
        cases nothing
        cases stops
    | next nothing meaning =>
        cases nothing
        rw [same meaning]
        exact meaning
  · intro meaning
    rw [← same meaning]
    exact .next (.sequence_nil i) meaning

theorem sequence_append_iff :
    Meaning defs text (.sequence (front ++ back)) i a ↔
      ListThen (Meaning defs text (.sequence front)) (Meaning defs text (.sequence back)) i a := by
  induction front generalizing i a with
  | nil => exact sequence_nil_listThen_iff.symm
  | cons part front ih =>
      have whole : Meaning defs text (.sequence (part :: front)) =
          FollowedBy (Meaning defs text part) (Meaning defs text (.sequence front)) :=
        funext fun _ => funext fun _ => propext sequence_cons_iff
      have rest : Meaning defs text (.sequence (front ++ back)) =
          ListThen (Meaning defs text (.sequence front)) (Meaning defs text (.sequence back)) :=
        funext fun _ => funext fun _ => propext ih
      rw [List.cons_append, sequence_cons_iff, rest, whole]
      exact (ListThen.assoc fun _ _ _ => sequence_list).symm

end Meaning

inductive Answer.Regrouped : Answer → Answer → Prop where
  | matched {values others : List Payload} (j : Nat)
      (same : ∀ gathered, Payload.gatherAll gathered values = Payload.gatherAll gathered others) :
      Regrouped (.matched (.just (.list values)) j) (.matched (.just (.list others)) j)
  | failed (e : Nat) : Regrouped (.failed e) (.failed e)
  | raised (fault : Fault) : Regrouped (.raised fault) (.raised fault)

namespace Answer.Regrouped

variable {a b : Answer}

theorem prepend (values : List Payload) (regrouped : a.Regrouped b) :
    (a.prepend values).Regrouped (b.prepend values) := by
  cases regrouped with
  | failed e => exact .failed e
  | raised fault => exact .raised fault
  | matched j same =>
      refine .matched j fun gathered => ?_
      rw [Payload.gatherAll_append, Payload.gatherAll_append]
      cases Payload.gatherAll gathered values with
      | error fault => rfl
      | ok front => exact same front

theorem group (values : List Payload) (a : Answer)
    (lists : ∀ value j, a = .matched value j → ∃ rest, value = .just (.list rest)) :
    (a.prepend [.list values]).Regrouped (a.prepend values) := by
  cases a with
  | failed e => exact .failed e
  | raised fault => exact .raised fault
  | matched value j =>
      obtain ⟨rest, rfl⟩ := lists value j rfl
      refine .matched j fun gathered => ?_
      rw [Payload.gatherAll_append, Payload.gatherAll_append, Payload.gatherAll, Payload.gather]
      cases Payload.gatherAll gathered values with
      | error fault => rfl
      | ok front => rfl

theorem symm (regrouped : a.Regrouped b) : b.Regrouped a := by
  cases regrouped with
  | matched j same => exact .matched j fun gathered => (same gathered).symm
  | failed e => exact .failed e
  | raised fault => exact .raised fault

theorem of_not_match (stops : a.isMatch = false) : a.Regrouped a := by
  cases a with
  | matched value j => cases stops
  | failed e => exact .failed e
  | raised fault => exact .raised fault

end Answer.Regrouped

theorem ListThen.carry {first later later' : Nat → Answer → Prop} {i : Nat} {a : Answer}
    (each : ∀ j b, later j b → ∃ c, later' j c ∧ b.Regrouped c)
    (both : ListThen first later i a) : ∃ b, ListThen first later' i b ∧ a.Regrouped b := by
  cases both with
  | stop begins stops => exact ⟨a, .stop begins stops, .of_not_match stops⟩
  | next begins more =>
      obtain ⟨c, more, regrouped⟩ := each _ _ more
      exact ⟨_, .next begins more, regrouped.prepend _⟩

namespace Meaning

variable {defs : Definitions} {text : Text} {part other : Grammar} {front group back : List Grammar}
  {i : Nat} {a : Answer}

theorem sequence_group (meaning : Meaning defs text (.sequence (.sequence group :: back)) i a) :
    ∃ b, Meaning defs text (.sequence (group ++ back)) i b ∧ a.Regrouped b := by
  cases sequence_cons_iff.mp meaning with
  | stop begins stops =>
      exact ⟨a, sequence_append_iff.mpr (.stop begins stops), .of_not_match stops⟩
  | @next _ _ b begins later =>
      obtain ⟨values, rfl⟩ := begins.sequence_list
      refine ⟨_, sequence_append_iff.mpr (.next begins later),
        .group values b fun value j whole => ?_⟩
      subst whole
      exact later.sequence_list

theorem sequence_ungroup (meaning : Meaning defs text (.sequence (group ++ back)) i a) :
    ∃ b, Meaning defs text (.sequence (.sequence group :: back)) i b ∧ a.Regrouped b := by
  cases sequence_append_iff.mp meaning with
  | stop begins stops => exact ⟨a, .sequence_stop begins stops, .of_not_match stops⟩
  | @next _ values b begins later =>
      refine ⟨_, .sequence_next begins later, (Answer.Regrouped.group values b ?_).symm⟩
      intro value j whole
      subst whole
      exact later.sequence_list

theorem joined_carry
    (each : ∀ b, Meaning defs text part i b → ∃ c, Meaning defs text other i c ∧ b.Regrouped c)
    (meaning : Meaning defs text (.joined part) i a) : Meaning defs text (.joined other) i a := by
  cases meaning with
  | map_stop inner stops =>
      obtain ⟨c, found, regrouped⟩ := each _ inner
      cases regrouped with
      | matched j same => cases stops
      | failed e => exact .map_stop found rfl
      | raised fault => exact .map_stop found rfl
  | map_absent inner absent =>
      obtain ⟨c, found, regrouped⟩ := each _ inner
      cases regrouped with
      | matched j same => cases absent
  | map_done inner applied =>
      obtain ⟨c, found, regrouped⟩ := each _ inner
      cases regrouped with
      | @matched values others j same =>
          refine .map_done found ?_
          rw [← applied, Payload.joined, Payload.joined, Payload.flatten, Payload.flatten,
            Payload.gather, Payload.gather, same]
  | map_raised inner applied =>
      obtain ⟨c, found, regrouped⟩ := each _ inner
      cases regrouped with
      | @matched values others j same =>
          refine .map_raised found ?_
          rw [← applied, Payload.joined, Payload.joined, Payload.flatten, Payload.flatten,
            Payload.gather, Payload.gather, same]

theorem joined_sequence_group_iff :
    Meaning defs text (.joined (.sequence (front ++ .sequence group :: back))) i a ↔
      Meaning defs text (.joined (.sequence (front ++ group ++ back))) i a := by
  rw [List.append_assoc]
  constructor
  · apply joined_carry
    intro b meaning
    obtain ⟨c, whole, regrouped⟩ :=
      (sequence_append_iff.mp meaning).carry fun _ _ inner => inner.sequence_group
    exact ⟨c, sequence_append_iff.mpr whole, regrouped⟩
  · apply joined_carry
    intro b meaning
    obtain ⟨c, whole, regrouped⟩ :=
      (sequence_append_iff.mp meaning).carry fun _ _ inner => inner.sequence_ungroup
    exact ⟨c, sequence_append_iff.mpr whole, regrouped⟩

end Meaning

namespace Grammar

/-- Parts of which runs are put into groups, again and again, also with groups among them. -/
inductive Grouped (group : List Grammar → Grammar) (flat : List Grammar) : List Grammar → Prop where
  | flat : Grouped group flat flat
  | more {front run back : List Grammar} (grouped : Grouped group flat (front ++ run ++ back)) :
      Grouped group flat (front ++ group run :: back)

variable {defs : Definitions} {body : Body} {i : Nat}

theorem choice_group (deepest : Bool) (front group back : List Grammar) :
    (choice deepest (front ++ choice deepest group :: back)).parse (body.cursor i) defs =
      (choice deepest (front ++ group ++ back)).parse (body.cursor i) defs :=
  parse_congr (fun _ => Meaning.choice_group_iff) rfl

theorem joined_sequence_group (front group back : List Grammar) :
    (joined (sequence (front ++ sequence group :: back))).parse (body.cursor i) defs =
      (joined (sequence (front ++ group ++ back))).parse (body.cursor i) defs :=
  parse_congr (fun _ => Meaning.joined_sequence_group_iff) rfl

/-- What one group does not change, groups at any depth do not. -/
theorem Grouped.parse_eq (group whole : List Grammar → Grammar) {flat nested : List Grammar}
    (once : ∀ front run back, (whole (front ++ group run :: back)).parse (body.cursor i) defs =
      (whole (front ++ run ++ back)).parse (body.cursor i) defs)
    (grouped : Grouped group flat nested) :
    (whole nested).parse (body.cursor i) defs = (whole flat).parse (body.cursor i) defs := by
  induction grouped with
  | flat => rfl
  | more _ ih => exact (once _ _ _).trans ih

/-- A run of alternatives may be put into a choice of the same kind, and a run of parts of a
sequence whose payload is joined into a sequence, at any place and any depth. Every attempt ends in
the same way: with the same result, at the same place, or with the same fault. -/
theorem regrouping_is_invisible (defs : Definitions) (body : Body) (i : Nat) :
    (∀ deepest front group back,
      (choice deepest (front ++ choice deepest group :: back)).parse (body.cursor i) defs =
        (choice deepest (front ++ group ++ back)).parse (body.cursor i) defs) ∧
    (∀ front group back,
      (joined (sequence (front ++ sequence group :: back))).parse (body.cursor i) defs =
        (joined (sequence (front ++ group ++ back))).parse (body.cursor i) defs) ∧
    (∀ deepest flat nested, Grouped (choice deepest) flat nested →
      (choice deepest nested).parse (body.cursor i) defs =
        (choice deepest flat).parse (body.cursor i) defs) ∧
    ∀ flat nested, Grouped sequence flat nested →
      (joined (sequence nested)).parse (body.cursor i) defs =
        (joined (sequence flat)).parse (body.cursor i) defs :=
  ⟨choice_group, joined_sequence_group,
    fun deepest _ _ grouped => grouped.parse_eq _ (choice deepest) (choice_group deepest),
    fun _ _ grouped =>
      grouped.parse_eq _ (fun parts => joined (sequence parts)) joined_sequence_group⟩

/-- Groups two deep beside an empty one, and a payload that has no text in the inner of two. -/
theorem regrouping_is_invisible_letters :
    ∃ (body : Body) (flat nested parts groups : List Grammar),
      body = { text := "abc", name := [] } ∧
      flat = [.sequence ["a", "x"], .sequence ["a", "b", "x"]] ∧
      nested = [.choice true [],
        .choice true [.sequence ["a", "x"], .choice true [.sequence ["a", "b", "x"]]]] ∧
      Grouped (choice true) flat nested ∧
      ((choice true flat).parse (body.cursor 0)).outcome =
        .done (.failure (body.cursor 2) 2) ∧
      (choice true nested).parse (body.cursor 0) = (choice true flat).parse (body.cursor 0) ∧
      parts = [.word "a", .skip "b", .map Payload.length "c"] ∧
      groups = [.word "a", .sequence [.skip "b", .sequence [.map Payload.length "c"]]] ∧
      Grouped sequence parts groups ∧
      ((joined (sequence parts)).parse (body.cursor 0)).outcome = .raised .wrongKind ∧
      (joined (sequence groups)).parse (body.cursor 0) =
        (joined (sequence parts)).parse (body.cursor 0) := by
  let body : Body := { text := "abc", name := [] }
  let p : Grammar := .sequence ["a", "x"]
  let q : Grammar := .sequence ["a", "b", "x"]
  have inner : Grouped (choice true) [p, q] [p, choice true [q]] :=
    @Grouped.more _ _ [p] [q] [] .flat
  have outer : Grouped (choice true) [p, q] [choice true [p, choice true [q]]] :=
    @Grouped.more _ _ [] [p, choice true [q]] [] inner
  have empty : Grouped (choice true) [p, q] [choice true [], choice true [p, choice true [q]]] :=
    @Grouped.more _ _ [] [] [choice true [p, choice true [q]]] outer
  let b : Grammar := .skip "b"
  let c : Grammar := .map Payload.length "c"
  have last : Grouped sequence [.word "a", b, c] [.word "a", b, sequence [c]] :=
    @Grouped.more _ _ [.word "a", b] [c] [] .flat
  have behind : Grouped sequence [.word "a", b, c] [.word "a", sequence [b, sequence [c]]] :=
    @Grouped.more _ _ [.word "a"] [b, sequence [c]] [] last
  obtain ⟨_, _, choices, sequences⟩ := regrouping_is_invisible [] body 0
  exact ⟨body, _, _, _, _, rfl, rfl, rfl, empty, rfl, choices true _ _ empty, rfl, rfl, behind, rfl,
    sequences _ _ behind⟩

end Grammar

end Descent
