import Descent.Proofs.Lending
import Descent.Proofs.Locality
import Mathlib.Data.List.Forall2

/-! Choices that report the failure that got furthest, in place of choices that do not. -/

namespace Descent

namespace Grammar

/-- The same grammar, except that more of its choices may report the failure that got furthest. -/
inductive Deepens : Grammar → Grammar → Prop where
  | oneOf (set : Text) : Deepens (.oneOf set) (.oneOf set)
  | noneOf (set : Text) : Deepens (.noneOf set) (.noneOf set)
  | word (w : Text) : Deepens (.word w) (.word w)
  | wordIgnoringCase (w : Text) : Deepens (.wordIgnoringCase w) (.wordIgnoringCase w)
  | endOfText : Deepens .endOfText .endOfText
  | sequence {parts parts' : List Grammar} (each : List.Forall₂ Deepens parts parts') :
      Deepens (.sequence parts) (.sequence parts')
  | choice {deepest deepest' : Bool} {parts parts' : List Grammar}
      (keeps : deepest = true → deepest' = true) (each : List.Forall₂ Deepens parts parts') :
      Deepens (.choice deepest parts) (.choice deepest' parts')
  | both {first first' : Grammar} {others others' : List Grammar} (start : Deepens first first')
      (each : List.Forall₂ Deepens others others') :
      Deepens (.both first others) (.both first' others')
  | many {part part' : Grammar} (inner : Deepens part part') : Deepens (.many part) (.many part')
  | skip {part part' : Grammar} (inner : Deepens part part') : Deepens (.skip part) (.skip part')
  | option (default : Maybe) {part part' : Grammar} (inner : Deepens part part') :
      Deepens (.option default part) (.option default part')
  | peek {part part' : Grammar} (inner : Deepens part part') : Deepens (.peek part) (.peek part')
  | not {part part' : Grammar} (inner : Deepens part part') : Deepens (.not part) (.not part')
  | map (f : Payload → Except Fault Payload) {part part' : Grammar}
      (inner : Deepens part part') : Deepens (.map f part) (.map f part')
  | rule (name : String) : Deepens (.rule name) (.rule name)

end Grammar

def Definitions.Deepens (defs defs' : Definitions) : Prop :=
  List.Forall₂ (fun entry entry' => entry.1 = entry'.1 ∧ entry.2.Deepens entry'.2) defs defs'

theorem Definitions.Deepens.lookup {defs defs' : Definitions} (deepens : defs.Deepens defs')
    (name : String) :
    Option.Rel Grammar.Deepens (defs.lookup name) (defs'.lookup name) := by
  induction deepens with
  | nil => exact .none
  | @cons entry entry' _ _ same _ ih =>
      obtain ⟨other, g⟩ := entry
      obtain ⟨_, g'⟩ := entry'
      obtain ⟨rfl, inner⟩ := same
      rw [List.lookup_cons, List.lookup_cons]
      cases name == other with
      | true => exact .some inner
      | false => exact ih

/-- The same match, or two failures of which the second got no less far. Neither stops before
`low`. -/
inductive Result.Further (low : Nat) : Result → Result → Prop where
  | matched {value : Maybe} {state : Cursor} {start : Nat} (after : low ≤ state.position) :
      Further low (.success value state start) (.success value state start)
  | failed {state state' : Cursor} {start start' : Nat} (after : low ≤ state.position)
      (further : state.position ≤ state'.position) :
      Further low (.failure state start) (.failure state' start')

namespace Result.Further

theorem of_failures {low : Nat} {r r' : Result} (fails : r.succeeded = false)
    (fails' : r'.succeeded = false) (after : low ≤ r.stop) (further : r.stop ≤ r'.stop) :
    r.Further low r' := by
  cases r with
  | success value state start => simp at fails
  | failure state start =>
      cases r' with
      | success value state start => simp at fails'
      | failure state' start' => exact .failed after further

end Result.Further

namespace Parser

def Deepens (part part' : Parser) : Prop :=
  ∀ c, (part c).outcome.Agree (Result.Further c.position) (part' c).outcome ∧
    (part c).lent = (part' c).lent

theorem further_some (b r : Result) :
    ∃ s, further (some b) r = some s ∧ s.stop = max b.stop r.stop ∧
      (b.succeeded = false → r.succeeded = false → s.succeeded = false) := by
  simp only [further]
  split
  · rename_i deeper
    exact ⟨r, rfl, (Nat.max_eq_right (Nat.le_of_lt deeper)).symm, fun _ fails => fails⟩
  · rename_i deeper
    exact ⟨b, rfl, (Nat.max_eq_left (Nat.le_of_not_lt deeper)).symm, fun fails _ => fails⟩

def reported (c : Cursor) (best : Option Result) : Result := best.getD (.failureAt c)

theorem reported_further {c : Cursor} {best : Option Result} {r : Result}
    (fails : (reported c best).succeeded = false) (also : r.succeeded = false)
    (after : c.position ≤ r.stop) :
    (reported c (further best r)).succeeded = false ∧
      (reported c (further best r)).stop = max (reported c best).stop r.stop := by
  cases best with
  | none => exact ⟨also, (Nat.max_eq_right after).symm⟩
  | some b =>
      obtain ⟨s, same, stop, failed⟩ := further_some b r
      rw [same]
      exact ⟨failed fails also, stop⟩

namespace Deepens

variable {part part' first first' : Parser} {parts parts' others others' : List Parser}

theorem refl_of_direct (direct : ∀ c, (part c).Direct c) : Deepens part part := by
  intro c
  refine ⟨?_, rfl⟩
  have known := direct c
  generalize part c = reply at known
  cases known with
  | consume value n => exact .done (.matched (Nat.le_add_right _ n))
  | refuse => exact .done (.failed (Nat.le_refl _) (Nat.le_refl _))
  | raised fault => exact .raised fault
  | exhausted => exact .exhausted

theorem of_outcome {run run' : Cursor → Outcome Result}
    (agree : ∀ c, (run c).Agree (Result.Further c.position) (run' c)) :
    Deepens (fun c => { outcome := run c, lent := c })
      (fun c => { outcome := run' c, lent := c }) :=
  fun c => ⟨agree c, rfl⟩

theorem follow (each : List.Forall₂ Deepens parts parts') {low : Nat} (start : Nat)
    (values : List Payload) {c : Cursor} (after : low ≤ c.position) :
    (Parser.follow start values parts c).Agree (Result.Further low)
      (Parser.follow start values parts' c) := by
  induction each generalizing values c with
  | nil => exact .done (.matched after)
  | cons head _ ih =>
      apply (head c).1.bind
      intro r r' related
      cases related with
      | matched later => exact ih _ (Nat.le_trans after later)
      | failed later further => exact .done (.failed (Nat.le_trans after later) further)

theorem sequence (each : List.Forall₂ Deepens parts parts') :
    Deepens (Parser.sequence parts) (Parser.sequence parts') :=
  of_outcome fun c => follow each c.position [] (Nat.le_refl c.position)

theorem firstSuccess {deepest deepest' : Bool} (keeps : deepest = true → deepest' = true)
    (each : List.Forall₂ Deepens parts parts') {c : Cursor} {best best' : Option Result}
    (fails : (reported c best).succeeded = false) (fails' : (reported c best').succeeded = false)
    (after : c.position ≤ (reported c best).stop)
    (further : (reported c best).stop ≤ (reported c best').stop) :
    (Parser.firstSuccess deepest c best parts).Agree (Result.Further c.position)
      (Parser.firstSuccess deepest' c best' parts') := by
  induction each generalizing best best' with
  | nil => exact .done (.of_failures fails fails' after further)
  | cons head _ ih =>
      apply (head c).1.bind
      intro r r' related
      cases related with
      | matched later => exact .done (.matched later)
      | @failed state state' start start' later deeper =>
          let r := Result.failure state start
          let r' := Result.failure state' start'
          have high : c.position ≤ r'.stop := Nat.le_trans later deeper
          obtain ⟨next, stop⟩ := reported_further fails (r := r) rfl later
          obtain ⟨next', stop'⟩ := reported_further fails' (r := r') rfl high
          cases deepest with
          | false =>
              cases deepest' with
              | false => exact ih fails fails' after further
              | true =>
                  have ahead : (reported c best).stop ≤
                      (reported c (Parser.further best' r')).stop := by omega
                  exact ih fails next' after ahead
          | true =>
              cases keeps rfl
              have further' : r.stop ≤ r'.stop := deeper
              have low : c.position ≤ (reported c (Parser.further best r)).stop := by omega
              have ahead : (reported c (Parser.further best r)).stop ≤
                  (reported c (Parser.further best' r')).stop := by omega
              exact ih next next' low ahead

theorem choice {deepest deepest' : Bool} (keeps : deepest = true → deepest' = true)
    (each : List.Forall₂ Deepens parts parts') :
    Deepens (Parser.choice deepest parts) (Parser.choice deepest' parts') :=
  of_outcome fun _ => firstSuccess keeps each rfl rfl (Nat.le_refl _) (Nat.le_refl _)

theorem firstFailure (each : List.Forall₂ Deepens others others') (c : Cursor) :
    (Parser.firstFailure c others).Agree (Option.Rel (Result.Further c.position))
      (Parser.firstFailure c others') := by
  induction each with
  | nil => exact .done .none
  | cons head _ ih =>
      apply (head c).1.bind
      intro r r' related
      cases related with
      | matched _ => exact ih
      | failed later further => exact .done (.some (.failed later further))

theorem both (start : Deepens first first') (each : List.Forall₂ Deepens others others') :
    Deepens (Parser.both first others) (Parser.both first' others') := by
  refine of_outcome fun c => (start c).1.bind fun r r' related => ?_
  cases related with
  | failed later further => exact .done (.failed later further)
  | matched later =>
      refine (firstFailure each c).bind fun check check' same => ?_
      cases same with
      | none => exact .done (.matched later)
      | some related => exact .done related

/-- Where a part fails is not looked at: a repetition goes on from matches only. -/
theorem repeatFrom (inner : Deepens part part') {low : Nat} (start rounds : Nat)
    (values : List Payload) {c : Cursor} (after : low ≤ c.position) :
    (Parser.repeatFrom part start rounds values c).Agree (Result.Further low)
      (Parser.repeatFrom part' start rounds values c) := by
  induction rounds generalizing values c with
  | zero => exact .exhausted
  | succ rounds ih =>
      apply (inner c).1.bind
      intro r r' related
      cases related with
      | failed _ _ => exact .done (.matched after)
      | matched later =>
          simp only [Result.succeeded, Bool.true_and]
          split
          · exact ih _ (Nat.le_trans after later)
          · exact .done (.matched after)

theorem many (rounds : Nat) (inner : Deepens part part') :
    Deepens (Parser.many rounds part) (Parser.many rounds part') :=
  of_outcome fun c => repeatFrom inner c.position rounds [] (Nat.le_refl c.position)

theorem option (default : Maybe) (inner : Deepens part part') :
    Deepens (Parser.option default part) (Parser.option default part') := by
  refine of_outcome fun c => (inner c).1.bind fun r r' related => ?_
  cases related with
  | matched later => exact .done (.matched later)
  | failed _ _ => exact .done (.matched (Nat.le_refl c.position))

theorem peek (inner : Deepens part part') : Deepens (Parser.peek part) (Parser.peek part') := by
  refine of_outcome fun c => (inner c).1.bind fun r r' related => ?_
  cases related with
  | matched _ => exact .done (.matched (Nat.le_refl c.position))
  | failed later further => exact .done (.failed later further)

theorem not (inner : Deepens part part') : Deepens (Parser.not part) (Parser.not part') := by
  have still : ∀ c, Parser.not part c = Parser.not part' c := by
    intro c
    have agree := (inner c).1
    simp only [Parser.not]
    generalize (part c).outcome = outcome, (part' c).outcome = outcome' at agree
    cases agree with
    | done related => cases related <;> rfl
    | raised fault => rfl
    | exhausted => rfl
  have same : Parser.not part = Parser.not part' := funext still
  rw [← same]
  exact refl_of_direct (not_direct part)

theorem of_part (inner : Deepens part part') {next : Result → Outcome Result}
    (each : ∀ low r r', Result.Further low r r' →
      (next r).Agree (Result.Further low) (next r')) :
    Deepens (fun c => { part c with outcome := (part c).outcome >>= next })
      (fun c => { part' c with outcome := (part' c).outcome >>= next }) :=
  fun c => ⟨(inner c).1.bind (each c.position), (inner c).2⟩

theorem skip (inner : Deepens part part') : Deepens (Parser.skip part) (Parser.skip part') := by
  apply inner.of_part
  intro low r r' related
  cases related with
  | matched later => exact .done (.matched later)
  | failed later further => exact .done (.failed later further)

theorem map (f : Payload → Except Fault Payload) (inner : Deepens part part') :
    Deepens (Parser.map f part) (Parser.map f part') := by
  apply inner.of_part
  intro low r r' related
  cases related with
  | failed later further => exact .done (.failed later further)
  | @matched value state start later =>
      by_cases present : value.present = true
      · simp only [present, if_true]
        cases f value.value with
        | ok image => exact .done (.matched later)
        | error fault => exact .raised fault
      · simp only [present, Bool.false_eq_true, if_false]
        exact .done (.matched later)

end Deepens

end Parser

theorem Grammar.parser_deepens (rounds : Nat) {rules rules' : String → Parser}
    (known : ∀ name, (rules name).Deepens (rules' name)) {g g' : Grammar}
    (deepens : g.Deepens g') : (g.parser rounds rules).Deepens (g'.parser rounds rules') := by
  have all : ∀ {parts parts' : List Grammar},
      (∀ part ∈ parts, ∀ {part'}, part.Deepens part' →
        (part.parser rounds rules).Deepens (part'.parser rounds rules')) →
      List.Forall₂ Grammar.Deepens parts parts' →
      List.Forall₂ Parser.Deepens (parsers rounds rules parts) (parsers rounds rules' parts') := by
    intro parts parts' ih each
    induction each with
    | nil => exact .nil
    | cons head _ rest =>
        exact .cons (ih _ List.mem_cons_self head)
          (rest fun part member => ih part (List.mem_cons_of_mem _ member))
  have leaf : ∀ {g : Grammar}, g.handling? = some .direct →
      g.parser rounds rules = g.parser rounds rules' →
      (g.parser rounds rules).Deepens (g.parser rounds rules') := by
    intro g direct same
    rw [← same]
    exact .refl_of_direct (g.parser_direct rounds rules direct)
  induction g generalizing g' with
  | oneOf set => cases deepens; exact leaf rfl rfl
  | noneOf set => cases deepens; exact leaf rfl rfl
  | word w => cases deepens; exact leaf rfl rfl
  | wordIgnoringCase w => cases deepens; exact leaf rfl rfl
  | endOfText => cases deepens; exact leaf rfl rfl
  | sequence parts ih =>
      cases deepens with
      | sequence each => exact .sequence (all ih each)
  | choice deepest parts ih =>
      cases deepens with
      | choice keeps each => exact .choice keeps (all ih each)
  | both first others ihFirst ih =>
      cases deepens with
      | both start each => exact .both (ihFirst start) (all ih each)
  | many part ih =>
      cases deepens with
      | many inner => exact .many rounds (ih inner)
  | skip part ih =>
      cases deepens with
      | skip inner => exact .skip (ih inner)
  | option default part ih =>
      cases deepens with
      | option _ inner => exact .option default (ih inner)
  | peek part ih =>
      cases deepens with
      | peek inner => exact .peek (ih inner)
  | not part ih =>
      cases deepens with
      | not inner => exact .not (ih inner)
  | map f part ih =>
      cases deepens with
      | map _ inner => exact .map f (ih inner)
  | rule name => cases deepens; exact known name

theorem Definitions.Deepens.parser {defs defs' : Definitions} (deepens : defs.Deepens defs')
    (rounds depth : Nat) (name : String) :
    (defs.parser rounds depth name).Deepens (defs'.parser rounds depth name) := by
  induction depth generalizing name with
  | zero => exact fun _ => ⟨.exhausted, rfl⟩
  | succ depth ih =>
      intro c
      have found := deepens.lookup name
      simp only [Definitions.parser]
      generalize defs.lookup name = g?, defs'.lookup name = g?' at found
      cases found with
      | none => exact ⟨.raised _, rfl⟩
      | some inner => exact Grammar.parser_deepens rounds ih inner c

theorem Grammar.parse_deepens {defs defs' : Definitions} (deeper : defs.Deepens defs')
    {g g' : Grammar} (deepens : g.Deepens g') :
    Parser.Deepens (g.parse · defs) (g'.parse · defs') := by
  intro c
  have depth : Grammar.depthFor defs c = Grammar.depthFor defs' c := by
    rw [Grammar.depthFor, Grammar.depthFor, List.Forall₂.length_eq deeper]
  simp only [Grammar.parse, depth]
  exact Grammar.parser_deepens _ (deeper.parser _ _) deepens c

def Outcome.FailsAt (outcome : Outcome Result) (e : Nat) : Prop :=
  ∃ r, outcome = .done r ∧ r.succeeded = false ∧ r.stop = e

namespace Parser

variable {parts : List Parser} {c : Cursor} {es : List Nat}

theorem firstSuccess_failsAt {b : Result} (fails : b.succeeded = false)
    (each : List.Forall₂ (fun part e => (part c).outcome.FailsAt e) parts es) :
    (firstSuccess true c (some b) parts).FailsAt (es.foldl max b.stop) := by
  induction each generalizing b with
  | nil => exact ⟨b, rfl, fails, rfl⟩
  | cons head _ ih =>
      obtain ⟨r, ends, failed, rfl⟩ := head
      obtain ⟨s, kept, stop, still⟩ := further_some b r
      simp only [firstSuccess, ends, Outcome.bind_done, failed, Bool.false_eq_true, if_false,
        if_true, kept, List.foldl_cons, ← stop]
      exact ih (still fails failed)

theorem choice_failsAt
    (each : List.Forall₂ (fun part e => (part c).outcome.FailsAt e) parts es) :
    (choice true parts c).outcome.FailsAt (es.max?.getD c.position) := by
  cases each with
  | nil => exact ⟨.failureAt c, rfl, rfl, rfl⟩
  | cons head rest =>
      obtain ⟨r, ends, failed, rfl⟩ := head
      simp only [choice, firstSuccess, ends, Outcome.bind_done, failed, Bool.false_eq_true,
        if_false, if_true, further, List.max?_cons', Option.getD_some]
      exact firstSuccess_failsAt failed rest

end Parser

/-- Asking choices for their deepest failures, also those in definitions, changes nothing but where
failures are reported, which is no less far on. A choice that is asked reports the furthest of the
failures of its parts, and its own position if it has no parts. -/
theorem deepening_moves_failures :
    (∀ defs defs' : Definitions, defs.Deepens defs' → ∀ g g' : Grammar, g.Deepens g' →
      ∀ (body : Body) (i : Nat),
        (g.parse (body.cursor i) defs).outcome.Agree (Result.Further i)
          (g'.parse (body.cursor i) defs').outcome ∧
        (g.parse (body.cursor i) defs).lent = (g'.parse (body.cursor i) defs').lent) ∧
    ∀ (defs : Definitions) (parts : List Grammar) (body : Body) (i : Nat) (es : List Nat),
      List.Forall₂ (fun part e => (part.parse (body.cursor i) defs).outcome.FailsAt e) parts es →
      ((Grammar.choice true parts).parse (body.cursor i) defs).outcome.FailsAt
        (es.max?.getD i) := by
  constructor
  · intro defs defs' deeper g g' deepens body i
    exact Grammar.parse_deepens deeper deepens (body.cursor i)
  · intro defs parts body i es each
    apply Parser.choice_failsAt
    rw [Grammar.parsers_eq_map, List.forall₂_map_left_iff]
    exact each

/-- The innermost bracket of a recursive definition is reported in place of the second one. -/
theorem deepening_moves_failures_brackets :
    ∃ (list : Bool → Grammar) (defs defs' : Definitions) (body : Body),
      list = (fun deepest =>
        .sequence ["(", .choice deepest [.rule "list", "a"], ")"]) ∧
      defs = [("list", list false)] ∧ defs' = [("list", list true)] ∧
      body = { text := "((b", name := [] } ∧ defs.Deepens defs' ∧
      ((Grammar.rule "list").parse (body.cursor 0) defs).outcome =
        .done (.failure (body.cursor 1) 1) ∧
      ((Grammar.rule "list").parse (body.cursor 0) defs').outcome =
        .done (.failure (body.cursor 2) 2) ∧
      (Result.failure (body.cursor 1) 1).Further 0 (.failure (body.cursor 2) 2) ∧
      ((Grammar.choice true [.rule "list", "a"]).parse (body.cursor 1) defs).outcome.FailsAt 2 := by
  let list (deepest : Bool) : Grammar :=
    .sequence ["(", .choice deepest [.rule "list", "a"], ")"]
  let defs : Definitions := [("list", list false)]
  let defs' : Definitions := [("list", list true)]
  let body : Body := { text := "((b", name := [] }
  have parts : List.Forall₂ Grammar.Deepens [.rule "list", "a"] [.rule "list", "a"] :=
    .cons (.rule _) (.cons (.word _) .nil)
  have inner : (list false).Deepens (list true) :=
    .sequence (.cons (.word _) (.cons (.choice nofun parts) (.cons (.word _) .nil)))
  have deeper : defs.Deepens defs' := .cons ⟨rfl, inner⟩ .nil
  have plain : ((Grammar.rule "list").parse (body.cursor 0) defs).outcome =
      .done (.failure (body.cursor 1) 1) := rfl
  have asked : ((Grammar.rule "list").parse (body.cursor 0) defs').outcome =
      .done (.failure (body.cursor 2) 2) := rfl
  obtain ⟨agree, _⟩ := deepening_moves_failures.1 defs defs' deeper _ _ (.rule "list") body 0
  have maximum := deepening_moves_failures.2 defs [.rule "list", "a"] body 1 [2, 1]
    (.cons ⟨_, rfl, rfl, rfl⟩ (.cons ⟨_, rfl, rfl, rfl⟩ .nil))
  rw [plain, asked] at agree
  cases agree with
  | done further =>
      exact ⟨list, defs, defs', body, rfl, rfl, rfl, rfl, deeper, plain, asked, further, maximum⟩

end Descent
