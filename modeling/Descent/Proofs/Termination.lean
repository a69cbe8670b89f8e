import Descent.Proofs.Completeness
import Descent.Proofs.Faults
import Mathlib.Tactic.Tauto

/-! Grammars whose names do not lead back to themselves before a character is taken run to an end
everywhere. -/

namespace Descent

namespace Grammar

/-- May match without taking a character, as far as the shapes of grammars and definitions tell. -/
inductive Nullable (defs : Definitions) : Grammar → Prop where
  | word : Nullable defs (.word [])
  | wordIgnoringCase : Nullable defs (.wordIgnoringCase [])
  | endOfText : Nullable defs .endOfText
  | sequence {parts : List Grammar} (each : ∀ part ∈ parts, Nullable defs part) :
      Nullable defs (.sequence parts)
  | choice {deepest : Bool} {parts : List Grammar} {part : Grammar} (member : part ∈ parts)
      (inner : Nullable defs part) : Nullable defs (.choice deepest parts)
  | both {first : Grammar} {others : List Grammar} (inner : Nullable defs first) :
      Nullable defs (.both first others)
  | many (part : Grammar) : Nullable defs (.many part)
  | skip {part : Grammar} (inner : Nullable defs part) : Nullable defs (.skip part)
  | option (default : Maybe) (part : Grammar) : Nullable defs (.option default part)
  | peek (part : Grammar) : Nullable defs (.peek part)
  | map {f : Payload → Except Fault Payload} {part : Grammar} (inner : Nullable defs part) :
      Nullable defs (.map f part)
  | rule {name : String} {g : Grammar} (found : defs.lookup name = some g)
      (body : Nullable defs g) : Nullable defs (.rule name)

/-- A name that may be looked up before a character is taken. -/
inductive Opens (defs : Definitions) : Grammar → String → Prop where
  | rule (name : String) : Opens defs (.rule name) name
  | sequence_first {part : Grammar} {parts : List Grammar} {name : String}
      (inner : Opens defs part name) : Opens defs (.sequence (part :: parts)) name
  | sequence_later {part : Grammar} {parts : List Grammar} {name : String}
      (empty : part.Nullable defs) (inner : Opens defs (.sequence parts) name) :
      Opens defs (.sequence (part :: parts)) name
  | choice {deepest : Bool} {parts : List Grammar} {part : Grammar} {name : String}
      (member : part ∈ parts) (inner : Opens defs part name) :
      Opens defs (.choice deepest parts) name
  | both_first {first : Grammar} {others : List Grammar} {name : String}
      (inner : Opens defs first name) : Opens defs (.both first others) name
  | both_other {first part : Grammar} {others : List Grammar} {name : String}
      (member : part ∈ others) (inner : Opens defs part name) :
      Opens defs (.both first others) name
  | many {part : Grammar} {name : String} (inner : Opens defs part name) :
      Opens defs (.many part) name
  | skip {part : Grammar} {name : String} (inner : Opens defs part name) :
      Opens defs (.skip part) name
  | option {default : Maybe} {part : Grammar} {name : String} (inner : Opens defs part name) :
      Opens defs (.option default part) name
  | peek {part : Grammar} {name : String} (inner : Opens defs part name) :
      Opens defs (.peek part) name
  | not {part : Grammar} {name : String} (inner : Opens defs part name) :
      Opens defs (.not part) name
  | map {f : Payload → Except Fault Payload} {part : Grammar} {name : String}
      (inner : Opens defs part name) : Opens defs (.map f part) name

namespace Opens

variable {defs : Definitions} {part item separator : Grammar} {parts : List Grammar}
  {name : String}

theorem sequence_nil_iff : (Grammar.sequence []).Opens defs name ↔ False := by
  constructor
  · intro opens
    cases opens
  · exact False.elim

theorem sequence_cons_iff : (Grammar.sequence (part :: parts)).Opens defs name ↔
    part.Opens defs name ∨ part.Nullable defs ∧ (Grammar.sequence parts).Opens defs name := by
  constructor
  · intro opens
    cases opens with
    | sequence_first inner => exact .inl inner
    | sequence_later empty inner => exact .inr ⟨empty, inner⟩
  · rintro (inner | ⟨empty, inner⟩)
    · exact .sequence_first inner
    · exact .sequence_later empty inner

theorem many_iff : (Grammar.many part).Opens defs name ↔ part.Opens defs name := by
  constructor
  · intro opens
    cases opens with
    | many inner => exact inner
  · exact .many

theorem map_iff {f : Payload → Except Fault Payload} :
    (Grammar.map f part).Opens defs name ↔ part.Opens defs name := by
  constructor
  · intro opens
    cases opens with
    | map inner => exact inner
  · exact .map

theorem oneOrMore_iff : (Grammar.oneOrMore part).Opens defs name ↔ part.Opens defs name := by
  simp only [oneOrMore, map_iff, many_iff, sequence_cons_iff, sequence_nil_iff]
  tauto

theorem separatedBy_iff : (Grammar.separatedBy item separator).Opens defs name ↔
    item.Opens defs name ∨ item.Nullable defs ∧
      (separator.Opens defs name ∨ separator.Nullable defs ∧ item.Opens defs name) := by
  simp only [separatedBy, map_iff, many_iff, sequence_cons_iff, sequence_nil_iff]
  tauto

end Opens

end Grammar

/-- No definition opens with a name of the same rank or of a higher one. -/
def Definitions.Ranked (defs : Definitions) (rank : String → Nat) : Prop :=
  ∀ name g other, defs.lookup name = some g → g.Opens defs other → rank other < rank name

namespace Answer

def Still (i : Nat) : Answer → Prop
  | matched _ stop => stop ≤ i
  | failed _ => False
  | raised _ => False

theorem Still.isMatch {i : Nat} {a : Answer} (still : a.Still i) : a.isMatch = true := by
  cases a with
  | matched value stop => rfl
  | failed position => exact still.elim
  | raised fault => exact still.elim

theorem Still.of_prepend {i : Nat} {a : Answer} {values : List Payload}
    (still : (a.prepend values).Still i) : a.Still i := by
  cases a <;> exact still

theorem Still.mono {i j : Nat} {a : Answer} (still : a.Still i) (le : i ≤ j) : a.Still j := by
  cases a with
  | matched value stop => exact Nat.le_trans still le
  | failed position => exact still
  | raised fault => exact still

theorem Still.le {text : Text} {i j : Nat} {a : Answer} (still : a.Still i)
    (within : a.Within text j) : j ≤ i := by
  cases a with
  | matched value stop => exact Nat.le_trans within.1 still
  | failed position => exact still.elim
  | raised fault => exact still.elim

theorem not_still_of_stops {i : Nat} {a : Answer} (stops : a.isMatch = false) : ¬ a.Still i :=
  fun still => Bool.false_ne_true (stops.symm.trans still.isMatch)

theorem not_still_character (accepts : CodePoint → Bool) (text : Text) (i : Nat) :
    ¬ (character accepts text i).Still i := by
  unfold character
  split
  · split
    · exact Nat.not_succ_le_self i
    · exact id
  · exact id

theorem still_word {w text : Text} {i : Nat} (still : (word w text i).Still i) : w = [] := by
  unfold word at still
  split at still
  · exact List.length_eq_zero_iff.mp (Nat.le_zero.mp (Nat.le_of_add_le_add_left still))
  · exact still.elim

theorem still_wordIgnoringCase {w text : Text} {i : Nat}
    (still : (wordIgnoringCase w text i).Still i) : w = [] := by
  simp only [wordIgnoringCase] at still
  split at still
  · exact List.length_eq_zero_iff.mp (Nat.le_zero.mp (Nat.le_of_add_le_add_left still))
  · exact still.elim

end Answer

namespace Meaning

variable {defs : Definitions} {text : Text} {g part first : Grammar} {parts others : List Grammar}
  {i : Nat}

/-- What matches without taking a character is nullable. -/
theorem nullable {a : Answer} (meaning : Meaning defs text g i a) (still : a.Still i) :
    g.Nullable defs := by
  induction meaning with
  | oneOf set i => exact absurd still (Answer.not_still_character _ _ _)
  | noneOf set i => exact absurd still (Answer.not_still_character _ _ _)
  | word w i =>
      cases Answer.still_word still
      exact .word
  | wordIgnoringCase w i =>
      cases Answer.still_wordIgnoringCase still
      exact .wordIgnoringCase
  | endOfText i => exact .endOfText
  | sequence_nil i => exact .sequence nofun
  | sequence_stop _ stops => exact absurd still (Answer.not_still_of_stops stops)
  | sequence_next first later ih ihLater =>
      have rest := still.of_prepend
      -- The first part ends between the start and the end of the whole, which are the same.
      have empty := ih (rest.le later.within)
      cases ihLater (rest.mono first.le_stop) with
      | sequence each => exact .sequence (List.forall_mem_cons.mpr ⟨empty, each⟩)
  | choice_nil deepest i => exact still.elim
  | choice_first _ _ ih => exact .choice List.mem_cons_self (ih still)
  | choice_later _ _ _ _ ih =>
      cases ih still with
      | choice member inner => exact .choice (List.mem_cons_of_mem _ member) inner
  | choice_failed _ _ => exact still.elim
  | both_nil _ ih => exact .both (ih still)
  | both_first _ stops => exact absurd still (Answer.not_still_of_stops stops)
  | both_other _ _ stops => exact absurd still (Answer.not_still_of_stops stops)
  | both_next _ _ _ _ _ ih =>
      cases ih still with
      | both inner => exact .both inner
  | many_failed _ => exact .many _
  | many_still _ _ => exact .many _
  | many_raised _ => exact .many _
  | many_next _ _ _ => exact .many _
  | skip_matched _ ih => exact .skip (ih still)
  | skip_stop _ stops => exact absurd still (Answer.not_still_of_stops stops)
  | option_some _ _ => exact .option _ _
  | option_none _ => exact .option _ _
  | peek_matched _ => exact .peek _
  | peek_stop _ _ => exact .peek _
  | not_matched _ => exact still.elim
  | not_failed _ => exact absurd still (Answer.not_still_character _ _ _)
  | not_raised _ => exact still.elim
  | map_done _ _ ih => exact .map (ih still)
  | map_raised _ _ => exact still.elim
  | map_absent _ _ ih => exact .map (ih still)
  | map_stop _ stops => exact absurd still (Answer.not_still_of_stops stops)
  | rule found _ ih => exact .rule found (ih still)
  | rule_undefined _ => exact still.elim

end Meaning

namespace Grammar

def Ends (defs : Definitions) (text : Text) (i : Nat) (g : Grammar) : Prop :=
  ∃ a, Meaning defs text g i a

namespace Ends

variable {defs : Definitions} {text : Text} {i : Nat} {part first : Grammar}
  {parts others : List Grammar}

theorem sequence_cons (start : part.Ends defs text i)
    (later : ∀ value j, Meaning defs text part i (.matched value j) →
      (Grammar.sequence parts).Ends defs text j) :
    (Grammar.sequence (part :: parts)).Ends defs text i := by
  obtain ⟨a, meaning⟩ := start
  cases a with
  | matched value j =>
      obtain ⟨b, rest⟩ := later value j meaning
      exact ⟨_, .sequence_next meaning rest⟩
  | failed e => exact ⟨_, .sequence_stop meaning rfl⟩
  | raised fault => exact ⟨_, .sequence_stop meaning rfl⟩

theorem choice (deepest : Bool) (each : ∀ part ∈ parts, part.Ends defs text i) :
    (Grammar.choice deepest parts).Ends defs text i := by
  induction parts with
  | nil => exact ⟨_, .choice_nil deepest i⟩
  | cons part parts ih =>
      obtain ⟨a, meaning⟩ := each part List.mem_cons_self
      obtain ⟨b, rest⟩ := ih fun part member => each part (List.mem_cons_of_mem _ member)
      cases a with
      | matched value j => exact ⟨_, .choice_first meaning rfl⟩
      | raised fault => exact ⟨_, .choice_first meaning rfl⟩
      | failed e =>
          cases b with
          | matched value j => exact ⟨_, .choice_later meaning rest rfl⟩
          | raised fault => exact ⟨_, .choice_later meaning rest rfl⟩
          | failed f => exact ⟨_, .choice_failed meaning rest⟩

theorem both (start : first.Ends defs text i) (each : ∀ part ∈ others, part.Ends defs text i) :
    (Grammar.both first others).Ends defs text i := by
  obtain ⟨a, begins⟩ := start
  cases a with
  | failed e => exact ⟨_, .both_first begins rfl⟩
  | raised fault => exact ⟨_, .both_first begins rfl⟩
  | matched value j =>
      induction others with
      | nil => exact ⟨_, .both_nil begins⟩
      | cons part others ih =>
          obtain ⟨b, check⟩ := each part List.mem_cons_self
          obtain ⟨c, rest⟩ := ih fun part member => each part (List.mem_cons_of_mem _ member)
          cases b with
          | matched other k => exact ⟨_, .both_next begins check rest⟩
          | failed e => exact ⟨_, .both_other begins check rfl⟩
          | raised fault => exact ⟨_, .both_other begins check rfl⟩

theorem many (start : part.Ends defs text i)
    (later : ∀ value j, Meaning defs text part i (.matched value j) → i < j →
      (Grammar.many part).Ends defs text j) : (Grammar.many part).Ends defs text i := by
  obtain ⟨a, meaning⟩ := start
  cases a with
  | failed e => exact ⟨_, .many_failed meaning⟩
  | raised fault => exact ⟨_, .many_raised meaning⟩
  | matched value j =>
      by_cases advances : i < j
      · obtain ⟨b, rest⟩ := later value j meaning advances
        exact ⟨_, .many_next meaning advances rest⟩
      · exact ⟨_, .many_still meaning (Nat.not_lt.mp advances)⟩

theorem skip (inner : part.Ends defs text i) : (Grammar.skip part).Ends defs text i := by
  obtain ⟨a, meaning⟩ := inner
  cases a with
  | matched value j => exact ⟨_, .skip_matched meaning⟩
  | failed e => exact ⟨_, .skip_stop meaning rfl⟩
  | raised fault => exact ⟨_, .skip_stop meaning rfl⟩

theorem option (default : Maybe) (inner : part.Ends defs text i) :
    (Grammar.option default part).Ends defs text i := by
  obtain ⟨a, meaning⟩ := inner
  cases a with
  | matched value j => exact ⟨_, .option_some meaning rfl⟩
  | failed e => exact ⟨_, .option_none meaning⟩
  | raised fault => exact ⟨_, .option_some meaning rfl⟩

theorem peek (inner : part.Ends defs text i) : (Grammar.peek part).Ends defs text i := by
  obtain ⟨a, meaning⟩ := inner
  cases a with
  | matched value j => exact ⟨_, .peek_matched meaning⟩
  | failed e => exact ⟨_, .peek_stop meaning rfl⟩
  | raised fault => exact ⟨_, .peek_stop meaning rfl⟩

theorem not (inner : part.Ends defs text i) : (Grammar.not part).Ends defs text i := by
  obtain ⟨a, meaning⟩ := inner
  cases a with
  | matched value j => exact ⟨_, .not_matched meaning⟩
  | failed e => exact ⟨_, .not_failed meaning⟩
  | raised fault => exact ⟨_, .not_raised meaning⟩

theorem map (f : Payload → Except Fault Payload) (inner : part.Ends defs text i) :
    (Grammar.map f part).Ends defs text i := by
  obtain ⟨a, meaning⟩ := inner
  cases a with
  | failed e => exact ⟨_, .map_stop meaning rfl⟩
  | raised fault => exact ⟨_, .map_stop meaning rfl⟩
  | matched value j =>
      obtain ⟨present, payload⟩ := value
      cases present with
      | false => exact ⟨_, .map_absent meaning rfl⟩
      | true =>
          cases applied : f payload with
          | ok image => exact ⟨_, .map_done meaning applied⟩
          | error fault => exact ⟨_, .map_raised meaning applied⟩

theorem rule {name : String}
    (body : ∀ g, defs.lookup name = some g → g.Ends defs text i) :
    (Grammar.rule name).Ends defs text i := by
  cases found : defs.lookup name with
  | none => exact ⟨_, .rule_undefined found⟩
  | some g =>
      obtain ⟨a, meaning⟩ := body g found
      exact ⟨a, .rule found meaning⟩

/-- A grammar ends at a position if the names that open it do, and everything behind it. -/
theorem of_opening (g : Grammar)
    (later : ∀ j (g : Grammar), text.length - j < text.length - i → g.Ends defs text j)
    (opening : ∀ name, g.Opens defs name → (Grammar.rule name).Ends defs text i) :
    g.Ends defs text i := by
  have behind : ∀ {part g : Grammar} {value : Maybe} {j : Nat},
      Meaning defs text part i (.matched value j) → i < j → g.Ends defs text j := by
    intro part g value j meaning advances
    have inside := meaning.lt_length advances
    exact later j g (by omega)
  induction g with
  | oneOf set => exact ⟨_, .oneOf set i⟩
  | noneOf set => exact ⟨_, .noneOf set i⟩
  | word w => exact ⟨_, .word w i⟩
  | wordIgnoringCase w => exact ⟨_, .wordIgnoringCase w i⟩
  | endOfText => exact ⟨_, .endOfText i⟩
  | sequence parts each =>
      induction parts with
      | nil => exact ⟨_, .sequence_nil i⟩
      | cons part parts ih =>
          have rest := ih fun part member => each part (List.mem_cons_of_mem _ member)
          refine sequence_cons
            (each part List.mem_cons_self fun name inner => opening name (.sequence_first inner)) ?_
          intro value j meaning
          rcases Nat.eq_or_lt_of_le meaning.le_stop with rfl | advances
          · have empty := meaning.nullable (Nat.le_refl i)
            exact rest fun name inner => opening name (.sequence_later empty inner)
          · exact behind meaning advances
  | choice deepest parts each =>
      exact choice deepest fun part member =>
        each part member fun name inner => opening name (.choice member inner)
  | both first others ihFirst each =>
      exact both (ihFirst fun name inner => opening name (.both_first inner))
        fun part member =>
          each part member fun name inner => opening name (.both_other member inner)
  | many part ih =>
      exact many (ih fun name inner => opening name (.many inner))
        fun _ _ meaning advances => behind meaning advances
  | skip part ih => exact (ih fun name inner => opening name (.skip inner)).skip
  | option default part ih =>
      exact (ih fun name inner => opening name (.option inner)).option default
  | peek part ih => exact (ih fun name inner => opening name (.peek inner)).peek
  | not part ih => exact (ih fun name inner => opening name (.not inner)).not
  | map f part ih => exact (ih fun name inner => opening name (.map inner)).map f
  | rule name => exact opening name (.rule name)

end Ends

end Grammar

namespace Definitions

variable {defs : Definitions} {rank : String → Nat}

/-- What is left of the text decreases, or the rank of the name that is looked up. -/
theorem Ranked.ends (ranked : defs.Ranked rank) (text : Text) (i : Nat) (g : Grammar) :
    g.Ends defs text i := by
  induction left : text.length - i using Nat.strong_induction_on generalizing i g with
  | _ n ihText =>
      subst left
      have later : ∀ j (g : Grammar), text.length - j < text.length - i → g.Ends defs text j :=
        fun j g shorter => ihText _ shorter j g rfl
      have names : ∀ name, (Grammar.rule name).Ends defs text i := by
        intro name
        induction height : rank name using Nat.strong_induction_on generalizing name with
        | _ m ihRank =>
            subst height
            refine .rule fun g found => .of_opening g later fun other opens => ?_
            exact ihRank _ (ranked name g other found opens) other rfl
      exact .of_opening g later fun name _ => names name

end Definitions

namespace Grammar

def Nameless (g : Grammar) : Prop := ∀ name, ¬ g.Runs [] (.rule name)

theorem Nameless.part {g part : Grammar} (nameless : g.Nameless) (member : part ∈ g.parts) :
    part.Nameless :=
  fun name runs => nameless name (.part member runs)

theorem Nameless.parser_eq {g : Grammar} (nameless : g.Nameless) (rounds : Nat)
    (rules rules' : String → Parser) : g.parser rounds rules = g.parser rounds rules' := by
  have all : ∀ {parts : List Grammar},
      (∀ part ∈ parts, part.parser rounds rules = part.parser rounds rules') →
      parsers rounds rules parts = parsers rounds rules' parts := by
    intro parts each
    rw [parsers_eq_map, parsers_eq_map]
    exact List.map_congr_left each
  induction g with
  | oneOf set => rfl
  | noneOf set => rfl
  | word w => rfl
  | wordIgnoringCase w => rfl
  | endOfText => rfl
  | sequence parts ih =>
      simp only [parser, all fun part member => ih part member (nameless.part member)]
  | choice deepest parts ih =>
      simp only [parser, all fun part member => ih part member (nameless.part member)]
  | both first others ihFirst ih =>
      simp only [parser, ihFirst (nameless.part List.mem_cons_self), all fun part member =>
        ih part member (nameless.part (List.mem_cons_of_mem _ member))]
  | many part ih => simp only [parser, ih (nameless.part List.mem_cons_self)]
  | skip part ih => simp only [parser, ih (nameless.part List.mem_cons_self)]
  | option default part ih => simp only [parser, ih (nameless.part List.mem_cons_self)]
  | peek part ih => simp only [parser, ih (nameless.part List.mem_cons_self)]
  | not part ih => simp only [parser, ih (nameless.part List.mem_cons_self)]
  | map f part ih => simp only [parser, ih (nameless.part List.mem_cons_self)]
  | rule name => exact absurd (.self _) (nameless name)

/-- Where a grammar ends, its run ends within its bounds. -/
theorem Ends.parse_ne_exhausted {defs : Definitions} {body : Body} {i : Nat} {g : Grammar}
    (ends : g.Ends defs body.text i) : (g.parse (body.cursor i) defs).outcome ≠ .exhausted := by
  obtain ⟨a, meaning⟩ := ends
  rw [(parse_complete meaning).outcome_eq]
  exact a.outcome_ne_exhausted body i

theorem Nameless.ends {g : Grammar} (nameless : g.Nameless) (defs : Definitions) (text : Text)
    (i : Nat) : g.Ends defs text i := by
  let body : Body := { text, name := [] }
  have unranked : Definitions.Ranked [] fun _ => 0 := nofun
  have settled : (g.parse (body.cursor i) []).outcome ≠ .exhausted :=
    (unranked.ends text i g).parse_ne_exhausted
  have same : (g.parse (body.cursor i) defs).outcome = (g.parse (body.cursor i) []).outcome := by
    rw [parse, parse, nameless.parser_eq]
  rcases g.parse_sound defs body i with unsettled | ⟨a, meaning, _⟩
  · exact absurd (same.symm.trans unsettled) settled
  · exact ⟨a, meaning⟩

inductive Settles (defs : Definitions) (g : Grammar) : Outcome Result → Prop where
  | done (r : Result) : Settles defs g (.done r)
  | raised {fault : Fault} (faults : g.Faults defs fault) : Settles defs g (.raised fault)

theorem Ends.settles {defs : Definitions} {body : Body} {i : Nat} {g : Grammar}
    (ends : g.Ends defs body.text i) : g.Settles defs (g.parse (body.cursor i) defs).outcome := by
  obtain ⟨a, meaning⟩ := ends
  rw [(parse_complete meaning).outcome_eq]
  cases a with
  | matched value j => exact .done _
  | failed e => exact .done _
  | raised fault => exact .raised meaning.faults

end Grammar

/-- If names have ranks that drop wherever a definition may look a name up before it has taken a
character, every run over the definitions comes to an end. Without names a grammar always does. -/
theorem ranked_definitions_settle (defs : Definitions) :
    (∀ rank, defs.Ranked rank → ∀ (g : Grammar) (body : Body) (i : Nat),
      g.Settles defs (g.parse (body.cursor i) defs).outcome) ∧
    (∀ g : Grammar, g.Nameless → ∀ (body : Body) (i : Nat),
      g.Settles defs (g.parse (body.cursor i) defs).outcome) ∧
    (∀ (part : Grammar) name,
      (Grammar.oneOrMore part).Opens defs name ↔ part.Opens defs name) ∧
    ∀ (item separator : Grammar) name,
      (Grammar.separatedBy item separator).Opens defs name ↔
        item.Opens defs name ∨ item.Nullable defs ∧
          (separator.Opens defs name ∨ separator.Nullable defs ∧ item.Opens defs name) := by
  refine ⟨?_, ?_, fun _ _ => Grammar.Opens.oneOrMore_iff,
    fun _ _ _ => Grammar.Opens.separatedBy_iff⟩
  · exact fun rank ranked g body i => (ranked.ends body.text i g).settles
  · exact fun g nameless body i => (nameless.ends defs body.text i).settles

/-- An item in any number of parentheses, with blanks before it. The list opens with the item, as
blanks may be missing, and the item does not open with the list. A repetition of what never takes a
character ends without names. -/
theorem ranked_definitions_settle_nested :
    ∃ (defs : Definitions) (rank : String → Nat) (body : Body) (r s : Result) (idle : Grammar),
      defs = [("list", .sequence [.many (.oneOf " "), .rule "item"]),
        ("item", .choice false ["x", .sequence ["(", .optional (.rule "list"), ")"]])] ∧
      rank = (fun name => if name = "list" then 1 else 0) ∧
      (Grammar.sequence [.many (.oneOf " "), .rule "item"]).Opens defs "item" ∧
      defs.Ranked rank ∧ body = { text := " ( x)", name := [] } ∧
      ((Grammar.rule "list").parse (body.cursor 0) defs).outcome = .done r ∧ r.stop = 5 ∧
      (Grammar.rule "list").Settles defs
        ((Grammar.rule "list").parse (body.cursor 0) defs).outcome ∧
      idle = .many (.peek (.oneOf " ")) ∧ idle.Nameless ∧
      (idle.parse (body.cursor 0) defs).outcome = .done s ∧ s.stop = 0 ∧
      idle.Settles defs (idle.parse (body.cursor 0) defs).outcome := by
  let defs : Definitions :=
    [("list", .sequence [.many (.oneOf " "), .rule "item"]),
      ("item", .choice false ["x", .sequence ["(", .optional (.rule "list"), ")"]])]
  let rank : String → Nat := fun name => if name = "list" then 1 else 0
  have ranked : defs.Ranked rank := by
    intro name g other found opens
    by_cases list : name = "list"
    · subst list
      cases found
      rcases Grammar.Opens.sequence_cons_iff.mp opens with blanks | ⟨_, rest⟩
      · cases blanks with
        | many inner => cases inner
      · rcases Grammar.Opens.sequence_cons_iff.mp rest with item | ⟨_, nothing⟩
        · cases item
          decide
        · cases nothing
    · by_cases item : name = "item"
      · subst item
        cases found
        cases opens with
        | choice member inner =>
            rcases List.mem_pair.mp member with rfl | rfl
            · cases inner
            · rcases Grammar.Opens.sequence_cons_iff.mp inner with mark | ⟨empty, _⟩
              · cases mark
              · cases empty
      · have missing : defs.lookup name = none := by
          rw [List.lookup_eq_none_iff]
          simp [defs, list, item]
        exact absurd (missing.symm.trans found) nofun
  have nameless : (Grammar.many (.peek (.oneOf " "))).Nameless := by
    intro name runs
    cases runs with
    | part member runs =>
        cases List.mem_singleton.mp member
        cases runs with
        | part member runs =>
            cases List.mem_singleton.mp member
            cases runs with
            | part member _ => cases member
  obtain ⟨settles, settlesNameless, _, _⟩ := ranked_definitions_settle defs
  refine ⟨defs, rank, { text := " ( x)", name := [] }, _, _, _, rfl, rfl, ?_, ranked, rfl, rfl, rfl,
    settles rank ranked _ _ _, rfl, nameless, rfl, rfl, settlesNameless _ nameless _ _⟩
  exact .sequence_later (.many _) (.sequence_first (.rule _))

end Descent
