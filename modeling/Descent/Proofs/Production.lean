import Descent.Proofs.Search
import Mathlib.Data.Set.List

/-! Grammars that end everywhere without a fault, and what their payloads look like. -/

namespace Descent

def Payload.Textual (payload : Payload) : Prop := ∃ t, payload.flatten = .ok t

theorem Payload.textual_list {items : List Payload} (each : ∀ item ∈ items, item.Textual) :
    (Payload.list items).Textual := by
  induction items with
  | nil => exact ⟨[], rfl⟩
  | cons item items ih =>
      obtain ⟨front, first⟩ := each item List.mem_cons_self
      obtain ⟨back, rest⟩ := ih fun item member => each item (List.mem_cons_of_mem _ member)
      exact ⟨front ++ back, Payload.flatten_cons first rest⟩

theorem Payload.concat_lists {values : List Payload}
    (lists : ∀ v ∈ values, ∃ group, v = .list group) :
    ∃ items, concat (.list values) = .ok (.list items) := by
  obtain ⟨groups, rfl⟩ : values ∈ Set.range (List.map Payload.list) := by
    rw [Set.range_list_map]
    exact fun v member => (lists v member).imp fun group same => same.symm
  exact ⟨_, Meaning.concat_groups groups⟩

namespace Maybe

def IsText (m : Maybe) : Prop := ∃ t, m = .just (.text t)

def IsList (fits : List Payload → Prop) (m : Maybe) : Prop :=
  ∃ values, m = .just (.list values) ∧ fits values

def HasText (m : Maybe) : Prop := ∃ payload, m = .just payload ∧ payload.Textual

def Textual (m : Maybe) : Prop := ∀ payload ∈ m.toList, payload.Textual

@[simp] theorem toList_just (payload : Payload) : (just payload).toList = [payload] := rfl

@[simp] theorem toList_nothing : nothing.toList = [] := rfl

theorem IsText.hasText {m : Maybe} (text : m.IsText) : m.HasText := by
  obtain ⟨t, rfl⟩ := text
  exact ⟨_, rfl, t, Payload.flatten_text t⟩

theorem IsList.hasText {m : Maybe} (list : m.IsList fun values => ∀ v ∈ values, v.Textual) :
    m.HasText := by
  obtain ⟨values, rfl, each⟩ := list
  exact ⟨_, rfl, Payload.textual_list each⟩

theorem HasText.textual {m : Maybe} (there : m.HasText) : m.Textual := by
  obtain ⟨payload, rfl, textual⟩ := there
  intro other member
  rw [List.mem_singleton.mp member]
  exact textual

theorem IsText.textual {m : Maybe} (text : m.IsText) : m.Textual := text.hasText.textual

theorem nothing_textual : nothing.Textual := fun _ member => absurd member List.not_mem_nil

end Maybe

/-- Matches with a payload that fits, or fails; neither stops with a fault nor runs on. -/
def Produces (defs : Definitions) (text : Text) (fits : Maybe → Prop) (g : Grammar) : Prop :=
  ∀ i, (∃ value j, Meaning defs text g i (.matched value j) ∧ fits value) ∨
    ∃ e, Meaning defs text g i (.failed e)

namespace Produces

variable {defs : Definitions} {text : Text} {A B : Maybe → Prop} {part : Grammar}
  {parts : List Grammar}

theorem mono {g : Grammar} (produces : Produces defs text A g) (weaker : ∀ m, A m → B m) :
    Produces defs text B g :=
  fun i => (produces i).imp_left fun ⟨value, j, meaning, fits⟩ =>
    ⟨value, j, meaning, weaker value fits⟩

theorem failed_of_not_matched {g : Grammar} {i : Nat} (produces : Produces defs text A g)
    (never : ∀ value j, ¬ Meaning defs text g i (.matched value j)) :
    ∃ e, Meaning defs text g i (.failed e) :=
  (produces i).resolve_left fun ⟨value, j, meaning, _⟩ => never value j meaning

theorem fits_of_matched {g : Grammar} (produces : Produces defs text A g) {i j : Nat}
    {value : Maybe} (meaning : Meaning defs text g i (.matched value j)) : A value := by
  rcases produces i with ⟨other, k, found, fits⟩ | ⟨e, fails⟩
  · obtain ⟨rfl, rfl⟩ := Answer.matched.inj (meaning.unique found)
    exact fits
  · exact absurd (meaning.unique fails) nofun

/-- What matches no fault and no payload but a text is a single answer of either kind. -/
theorem of_answer {g : Grammar} {answer : Nat → Answer}
    (meaning : ∀ i, Meaning defs text g i (answer i))
    (known : ∀ i, (∃ t j, answer i = .matched (.just (.text t)) j) ∨ ∃ e, answer i = .failed e) :
    Produces defs text Maybe.IsText g := by
  intro i
  have found := meaning i
  rcases known i with ⟨t, j, same⟩ | ⟨e, same⟩
  · rw [same] at found
    exact .inl ⟨_, j, found, t, rfl⟩
  · rw [same] at found
    exact .inr ⟨e, found⟩

theorem character_known (accepts : CodePoint → Bool) (text : Text) (i : Nat) :
    (∃ t j, Answer.character accepts text i = .matched (.just (.text t)) j) ∨
      ∃ e, Answer.character accepts text i = .failed e := by
  rw [Answer.character]
  split
  · split
    · exact .inl ⟨_, _, rfl⟩
    · exact .inr ⟨_, rfl⟩
  · exact .inr ⟨_, rfl⟩

theorem oneOf (set : Text) : Produces defs text Maybe.IsText (.oneOf set) :=
  of_answer (.oneOf set) (character_known _ text)

theorem noneOf (set : Text) : Produces defs text Maybe.IsText (.noneOf set) :=
  of_answer (.noneOf set) (character_known _ text)

theorem word (w : Text) : Produces defs text Maybe.IsText (.word w) := by
  apply of_answer (.word w)
  intro i
  rw [Answer.word]
  split
  · exact .inl ⟨_, _, rfl⟩
  · exact .inr ⟨_, rfl⟩

theorem endOfText : Produces defs text Maybe.IsText .endOfText := by
  apply of_answer .endOfText
  intro i
  rw [Answer.endOfText]
  split
  · exact .inl ⟨_, _, rfl⟩
  · exact .inr ⟨_, rfl⟩

theorem not (inner : Produces defs text A part) : Produces defs text Maybe.IsText (.not part) := by
  intro i
  rcases inner i with ⟨value, j, meaning, _⟩ | ⟨e, fails⟩
  · exact .inr ⟨i, .not_matched meaning⟩
  · have meaning := Meaning.not_failed fails
    have known := character_known (fun _ => true) text i
    rcases known with ⟨t, j, same⟩ | ⟨f, same⟩
    · rw [same] at meaning
      exact .inl ⟨_, j, meaning, t, rfl⟩
    · rw [same] at meaning
      exact .inr ⟨f, meaning⟩

theorem choice (deepest : Bool) (each : ∀ part ∈ parts, Produces defs text A part) :
    Produces defs text A (.choice deepest parts) := by
  induction parts with
  | nil => exact fun i => .inr ⟨i, .choice_nil deepest i⟩
  | cons part parts ih =>
      intro i
      rcases each part List.mem_cons_self i with ⟨value, j, meaning, fits⟩ | ⟨e, fails⟩
      · exact .inl ⟨value, j, .choice_first meaning rfl, fits⟩
      · rcases ih (fun part member => each part (List.mem_cons_of_mem _ member)) i with
          ⟨value, j, later, fits⟩ | ⟨f, later⟩
        · exact .inl ⟨value, j, .choice_later fails later rfl, fits⟩
        · exact .inr ⟨_, .choice_failed fails later⟩

theorem sequence_nil : Produces defs text (Maybe.IsList (· = [])) (.sequence []) :=
  fun i => .inl ⟨_, i, .sequence_nil i, [], rfl, rfl⟩

theorem sequence_cons {P Q : List Payload → Prop} (first : Produces defs text A part)
    (rest : Produces defs text (Maybe.IsList P) (.sequence parts))
    (together : ∀ m values, A m → P values → Q (m.toList ++ values)) :
    Produces defs text (Maybe.IsList Q) (.sequence (part :: parts)) := by
  intro i
  rcases first i with ⟨value, j, meaning, fits⟩ | ⟨e, fails⟩
  · rcases rest j with ⟨_, k, later, values, rfl, held⟩ | ⟨f, later⟩
    · exact .inl ⟨_, k, .sequence_next meaning later, _, rfl, together value values fits held⟩
    · exact .inr ⟨f, .sequence_next meaning later⟩
  · exact .inr ⟨e, .sequence_stop fails rfl⟩

theorem sequence (each : ∀ part ∈ parts, Produces defs text Maybe.Textual part) :
    Produces defs text Maybe.HasText (.sequence parts) := by
  suffices list : Produces defs text (Maybe.IsList fun values => ∀ v ∈ values, v.Textual)
      (.sequence parts) from list.mono fun _ list => list.hasText
  induction parts with
  | nil =>
      apply sequence_nil.mono
      intro m list
      obtain ⟨values, rfl, rfl⟩ := list
      exact ⟨[], rfl, fun _ member => absurd member List.not_mem_nil⟩
  | cons part parts ih =>
      refine sequence_cons (each part List.mem_cons_self)
        (ih fun part member => each part (List.mem_cons_of_mem _ member)) ?_
      intro m values textual held v member
      rcases List.mem_append.mp member with member | member
      · exact textual v member
      · exact held v member

/-- A repetition ends because each of its matches leaves less of the text. -/
theorem many {P : Payload → Prop} (inner : Produces defs text A part)
    (collected : ∀ m, A m → ∀ v ∈ m.toList, P v) :
    Produces defs text (Maybe.IsList fun values => ∀ v ∈ values, P v) (.many part) := by
  intro i
  left
  -- A match that counts leaves less of the text, so the repetition ends.
  induction left : text.length - i using Nat.strong_induction_on generalizing i with
  | _ n ih =>
      rcases inner i with ⟨value, j, meaning, fits⟩ | ⟨e, fails⟩
      · by_cases advances : i < j
        · have inside := meaning.lt_length advances
          obtain ⟨_, k, later, values, rfl, held⟩ := ih (text.length - j) (by omega) j rfl
          refine ⟨_, k, .many_next meaning advances later, _, rfl, ?_⟩
          intro v member
          rcases List.mem_append.mp member with member | member
          · exact collected value fits v member
          · exact held v member
        · exact ⟨_, i, .many_still meaning (Nat.not_lt.mp advances), [], rfl,
            fun _ member => absurd member List.not_mem_nil⟩
      · exact ⟨_, i, .many_failed fails, [], rfl, fun _ member => absurd member List.not_mem_nil⟩

theorem many_texts (inner : Produces defs text Maybe.IsText part) :
    Produces defs text Maybe.HasText (.many part) :=
  (inner.many fun _ text => text.textual).mono fun _ list => list.hasText

theorem skip (inner : Produces defs text A part) :
    Produces defs text (· = .nothing) (.skip part) := by
  intro i
  rcases inner i with ⟨value, j, meaning, _⟩ | ⟨e, fails⟩
  · exact .inl ⟨_, j, .skip_matched meaning, rfl⟩
  · exact .inr ⟨e, .skip_stop fails rfl⟩

theorem skip_textual (inner : Produces defs text A part) :
    Produces defs text Maybe.Textual (.skip part) := by
  apply inner.skip.mono
  rintro m rfl
  exact Maybe.nothing_textual

theorem peek (inner : Produces defs text A part) : Produces defs text A (.peek part) := by
  intro i
  rcases inner i with ⟨value, j, meaning, fits⟩ | ⟨e, fails⟩
  · exact .inl ⟨value, i, .peek_matched meaning, fits⟩
  · exact .inr ⟨e, .peek_stop fails rfl⟩

theorem option {default : Maybe} (inner : Produces defs text A part) (absent : A default) :
    Produces defs text A (.option default part) := by
  intro i
  rcases inner i with ⟨value, j, meaning, fits⟩ | ⟨e, fails⟩
  · exact .inl ⟨value, j, .option_some meaning rfl, fits⟩
  · exact .inl ⟨_, i, .option_none fails, absent⟩

theorem optional (inner : Produces defs text A part) (absent : A .nothing) :
    Produces defs text A (.optional part) := inner.option absent

theorem map {f : Payload → Except Fault Payload} (inner : Produces defs text A part)
    (applied : ∀ m, A m → ∃ payload image, m = .just payload ∧ f payload = .ok image ∧
      B (.just image)) : Produces defs text B (.map f part) := by
  intro i
  rcases inner i with ⟨value, j, meaning, fits⟩ | ⟨e, fails⟩
  · obtain ⟨payload, image, rfl, same, held⟩ := applied value fits
    exact .inl ⟨_, j, .map_done meaning same, held⟩
  · exact .inr ⟨e, .map_stop fails rfl⟩

theorem joined (inner : Produces defs text Maybe.HasText part) :
    Produces defs text Maybe.IsText (.joined part) := by
  apply inner.map
  rintro m ⟨payload, rfl, t, flat⟩
  exact ⟨_, _, rfl, Payload.joined_of_flatten flat, t, rfl⟩

theorem sequence_skip {P : List Payload → Prop} (first : Produces defs text (· = .nothing) part)
    (rest : Produces defs text (Maybe.IsList P) (.sequence parts)) :
    Produces defs text (Maybe.IsList P) (.sequence (part :: parts)) := by
  apply sequence_cons first rest
  rintro m values rfl held
  exact held

theorem sequence_text (first : Produces defs text Maybe.IsText part)
    (rest : Produces defs text (Maybe.IsList (· = [])) (.sequence parts)) :
    Produces defs text (Maybe.IsList fun values => ∃ t, values = [.text t])
      (.sequence (part :: parts)) := by
  apply sequence_cons first rest
  rintro m values ⟨t, rfl⟩ rfl
  exact ⟨t, rfl⟩

theorem head (inner : Produces defs text
    (Maybe.IsList fun values => ∃ t, values = [.text t]) part) :
    Produces defs text Maybe.IsText (.head part) := by
  apply inner.map
  rintro m ⟨values, rfl, t, rfl⟩
  exact ⟨_, _, rfl, rfl, t, rfl⟩

theorem oneOrMore {P : Payload → Prop} (inner : Produces defs text A part)
    (collected : ∀ m, A m → ∀ v ∈ m.toList, P v) :
    Produces defs text (Maybe.IsList fun values => ∀ v ∈ values, P v) (.oneOrMore part) := by
  intro i
  rcases inner i with ⟨value, j, meaning, fits⟩ | ⟨e, fails⟩
  · rcases inner.many collected j with ⟨_, k, later, values, rfl, held⟩ | ⟨f, later⟩
    · refine .inl ⟨_, k, Meaning.oneOrMore_iff.mpr (.next meaning later), _, rfl, ?_⟩
      intro v member
      rcases List.mem_append.mp member with member | member
      · exact collected value fits v member
      · exact held v member
    · exact .inr ⟨f, Meaning.oneOrMore_iff.mpr (.next meaning later)⟩
  · exact .inr ⟨e, Meaning.oneOrMore_iff.mpr (.stop fails rfl)⟩

theorem prependFirst {rest : Grammar} (first : Produces defs text A part)
    (list : Produces defs text (Maybe.IsList fun _ => True) rest) :
    Produces defs text (Maybe.IsList fun _ => True)
      (.map Payload.prependFirst (.sequence [part, rest])) := by
  have tail : Produces defs text (Maybe.IsList fun values => ∃ more, values = [.list more])
      (.sequence [rest]) := by
    apply sequence_cons list sequence_nil
    rintro m values ⟨more, rfl, _⟩ rfl
    exact ⟨more, rfl⟩
  have both : Produces defs text
      (Maybe.IsList fun values => ∃ (m : Maybe) (more : List Payload),
        values = m.toList ++ [.list more]) (.sequence [part, rest]) := by
    apply sequence_cons first tail
    rintro m values _ ⟨more, rfl⟩
    exact ⟨m, more, rfl⟩
  apply both.map
  rintro _ ⟨_, rfl, m, more, rfl⟩
  exact ⟨_, _, rfl, Payload.prependFirst_list m more, _, rfl, trivial⟩

theorem separatedBy {item separator : Grammar} (items : Produces defs text A item)
    (separators : Produces defs text B separator) :
    Produces defs text (Maybe.IsList fun _ => True) (.separatedBy item separator) := by
  have single : Produces defs text (Maybe.IsList fun _ => True) (.sequence [item]) :=
    sequence_cons items sequence_nil fun _ _ _ _ => trivial
  have pair : Produces defs text (Maybe.IsList fun _ => True) (.sequence [separator, item]) :=
    sequence_cons separators single fun _ _ _ _ => trivial
  have pairs : Produces defs text
      (Maybe.IsList fun values => ∀ v ∈ values, ∃ group, v = .list group)
      (.many (.sequence [separator, item])) := by
    apply pair.many
    rintro m ⟨group, rfl, _⟩ v member
    exact ⟨group, List.mem_singleton.mp member⟩
  refine items.prependFirst (pairs.map ?_)
  rintro _ ⟨values, rfl, lists⟩
  obtain ⟨items, same⟩ := Payload.concat_lists lists
  exact ⟨_, _, rfl, same, items, rfl, trivial⟩

theorem done {g : Grammar} {body : Body} (produces : Produces [] body.text A g) (i : Nat) :
    ∃ r, (g.parse (body.cursor i)).outcome = .done r := by
  rcases produces i with ⟨value, j, meaning, _⟩ | ⟨e, fails⟩
  · have yields : Parser.Yields body (g.parse · []) i _ := Grammar.parse_complete meaning
    exact ⟨_, yields.outcome_eq⟩
  · have yields : Parser.Yields body (g.parse · []) i _ := Grammar.parse_complete fails
    exact ⟨_, yields.outcome_eq⟩

end Produces

end Descent
