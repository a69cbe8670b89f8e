import Descent.Literal.Word
import Descent.Proofs.Comment.Extraction
import Descent.Proofs.Literal.Float
import Descent.Proofs.Literal.Integer
import Descent.Proofs.Literal.Quoted

/-! Nothing that the grammars apply to payloads stops with a fault. -/

namespace Descent

namespace Parser

def Returns (fits : Maybe → Prop) (part : Parser) : Prop :=
  ∀ c value state start, (part c).outcome = .done (.success value state start) → fits value

variable {A B : Maybe → Prop} {first second part : Parser} {c : Cursor} {fault : Fault}
  {f : Payload → Except Fault Payload}

theorem Returns.mono (returns : part.Returns A) (weaker : ∀ m, A m → B m) : part.Returns B :=
  fun c value state start ends => weaker value (returns c value state start ends)

theorem Returns.trivial (part : Parser) : part.Returns fun _ => True := fun _ _ _ _ _ => .intro

theorem repeatFrom_returns {P : Payload → Prop}
    (inner : part.Returns fun m => ∀ v ∈ m.toList, P v) (start rounds : Nat)
    {values : List Payload} (known : ∀ v ∈ values, P v) {value : Maybe} {state : Cursor}
    {begun : Nat}
    (ends : repeatFrom part start rounds values c = .done (.success value state begun)) :
    value.IsList fun items => ∀ v ∈ items, P v := by
  induction rounds generalizing values c with
  | zero => cases ends
  | succ rounds ih =>
      rw [repeatFrom] at ends
      cases here : (part c).outcome with
      | raised fault => simp [here] at ends
      | exhausted => simp [here] at ends
      | done r =>
          simp only [here, Outcome.bind_done] at ends
          split at ends
          · refine ih (fun v member => ?_) ends
            cases r with
            | failure state begun => simp at *
            | success found state begun =>
                rcases List.mem_append.mp member with new | old
                · exact inner c found state begun here v new
                · exact known v old
          · cases ends
            exact ⟨_, rfl, fun v member => known v (List.mem_reverse.mp member)⟩

theorem Returns.many {P : Payload → Prop} (inner : part.Returns fun m => ∀ v ∈ m.toList, P v)
    (rounds : Nat) :
    (Parser.many rounds part).Returns (Maybe.IsList fun items => ∀ v ∈ items, P v) :=
  fun _ _ _ _ ends =>
    repeatFrom_returns inner _ rounds (fun _ member => absurd member List.not_mem_nil) ends

theorem sequence_pair_outcome (first second : Parser) (c : Cursor) :
    (sequence [first, second] c).outcome = do
      match ← (first c).outcome with
      | .success value state _ =>
        match ← (second state).outcome with
        | .success other state _ =>
          return .success (.just (.list (value.toList ++ other.toList))) state c.position
        | failed => return failed
      | failed => return failed := by
  simp only [sequence, follow, List.nil_append]
  rfl

theorem Returns.sequence_pair (returns : second.Returns A) (first : Parser) :
    (sequence [first, second]).Returns fun m =>
      ∃ v w : Maybe, A w ∧ m = .just (.list (v.toList ++ w.toList)) := by
  intro c value state start ends
  rw [sequence_pair_outcome] at ends
  obtain ⟨r, _, ends⟩ := Outcome.bind_eq_done.mp ends
  cases r with
  | failure state begun => cases ends
  | success v state begun =>
      obtain ⟨r, found, ends⟩ := Outcome.bind_eq_done.mp ends
      cases r with
      | failure state begun => cases ends
      | success w state begun =>
          cases ends
          exact ⟨v, w, returns _ _ _ _ found, rfl⟩

theorem sequence_pair_raised_iff :
    (sequence [first, second] c).outcome = .raised fault ↔
      (first c).outcome = .raised fault ∨ ∃ value state start,
        (first c).outcome = .done (.success value state start) ∧
        (second state).outcome = .raised fault := by
  rw [sequence_pair_outcome]
  cases (first c).outcome with
  | raised other => simp
  | exhausted => simp
  | done r =>
      cases r with
      | failure state start => simp
      | success value state start =>
          cases here : (second state).outcome with
          | raised other => simp [here]
          | exhausted => simp [here]
          | done r => cases r <;> simp [here]

theorem Returns.map (returns : part.Returns A)
    (applied : ∀ m, A m → ∃ payload image, m = .just payload ∧ f payload = .ok image ∧
      B (.just image)) : (Parser.map f part).Returns B := by
  intro c value state start ends
  simp only [Parser.map] at ends
  obtain ⟨r, found, ends⟩ := Outcome.bind_eq_done.mp ends
  cases r with
  | failure state begun => cases ends
  | success v state begun =>
      obtain ⟨payload, image, rfl, same, held⟩ := applied v (returns _ _ _ _ found)
      simp only [Maybe.just, if_true, same, Outcome.ofExcept] at ends
      cases ends
      exact held

/-- A function that takes all payloads of a parser raises nothing by itself. -/
theorem map_raised_iff (returns : part.Returns A)
    (applied : ∀ m, A m → ∃ payload image, m = .just payload ∧ f payload = .ok image ∧
      B (.just image)) :
    (Parser.map f part c).outcome = .raised fault ↔ (part c).outcome = .raised fault := by
  simp only [Parser.map]
  cases found : (part c).outcome with
  | raised other => simp
  | exhausted => simp
  | done r =>
      cases r with
      | failure state begun => simp
      | success v state begun =>
          obtain ⟨payload, image, rfl, same, _⟩ := applied v (returns _ _ _ _ found)
          simp [Maybe.just, same, Outcome.ofExcept]

theorem prependFirst_raised_iff (list : second.Returns (Maybe.IsList fun _ => True)) :
    (Parser.map Payload.prependFirst (sequence [first, second]) c).outcome = .raised fault ↔
      (sequence [first, second] c).outcome = .raised fault := by
  apply map_raised_iff (B := fun _ => True) (list.sequence_pair first)
  rintro _ ⟨v, _, ⟨values, rfl, _⟩, rfl⟩
  exact ⟨_, _, rfl, Payload.prependFirst_list v values, trivial⟩

end Parser

namespace Grammar

variable (rounds : Nat) (rules : String → Parser) (item separator : Grammar) (c : Cursor)
  (fault : Fault)

theorem oneOrMore_raised_iff :
    ((oneOrMore item).parser rounds rules c).outcome = .raised fault ↔
      ((sequence [item, many item]).parser rounds rules c).outcome = .raised fault := by
  have list : (Parser.many rounds (item.parser rounds rules)).Returns
      (Maybe.IsList fun _ => True) := by
    have any : (item.parser rounds rules).Returns fun m => ∀ v ∈ m.toList, True :=
      fun _ _ _ _ _ _ _ => trivial
    exact (any.many rounds).mono fun _ ⟨values, same, _⟩ => ⟨values, same, trivial⟩
  simp only [oneOrMore, parser, parsers]
  exact Parser.prependFirst_raised_iff list

theorem separatedBy_raised_iff :
    ((separatedBy item separator).parser rounds rules c).outcome = .raised fault ↔
      ((sequence [item, many (sequence [separator, item])]).parser rounds rules c).outcome =
        .raised fault := by
  have pair : (Parser.sequence [separator.parser rounds rules, item.parser rounds rules]).Returns
      fun m => ∀ v ∈ m.toList, ∃ group, v = .list group := by
    refine ((Parser.Returns.trivial _).sequence_pair _).mono ?_
    rintro _ ⟨v, w, _, rfl⟩ value member
    exact ⟨_, List.mem_singleton.mp member⟩
  have groups := pair.many rounds
  have applied : ∀ m, Maybe.IsList (fun values => ∀ v ∈ values, ∃ group, v = .list group) m →
      ∃ payload image, m = .just payload ∧ Payload.concat payload = .ok image ∧
        Maybe.IsList (fun _ => True) (.just image) := by
    rintro _ ⟨values, rfl, lists⟩
    obtain ⟨items, same⟩ := Payload.concat_lists lists
    exact ⟨_, _, rfl, same, items, rfl, trivial⟩
  simp only [separatedBy, parser, parsers]
  rw [Parser.prependFirst_raised_iff (groups.map applied), Parser.sequence_pair_raised_iff,
    Parser.sequence_pair_raised_iff]
  simp only [Parser.map_raised_iff groups applied]

/-- A run returns wherever in the text it starts: it raises nothing and does not run on. -/
def ReturnsOn (g : Grammar) (body : Body) : Prop :=
  ∀ i : Nat, ∃ r, (g.parse (body.cursor i)).outcome = .done r

def AlwaysReturns (g : Grammar) : Prop := ∀ body, g.ReturnsOn body

theorem ReturnsOn.of_produces {g : Grammar} {body : Body} {A : Maybe → Prop}
    (produces : Produces [] body.text A g) : g.ReturnsOn body :=
  fun i => produces.done i

theorem AlwaysReturns.of_produces {g : Grammar} {A : Maybe → Prop}
    (produces : ∀ text, Produces [] text A g) : g.AlwaysReturns :=
  fun body => .of_produces (produces body.text)

end Grammar

namespace Literal

open Grammar

variable {defs : Definitions} {text : Text}

theorem whitespace_produces : Produces defs text (· = .nothing) whitespace :=
  (Produces.oneOf Charset.whitespace).many_texts.skip

theorem someWhitespace_produces : Produces defs text (· = .nothing) someWhitespace :=
  ((Produces.oneOf Charset.whitespace).oneOrMore (P := Payload.Textual)
    fun _ text => text.textual).skip

theorem identifier_produces : Produces defs text Maybe.IsText identifier := by
  apply Produces.joined
  apply Produces.sequence
  intro part member
  rcases List.mem_pair.mp member with rfl | rfl
  · exact (Produces.oneOf _).mono fun _ text => text.textual
  · exact (Produces.oneOf _).many_texts.mono fun _ text => text.textual

/-- Those with a name, of which one reads no more than so many decimal digits. -/
def grammars (limit : Option Nat) : List Grammar :=
  [whitespace, someWhitespace, identifier, digits, integerWithin limit, exponent, fraction, float,
    unicodeEscape]

theorem grammars_return {limit : Option Nat} {body : Body}
    (admitted : Numeral.Admits limit body.text) : ∀ g ∈ grammars limit, g.ReturnsOn body := by
  simp only [grammars, List.forall_mem_cons, List.not_mem_nil, false_imp_iff, implies_true, and_true]
  exact ⟨.of_produces whitespace_produces, .of_produces someWhitespace_produces,
    .of_produces identifier_produces, .of_produces digits_produces,
    .of_produces (integer_produces admitted), .of_produces exponent_produces,
    .of_produces fraction_produces, .of_produces float_produces,
    .of_produces unicodeEscape_produces⟩

end Literal

namespace Comment

open Grammar

variable {defs : Definitions} {text : Text}

theorem commentStart_produces : Produces defs text Maybe.IsText commentStart := by
  apply Produces.choice false
  intro part member
  rcases List.mem_pair.mp member with rfl | rfl
  · exact mark_produces ["/", "/"]
  · exact blockStart_produces

theorem lineComment_produces : Produces defs text Maybe.IsText lineComment := by
  have newline : Produces defs text Maybe.IsText newline := .word "\n"
  have characters : Produces defs text Maybe.IsText (joined (.many (.not Comment.newline))) :=
    .joined newline.not.many_texts
  have ending : Produces defs text Maybe.Textual
      (firstOf [.skip .endOfText, Comment.newline]) := by
    apply Produces.choice false
    intro part member
    rcases List.mem_pair.mp member with rfl | rfl
    · exact Produces.endOfText.skip_textual
    · exact newline.mono fun _ text => text.textual
  apply Produces.joined
  apply Produces.sequence
  intro part member
  simp only [List.mem_cons, List.not_mem_nil, or_false] at member
  rcases member with rfl | rfl | rfl
  · exact (mark_produces ["/", "/"]).mono fun _ text => text.textual
  · exact characters.mono fun _ text => text.textual
  · exact ending

theorem filler_produces : Produces defs text Maybe.IsText filler := by
  apply Produces.joined
  apply Produces.many_texts
  apply Produces.choice false
  intro part member
  simp only [List.mem_cons, List.not_mem_nil, or_false] at member
  rcases member with rfl | rfl | rfl | rfl | rfl
  · exact quotedBy_produces "\x27" "\x5c\x27"
  · exact quotedBy_produces "\x22" "\x5c\x22"
  · exact lineComment_produces
  · exact blockComment_produces
  · exact commentStart_produces.not

theorem documentationComments_produces :
    Produces defs text (Maybe.IsList fun _ => True) documentationComments := by
  have passed : Produces defs text (· = .nothing) (.skip (optional filler)) :=
    (filler_produces.mono fun _ _ => trivial).optional (A := fun _ => True) trivial |>.skip
  have comments : Produces defs text
      (fun m => m = .nothing ∨ m.IsList fun _ => True)
      (optional (separatedBy documentationComment (.skip filler))) :=
    ((documentationComment_produces.separatedBy filler_produces.skip).mono fun _ => .inr).optional
      (.inl rfl)
  have last : Produces defs text (Maybe.IsList (· = [])) (.sequence [.skip (optional filler)]) :=
    passed.sequence_skip .sequence_nil
  have parts : Produces defs text
      (Maybe.IsList fun values => values = [] ∨ ∃ items, values = [.list items])
      (.sequence [.skip (optional filler),
        optional (separatedBy documentationComment (.skip filler)),
        .skip (optional filler)]) := by
    apply passed.sequence_skip
    apply comments.sequence_cons last
    rintro m values (rfl | ⟨items, rfl, _⟩) rfl
    · exact .inl rfl
    · exact .inr ⟨items, rfl⟩
  apply parts.map
  rintro m ⟨values, rfl, rfl | ⟨items, rfl⟩⟩
  · exact ⟨_, _, rfl, rfl, [], rfl, trivial⟩
  · exact ⟨_, _, rfl, rfl, items, rfl, trivial⟩

theorem document_produces : Produces defs text (Maybe.IsList fun _ => True) document := by
  have last : Produces defs text (Maybe.IsList fun values => ∃ t, values = [.text t])
      (.sequence [.endOfText]) := Produces.endOfText.sequence_text .sequence_nil
  apply Produces.map (A := Maybe.IsList fun values => ∃ items t, values = [.list items, .text t])
  · apply documentationComments_produces.sequence_cons last
    rintro m values ⟨items, rfl, _⟩ ⟨t, rfl⟩
    exact ⟨items, t, rfl⟩
  · rintro m ⟨values, rfl, items, t, rfl⟩
    exact ⟨_, _, rfl, rfl, items, rfl, trivial⟩

def grammars : List Grammar :=
  [singleQuote, doubleQuote, newline, escapedSingleQuote, escapedDoubleQuote, star, slash,
    innerStar, blockStart, blockEnd, lineStart, documentationStart, commentStart, lineComment,
    blockComment, singleQuoted, doubleQuoted, filler, banner, documentationLine,
    documentationComment, documentationComments, document]

theorem grammars_return : ∀ g ∈ grammars, g.AlwaysReturns := by
  simp only [grammars, List.forall_mem_cons, List.not_mem_nil, false_imp_iff, implies_true, and_true]
  exact ⟨.of_produces fun _ => .word _, .of_produces fun _ => .word _,
    .of_produces fun _ => .word _, .of_produces fun _ => .word _, .of_produces fun _ => .word _,
    .of_produces fun _ => .word _, .of_produces fun _ => .word _,
    .of_produces fun _ => innerStar_produces, .of_produces fun _ => blockStart_produces,
    .of_produces fun _ => blockEnd_produces, .of_produces fun _ => mark_produces ["/", "/"],
    .of_produces fun _ => mark_produces ["/", "*", "*"],
    .of_produces fun _ => commentStart_produces, .of_produces fun _ => lineComment_produces,
    .of_produces fun _ => blockComment_produces,
    .of_produces fun _ => quotedBy_produces "\x27" "\x5c\x27",
    .of_produces fun _ => quotedBy_produces "\x22" "\x5c\x22",
    .of_produces fun _ => filler_produces, .of_produces fun _ => banner_produces,
    .of_produces fun _ => documentationLine_produces,
    .of_produces fun _ => documentationComment_produces,
    .of_produces fun _ => documentationComments_produces, .of_produces fun _ => document_produces⟩

end Comment

/-- The grammars of literals and comments return on every text whose digits are not too many to be
read, which without a limit is every text, and so do quoted texts in every style, on all texts.
Where an item raises nothing, its repetitions raise nothing. The extraction of comments gives a
text or reports where it stopped. -/
theorem grammars_never_raise :
    (∀ (limit : Option Nat) (body : Body), Numeral.Admits limit body.text →
      ∀ g ∈ Literal.grammars limit ++ Comment.grammars, g.ReturnsOn body) ∧
    (∀ style, (Literal.quotedText style).AlwaysReturns) ∧
    (∀ (rounds : Nat) (rules : String → Parser) (item separator : Grammar) (c : Cursor)
      (fault : Fault),
      (((Grammar.oneOrMore item).parser rounds rules c).outcome = .raised fault ↔
        ((Grammar.sequence [item, .many item]).parser rounds rules c).outcome =
          .raised fault) ∧
      (((Grammar.separatedBy item separator).parser rounds rules c).outcome = .raised fault ↔
        ((Grammar.sequence [item, .many (.sequence [separator, item])]).parser rounds
          rules c).outcome = .raised fault)) ∧
    ∀ source name, ∃ e, Comment.extract source name = .done e := by
  refine ⟨?_, ?_, ?_, ?_⟩
  · exact fun limit body admitted => List.forall_mem_append.mpr
      ⟨Literal.grammars_return admitted, fun g member => Comment.grammars_return g member body⟩
  · exact fun style => .of_produces fun _ => Literal.quotedText_produces style
  · exact fun rounds rules item separator c fault =>
      ⟨Grammar.oneOrMore_raised_iff rounds rules item c fault,
        Grammar.separatedBy_raised_iff rounds rules item separator c fault⟩
  · exact Comment.extract_returns

/-- A float may begin behind a digit and with its point. -/
theorem grammars_never_raise_float :
    let body : Body := { text := "1.5e-3", name := [] }
    Numeral.Admits (some Numeral.defaultLimit) body.text ∧
    Literal.float ∈ Literal.grammars (some Numeral.defaultLimit) ++ Comment.grammars ∧
      ∃ r, (Literal.float.parse (body.cursor 1)).outcome = .done r := by
  intro body
  have admitted : Numeral.Admits (some Numeral.defaultLimit) body.text := by
    rintro _ ⟨⟩ digits inside _
    exact inside.length_le.trans (by decide)
  have member : Literal.float ∈
      Literal.grammars (some Numeral.defaultLimit) ++ Comment.grammars := by
    simp [Literal.grammars]
  exact ⟨admitted, member, grammars_never_raise.1 _ body admitted Literal.float member 1⟩

end Descent
