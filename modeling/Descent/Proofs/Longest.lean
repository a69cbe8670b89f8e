import Descent.Proofs.Language
import Descent.Proofs.Lossless
import Descent.Proofs.Production

/-! Grammars that match the longest text of a language, wherever they are run. -/

namespace Descent

open scoped Computability

variable {L M : Language CodePoint} {text : Text}

def Answer.evaluated (stop : Nat) : Except Fault Maybe → Answer
  | .ok value => matched value stop
  | .error fault => raised fault

theorem Answer.evaluated_isFailure (stop : Nat) (result : Except Fault Maybe) :
    (evaluated stop result).isFailure = false := by
  cases result <;> rfl

/-- Finds the longest text of the language and ends with what goes with it, which may be a fault,
and fails where there is none. -/
def Evaluates (defs : Definitions) (text : Text) (L : Language CodePoint)
    (A : Text → Except Fault Maybe → Prop) (g : Grammar) : Prop :=
  ∀ i, (∃ t result, text.LongestAt L i t ∧ A t result ∧
      Meaning defs text g i (.evaluated (i + t.length) result)) ∨
    (∃ e, Meaning defs text g i (.failed e)) ∧ ∀ t ∈ L, text.hasAt t i = false

namespace Evaluates

variable {defs : Definitions} {A B C : Text → Except Fault Maybe → Prop} {part : Grammar}
  {parts : List Grammar}

theorem map {f : Payload → Except Fault Payload} (inner : Evaluates defs text L A part)
    (applied : ∀ t result, t ∈ L → A t result → ∃ payload : Except Fault Payload,
      result = payload.map .just ∧ B t ((payload.bind f).map .just)) :
    Evaluates defs text L B (.map f part) := by
  intro i
  rcases inner i with ⟨t, _, stands, fits, meaning⟩ | ⟨⟨e, fails⟩, none⟩
  · obtain ⟨payload, rfl, held⟩ := applied t _ stands.member fits
    refine .inl ⟨t, _, stands, held, ?_⟩
    cases payload with
    | error fault => exact .map_stop meaning rfl
    | ok payload =>
        change Meaning defs text (.map f part) i (.evaluated _ ((f payload).map .just))
        cases result : f payload with
        | ok image => exact .map_done meaning result
        | error fault => exact .map_raised meaning result
  · exact .inr ⟨⟨e, .map_stop fails rfl⟩, none⟩

theorem choice_nil (deepest : Bool) : Evaluates defs text 0 A (.choice deepest []) :=
  fun i => .inr ⟨⟨i, .choice_nil deepest i⟩, fun _ member => absurd member (Language.notMem_zero _)⟩

/-- An earlier part is taken even if a later one matches more, so this must not be. -/
theorem choice_cons {deepest : Bool} (first : Evaluates defs text L A part)
    (rest : Evaluates defs text M A (.choice deepest parts)) (covers : Covers L M) :
    Evaluates defs text (L + M) A (.choice deepest (part :: parts)) := by
  intro i
  rcases first i with ⟨s, m, stands, fits, meaning⟩ | ⟨⟨e, fails⟩, none⟩
  · exact .inl ⟨s, m, stands.add_left covers, fits,
      .choice_first meaning (Answer.evaluated_isFailure _ m)⟩
  · rcases rest i with ⟨t, n, stands, fits, later⟩ | ⟨⟨f, later⟩, none'⟩
    · exact .inl ⟨t, n, stands.add_right none, fits,
        .choice_later fails later (Answer.evaluated_isFailure _ n)⟩
    · refine .inr ⟨⟨_, .choice_failed fails later⟩, fun t member => ?_⟩
      exact member.elim (none t) (none' t)

theorem choice_pair {deepest : Bool} {other : Grammar} (first : Evaluates defs text L A part)
    (second : Evaluates defs text M A other) (covers : Covers L M) :
    Evaluates defs text (L + M) A (.choice deepest [part, other]) := by
  have last : Evaluates defs text (M + 0) A (.choice deepest [other]) :=
    choice_cons second (choice_nil deepest) fun _ _ _ _ t member =>
      absurd member (Language.notMem_zero t)
  rw [add_zero] at last
  exact choice_cons first last covers

theorem sequence_pair {other : Grammar} {D : Text → Maybe → Prop}
    (first : Evaluates defs text L (fun t result => ∃ m, result = .ok m ∧ D t m) part)
    (second : Evaluates defs text M B other) (apart : Separates L M)
    (together : ∀ s t m result, D s m → B t result →
      C (s ++ t) (result.map fun n => .just (.list (m.toList ++ n.toList)))) :
    Evaluates defs text (L * M) C (.sequence [part, other]) := by
  intro i
  rcases first i with ⟨s, _, stands, ⟨m, rfl, fits⟩, begins⟩ | ⟨⟨e, fails⟩, none⟩
  · rcases second (i + s.length) with ⟨t, result, follows, fits', later⟩ | ⟨⟨e, fails⟩, none⟩
    · refine .inl ⟨s ++ t, _, stands.append follows apart, together s t m result fits fits', ?_⟩
      rw [List.length_append, ← Nat.add_assoc]
      cases result with
      | ok n =>
          have last := Meaning.sequence_next later (.sequence_nil _)
          rw [Answer.prepend, Maybe.prepend_list, List.append_nil] at last
          exact .sequence_next begins last
      | error fault => exact .sequence_next begins (.sequence_stop later rfl)
    · exact .inr ⟨⟨e, .sequence_next begins (.sequence_stop fails rfl)⟩,
        stands.none_of_append none apart⟩
  · refine .inr ⟨⟨e, .sequence_stop fails rfl⟩, ?_⟩
    rintro _ ⟨s, left, t, _, rfl⟩
    exact Text.hasAt_append_of_front (none s left)

theorem produces {P : Maybe → Prop} (inner : Evaluates defs text L A part)
    (fits : ∀ t result, t ∈ L → t <:+: text → A t result → ∃ m, result = .ok m ∧ P m) :
    Produces defs text P part := by
  intro i
  rcases inner i with ⟨t, result, stands, known, meaning⟩ | ⟨⟨e, fails⟩, _⟩
  · have inside : t <:+: text :=
      ((Text.hasAt_iff _ _ _).mp stands.here).isInfix.trans (List.drop_suffix i text).isInfix
    obtain ⟨m, rfl, held⟩ := fits t result stands.member inside known
    exact .inl ⟨m, _, meaning, held⟩
  · exact .inr ⟨e, fails⟩

theorem parse {g : Grammar} (evaluates : ∀ text, Evaluates [] text L A g) (body : Body) (i : Nat) :
    (∃ t result, body.text.LongestAt L i t ∧ A t result ∧
      (g.parse (body.cursor i)).outcome =
        (Answer.evaluated (i + t.length) result).outcome body i) ∨
    (∃ e, (g.parse (body.cursor i)).outcome = .done (.failure (body.cursor e) e)) ∧
      ∀ t ∈ L, body.text.hasAt t i = false := by
  rcases evaluates body.text i with ⟨t, result, stands, fits, meaning⟩ | ⟨⟨e, fails⟩, none⟩
  · have complete : Parser.Yields body (g.parse · []) i _ := Grammar.parse_complete meaning
    exact .inl ⟨t, result, stands, fits, complete.outcome_eq⟩
  · have complete : Parser.Yields body (g.parse · []) i _ := Grammar.parse_complete fails
    exact .inr ⟨⟨e, complete.outcome_eq⟩, none⟩

end Evaluates

/-- Matches the longest text of the language, with a payload that goes with it, and fails where
there is none. -/
def Longest (defs : Definitions) (text : Text) (L : Language CodePoint) (A : Text → Maybe → Prop)
    (g : Grammar) : Prop :=
  ∀ i, (∃ t value, text.LongestAt L i t ∧ A t value ∧
      Meaning defs text g i (.matched value (i + t.length))) ∨
    (∃ e, Meaning defs text g i (.failed e)) ∧ ∀ t ∈ L, text.hasAt t i = false

namespace Longest

variable {defs : Definitions} {A B C : Text → Maybe → Prop} {part : Grammar}
  {parts : List Grammar} {set : Text}

theorem mono (longest : Longest defs text L A part) (weaker : ∀ t m, t ∈ L → A t m → B t m) :
    Longest defs text L B part :=
  fun i => (longest i).imp_left fun ⟨t, value, stands, fits, meaning⟩ =>
    ⟨t, value, stands, weaker t value stands.member fits, meaning⟩

theorem evaluates_iff :
    Longest defs text L A part ↔
      Evaluates defs text L (fun t result => ∃ m, result = .ok m ∧ A t m) part := by
  refine forall_congr' fun i => or_congr_left ?_
  constructor
  · rintro ⟨t, value, stands, fits, meaning⟩
    exact ⟨t, .ok value, stands, ⟨value, rfl, fits⟩, meaning⟩
  · rintro ⟨t, _, stands, ⟨value, rfl, fits⟩, meaning⟩
    exact ⟨t, value, stands, fits, meaning⟩

theorem character {accepts : CodePoint → Bool} {g : Grammar}
    (meaning : ∀ i, Meaning defs text g i (.character accepts text i)) :
    Longest defs text {t | ∃ c, accepts c = true ∧ t = [c]} (fun t m => m = .just (.text t)) g := by
  intro i
  by_cases here : ∃ c, text[i]? = some c ∧ accepts c = true
  · obtain ⟨c, found, known⟩ := here
    have matched : Meaning defs text g i (.matched (.just (.text [c])) (i + 1)) := by
      simpa [Answer.character, found, known] using meaning i
    refine .inl ⟨[c], _, ⟨⟨c, known, rfl⟩, (Text.hasAt_singleton text c i).mpr found, ?_⟩, rfl,
      matched⟩
    rintro _ ⟨d, _, rfl⟩ _
    exact Nat.le_refl 1
  · have fails : Meaning defs text g i (.failed i) := by
      have answer := meaning i
      rw [Answer.character] at answer
      split at answer
      · rename_i c found
        rwa [if_neg fun known => here ⟨c, found, known⟩] at answer
      · exact answer
    refine .inr ⟨⟨i, fails⟩, ?_⟩
    rintro _ ⟨c, known, rfl⟩
    exact (Text.hasAt_singleton_false text c i).mpr fun found => here ⟨c, found, known⟩

theorem oneOf (set : Text) :
    Longest defs text (Charset.language set) (fun t m => m = .just (.text t)) (.oneOf set) := by
  have known : Charset.language set = {t | ∃ c, decide (c ∈ set) = true ∧ t = [c]} :=
    Set.ext fun _ => exists_congr fun _ => and_congr_left' decide_eq_true_iff.symm
  rw [known]
  exact character (.oneOf set)

theorem noneOf (set : Text) :
    Longest defs text (Charset.others set) (fun t m => m = .just (.text t)) (.noneOf set) := by
  have known : Charset.others set = {t | ∃ c, decide (c ∉ set) = true ∧ t = [c]} :=
    Set.ext fun _ => exists_congr fun _ => and_congr_left' decide_eq_true_iff.symm
  rw [known]
  exact character (.noneOf set)

theorem word {w : Text} (inhabited : w ≠ []) :
    Longest defs text {w} (fun t m => m = .just (.text t)) (.word w) := by
  intro i
  cases found : text.hasAt w i with
  | true =>
      refine .inl ⟨w, _, ⟨rfl, found, ?_⟩, rfl, Meaning.word_matched inhabited found⟩
      rintro s rfl _
      exact Nat.le_refl _
  | false =>
      refine .inr ⟨⟨i, Meaning.word_failed found⟩, ?_⟩
      rintro t rfl
      exact found

theorem wordIgnoringCase (w : Text) :
    Longest defs text w.alike (fun _ m => m = .just (.text (Text.lower w)))
      (.wordIgnoringCase w) := by
  intro i
  have meaning : Meaning defs text (.wordIgnoringCase w) i _ := .wordIgnoringCase w i
  have piece : ∀ t ∈ w.alike, text.hasAt t i = true → (text.drop i).take w.length = t :=
    fun t member found => member.1 ▸ Text.take_of_hasAt found
  simp only [Answer.wordIgnoringCase] at meaning
  split at meaning
  · rename_i same
    refine .inl ⟨(text.drop i).take w.length, _, ⟨same, ?_, ?_⟩, rfl, ?_⟩
    · exact (Text.hasAt_iff _ _ _).mpr (List.take_prefix _ _)
    · intro s member found
      rw [piece s member found]
    · rw [same.1]
      exact meaning
  · rename_i different
    refine .inr ⟨⟨i, meaning⟩, fun t member => ?_⟩
    rw [Bool.eq_false_iff]
    intro found
    rw [piece t member found] at different
    exact different member

theorem words (set : Text) :
    Longest defs text (Charset.words set) (fun t m => m = .just (.list (Payload.characters t)))
      (.oneOrMore (.oneOf set)) := by
  intro i
  rcases oneOf set i with ⟨_, _, ⟨⟨c, known, rfl⟩, here, _⟩, rfl, first⟩ | ⟨⟨e, fails⟩, none⟩
  · have more : Meaning defs text (.many (.oneOf set)) (i + 1) _ :=
      Meaning.many_oneOf (text.hasAt_run set (i + 1)) (text.mem_of_mem_run set (i + 1))
        (text.not_mem_of_run set (i + 1))
    have stands : text.LongestAt (Charset.words set) i (c :: text.run set (i + 1)) := by
      have found := (Text.hasAt_singleton text c i).mp here
      refine ⟨Charset.mem_words.mpr ⟨List.cons_ne_nil _ _,
        List.forall_mem_cons.mpr ⟨known, text.mem_of_mem_run set (i + 1)⟩⟩,
        (Text.hasAt_cons _ _ _ _).mpr ⟨found, text.hasAt_run set (i + 1)⟩, ?_⟩
      intro s member there
      obtain ⟨inhabited, each⟩ := Charset.mem_words.mp member
      obtain ⟨d, s, rfl⟩ := List.exists_cons_of_ne_nil inhabited
      exact Nat.succ_le_succ (text.length_le_run set (i + 1) s (List.forall_mem_cons.mp each).2
        ((Text.hasAt_cons _ _ _ _).mp there).2)
    have shift : i + (c :: text.run set (i + 1)).length =
        i + 1 + (text.run set (i + 1)).length := by
      rw [List.length_cons]
      omega
    refine .inl ⟨_, _, stands, rfl, ?_⟩
    rw [shift]
    exact Meaning.oneOrMore_iff.mpr (.next first more)
  · refine .inr ⟨⟨e, Meaning.oneOrMore_iff.mpr (.stop fails rfl)⟩, ?_⟩
    rintro _ ⟨s, member, t, _, rfl⟩
    exact Text.hasAt_append_of_front (none s member)

theorem map_evaluates {f : Payload → Except Fault Payload} {D : Text → Except Fault Maybe → Prop}
    (inner : Longest defs text L A part)
    (applied : ∀ t m, t ∈ L → A t m → ∃ payload, m = .just payload ∧
      D t ((f payload).map .just)) : Evaluates defs text L D (.map f part) := by
  refine (evaluates_iff.mp inner).map ?_
  rintro t _ member ⟨m, rfl, fits⟩
  obtain ⟨payload, rfl, held⟩ := applied t m member fits
  exact ⟨.ok payload, rfl, held⟩

theorem map {f : Payload → Except Fault Payload} (inner : Longest defs text L A part)
    (applied : ∀ t m, t ∈ L → A t m → ∃ payload image, m = .just payload ∧ f payload = .ok image ∧
      B t (.just image)) : Longest defs text L B (.map f part) := by
  refine evaluates_iff.mpr (inner.map_evaluates fun t m member fits => ?_)
  obtain ⟨payload, image, rfl, same, held⟩ := applied t m member fits
  exact ⟨payload, rfl, .just image, congrArg (Except.map Maybe.just) same, held⟩

theorem skip (inner : Longest defs text L A part) :
    Longest defs text L (fun _ m => m = .nothing) (.skip part) := by
  intro i
  rcases inner i with ⟨t, value, stands, _, meaning⟩ | ⟨⟨e, fails⟩, none⟩
  · exact .inl ⟨t, _, stands, rfl, .skip_matched meaning⟩
  · exact .inr ⟨⟨e, .skip_stop fails rfl⟩, none⟩

/-- The empty text is taken only where no other one is. -/
theorem option {default : Maybe} (inner : Longest defs text L A part) (absent : A [] default) :
    Longest defs text (1 + L) A (.option default part) := by
  intro i
  -- The part is tried first, although its language is the second one.
  rw [add_comm]
  rcases inner i with ⟨t, value, stands, fits, meaning⟩ | ⟨⟨e, fails⟩, none⟩
  · exact .inl ⟨t, value, stands.add_left (.one L), fits, .option_some meaning rfl⟩
  · have empty : text.LongestAt (L + 1) i [] := (Text.LongestAt.empty text i).add_right none
    exact .inl ⟨[], default, empty, absent, .option_none fails⟩

theorem sequence_nil :
    Longest defs text 1 (fun t m => t = [] ∧ m = .just (.list [])) (.sequence []) :=
  fun i => .inl ⟨[], _, .empty text i, ⟨rfl, rfl⟩, .sequence_nil i⟩

theorem sequence_cons (first : Longest defs text L A part)
    (rest : Longest defs text M B (.sequence parts)) (apart : Separates L M)
    (together : ∀ s t m values, A s m → B t (.just (.list values)) →
      C (s ++ t) (.just (.list (m.toList ++ values)))) :
    Longest defs text (L * M) C (.sequence (part :: parts)) := by
  intro i
  rcases first i with ⟨s, m, stands, fits, begins⟩ | ⟨⟨e, fails⟩, none⟩
  · rcases rest (i + s.length) with ⟨t, n, follows, fits', later⟩ | ⟨⟨e, fails⟩, none⟩
    · obtain ⟨values, rfl⟩ := later.sequence_list
      have whole := Meaning.sequence_next begins later
      refine .inl ⟨s ++ t, _, stands.append follows apart, together s t m values fits fits', ?_⟩
      rw [List.length_append, ← Nat.add_assoc]
      exact whole
    · exact .inr ⟨⟨e, .sequence_next begins fails⟩, stands.none_of_append none apart⟩
  · refine .inr ⟨⟨e, .sequence_stop fails rfl⟩, ?_⟩
    rintro _ ⟨s, left, t, _, rfl⟩
    exact Text.hasAt_append_of_front (none s left)

theorem sequence_pair {other : Grammar} (first : Longest defs text L A part)
    (second : Longest defs text M B other) (apart : Separates L M)
    (together : ∀ s t m n, A s m → B t n → C (s ++ t) (.just (.list (m.toList ++ n.toList)))) :
    Longest defs text (L * M) C (.sequence [part, other]) := by
  refine evaluates_iff.mpr
    ((evaluates_iff.mp first).sequence_pair (evaluates_iff.mp second) apart ?_)
  rintro s t m _ fits ⟨n, rfl, fits'⟩
  exact ⟨_, rfl, together s t m n fits fits'⟩

theorem choice_pair {deepest : Bool} {other : Grammar} (first : Longest defs text L A part)
    (second : Longest defs text M A other) (covers : Covers L M) :
    Longest defs text (L + M) A (.choice deepest [part, other]) :=
  evaluates_iff.mpr ((evaluates_iff.mp first).choice_pair (evaluates_iff.mp second) covers)

theorem produces {P : Maybe → Prop} (inner : Longest defs text L A part)
    (fits : ∀ t m, t ∈ L → A t m → P m) : Produces defs text P part :=
  (evaluates_iff.mp inner).produces fun t _ member _ ⟨m, same, known⟩ =>
    ⟨m, same, fits t m member known⟩

/-- A run matches exactly where a text of the language stands, and then it takes the longest. -/
theorem parse {g : Grammar} (longest : ∀ text, Longest [] text L A g) (body : Body) (i : Nat) :
    ∃ r, (g.parse (body.cursor i)).outcome = .done r ∧
      (r.succeeded = true ↔ ∃ t ∈ L, body.text.hasAt t i = true) ∧
      (r.succeeded = false ∨ ∃ t value, body.text.LongestAt L i t ∧ A t value ∧
        r = .success value (body.cursor (i + t.length)) i) := by
  rcases Evaluates.parse (fun text => evaluates_iff.mp (longest text)) body i with
    ⟨t, _, stands, ⟨value, rfl, fits⟩, ends⟩ | ⟨⟨e, fails⟩, none⟩
  · refine ⟨_, ends, ?_, .inr ⟨t, value, stands, fits, rfl⟩⟩
    exact iff_of_true rfl ⟨t, stands.member, stands.here⟩
  · refine ⟨_, fails, iff_of_false Bool.false_ne_true ?_, .inl rfl⟩
    rintro ⟨t, member, found⟩
    rw [none t member] at found
    exact Bool.false_ne_true found

end Longest

abbrev LongestText (defs : Definitions) (text : Text) (L : Language CodePoint) (g : Grammar) :
    Prop :=
  Longest defs text L (fun t m => m.Spells t) g

namespace LongestText

variable {defs : Definitions} {part other : Grammar} {parts : List Grammar} {set : Text}

theorem of_text (inner : Longest defs text L (fun t m => m = .just (.text t)) part) :
    LongestText defs text L part := by
  refine inner.mono ?_
  rintro t _ _ rfl
  exact Maybe.spells_just.mpr (Payload.flatten_text t)

theorem words (set : Text) :
    LongestText defs text (Charset.words set) (.oneOrMore (.oneOf set)) := by
  refine (Longest.words set).mono ?_
  rintro t _ _ rfl
  exact Maybe.spells_just.mpr (Payload.flatten_characters t)

theorem optional (inner : LongestText defs text L part) :
    LongestText defs text (1 + L) (.optional part) := inner.option rfl

theorem sequence_cons (first : LongestText defs text L part)
    (rest : LongestText defs text M (.sequence parts)) (apart : Separates L M) :
    LongestText defs text (L * M) (.sequence (part :: parts)) :=
  Longest.sequence_cons first rest apart fun _ _ _ _ front back =>
    Maybe.spells_just.mpr (Payload.flatten_append front (Maybe.spells_just.mp back))

theorem sequence_pair (first : LongestText defs text L part)
    (second : LongestText defs text M other) (apart : Separates L M) :
    LongestText defs text (L * M) (.sequence [part, other]) :=
  Longest.sequence_pair first second apart fun _ _ _ _ front back =>
    Maybe.spells_just.mpr (Payload.flatten_append front back)

theorem sequence_singleton (inner : LongestText defs text L part) :
    LongestText defs text L (.sequence [part]) := by
  have empty : LongestText defs text 1 (.sequence []) := by
    refine Longest.sequence_nil.mono ?_
    rintro _ _ _ ⟨rfl, rfl⟩
    rfl
  have whole := inner.sequence_cons empty (separates_one L)
  rwa [mul_one] at whole

theorem joined_behind (first : Longest defs text L (fun _ m => m = .nothing) part)
    (rest : LongestText defs text M (.sequence parts)) (apart : Separates L M) :
    Longest defs text (L * M) (fun t m => ∃ s ∈ L, ∃ u ∈ M, t = s ++ u ∧ m = .just (.text u))
      (.joined (.sequence (part :: parts))) := by
  have skipped : Longest defs text L (fun t m => t ∈ L ∧ m = .nothing) part :=
    first.mono fun _ _ => .intro
  have kept : Longest defs text M (fun t m => t ∈ M ∧ m.Spells t) (.sequence parts) :=
    rest.mono fun _ _ => .intro
  have whole : Longest defs text (L * M) (fun t m => ∃ s ∈ L, ∃ u ∈ M, t = s ++ u ∧
      ∃ values, m = .just (.list values) ∧ (Payload.list values).flatten = .ok u)
      (.sequence (part :: parts)) := by
    refine skipped.sequence_cons kept apart ?_
    rintro s u _ values ⟨left, rfl⟩ ⟨right, spelled⟩
    exact ⟨s, left, u, right, rfl, values, rfl, Maybe.spells_just.mp spelled⟩
  refine whole.map ?_
  rintro _ _ _ ⟨s, left, u, right, rfl, values, rfl, flat⟩
  exact ⟨_, _, rfl, Payload.joined_of_flatten flat, s, left, u, right, rfl, rfl⟩

theorem joined (inner : LongestText defs text L (.sequence parts)) :
    Longest defs text L (fun t m => m = .just (.text t)) (.joined (.sequence parts)) := by
  intro i
  rcases inner i with ⟨t, value, stands, spelled, meaning⟩ | ⟨⟨e, fails⟩, none⟩
  · obtain ⟨values, rfl⟩ := meaning.sequence_list
    have flat := Maybe.spells_just.mp spelled
    exact .inl ⟨t, _, stands, rfl, .map_done meaning (Payload.joined_of_flatten flat)⟩
  · exact .inr ⟨⟨e, .map_stop fails rfl⟩, none⟩

end LongestText

end Descent
