import Descent.Proofs.Comment.Body

/-! One pass over a text from left to right, which finds its documentation comments. -/

namespace Descent

def Grammar.matchAt? (g : Grammar) (text : Text) (i : Nat) : Option (Maybe × Nat) :=
  match (g.parse (({ text, name := [] } : Body).cursor i)).outcome with
  | .done (.success value state _) => some (value, state.position)
  | _ => none

theorem Grammar.matchAt?_eq_some_iff (g : Grammar) (text : Text) (i j : Nat) (value : Maybe) :
    g.matchAt? text i = some (value, j) ↔ Meaning [] text g i (.matched value j) := by
  let body : Body := { text, name := [] }
  constructor
  · intro found
    rcases g.parse_sound [] body i with unsettled | ⟨a, meaning, yields⟩
    · simp [matchAt?, body, unsettled] at found
    · have ends := yields.outcome_eq
      cases a with
      | matched other stop =>
          simp only [matchAt?, body, Answer.outcome_matched] at found ends
          rw [ends] at found
          cases found
          exact meaning
      | failed e =>
          simp only [matchAt?, body, Answer.outcome_failed] at found ends
          rw [ends] at found
          cases found
      | raised fault =>
          simp only [matchAt?, body, Answer.outcome_raised] at found ends
          rw [ends] at found
          cases found
  · intro meaning
    have complete : Parser.Yields body (g.parse · []) i (.matched value j) :=
      parse_complete meaning
    have ends := complete.outcome_eq
    simp only [body, Answer.outcome_matched] at ends
    rw [matchAt?, ends]
    rfl

theorem Grammar.matchAt?_of_failed {g : Grammar} {text : Text} {i e : Nat}
    (fails : Meaning [] text g i (.failed e)) : g.matchAt? text i = none := by
  cases there : g.matchAt? text i with
  | none => rfl
  | some found =>
      obtain ⟨value, stop⟩ := found
      have meaning := (g.matchAt?_eq_some_iff text i stop value).mp there
      exact absurd (meaning.unique fails) nofun

namespace Comment

open Grammar

inductive Step where
  | finished
  | skip (stop : Nat)
  | emit (body : Text) (stop : Nat)
  | stuck

def stringEnd? (text : Text) (i : Nat) : Option Nat :=
  if text.hasAt "\x27" i then (singleQuoted.matchAt? text i).map Prod.snd
  else if text.hasAt "\x22" i then (doubleQuoted.matchAt? text i).map Prod.snd
  else none

def commentAt? (text : Text) (i : Nat) : Option (Text × Nat) :=
  if text.hasAt "/**" i then
    match documentationComment.matchAt? text i with
    | some ({ present := true, value := .text body }, stop) => some (body, stop)
    | _ => none
  else none

def step (text : Text) (i : Nat) : Step :=
  if text.length ≤ i then .finished
  else
    match stringEnd? text i with
    | some stop => .skip stop
    | none =>
      if text.hasAt "//" i then .skip (lineEnd text (i + 2))
      else if text.hasAt "/*" i then
        match plainEnd? text i with
        | some stop => .skip stop
        | none =>
          match commentAt? text i with
          | some (body, stop) => .emit body stop
          | none => .stuck
      else .skip (i + 1)

variable {text : Text} {i j k : Nat}

theorem quotedBy_of_matchAt? {quote escaped : Text} (inhabited : quote ≠ []) {stop : Nat}
    (found : ((quotedBy (.word quote) (.word escaped)).matchAt? text i).map Prod.snd = some stop) :
    ∃ t, Meaning [] text (quotedBy (.word quote) (.word escaped)) i
      (.matched (.just (.text t)) stop) ∧ i < stop := by
  obtain ⟨⟨value, j⟩, whole, rfl⟩ := Option.map_eq_some_iff.mp found
  have meaning := (Grammar.matchAt?_eq_some_iff _ text i j value).mp whole
  obtain ⟨t, rfl⟩ := (quotedBy_produces quote escaped).fits_of_matched meaning
  exact ⟨t, meaning, (quotedBy_advances inhabited meaning).2⟩

theorem quotedBy_failed_of_matchAt? {quote escaped : Text} (missing : text.hasAt quote i = true →
      ((quotedBy (.word quote) (.word escaped)).matchAt? text i).map Prod.snd = none) :
    ∃ e, Meaning [] text (quotedBy (.word quote) (.word escaped)) i (.failed e) := by
  cases found : text.hasAt quote i with
  | false => exact quotedBy_failed found
  | true =>
      apply (quotedBy_produces quote escaped).failed_of_not_matched
      intro value j meaning
      have there := (Grammar.matchAt?_eq_some_iff _ text i j value).mpr meaning
      exact absurd (there.symm.trans (Option.map_eq_none_iff.mp (missing found))) nofun

theorem stringEnd?_of_some {stop : Nat} (found : stringEnd? text i = some stop) :
    ∃ t, Meaning [] text piece i (.matched (.just (.text t)) stop) ∧ i < stop := by
  rw [stringEnd?] at found
  split at found
  · obtain ⟨t, meaning, ahead⟩ := quotedBy_of_matchAt? (by decide) found
    exact ⟨t, .choice_first meaning rfl, ahead⟩
  · rename_i noSingle
    split at found
    · obtain ⟨t, meaning, ahead⟩ := quotedBy_of_matchAt? (by decide) found
      obtain ⟨e, fails⟩ : ∃ e, Meaning [] text singleQuoted i (.failed e) :=
        quotedBy_failed (Bool.eq_false_of_not_eq_true noSingle)
      exact ⟨t, .choice_later fails (.choice_first meaning rfl) rfl, ahead⟩
    · cases found

theorem stringEnd?_of_none (missing : stringEnd? text i = none) :
    ∀ part ∈ [singleQuoted, doubleQuoted], ∃ e, Meaning [] text part i (.failed e) := by
  intro part member
  rcases List.mem_pair.mp member with rfl | rfl
  · apply quotedBy_failed_of_matchAt?
    intro single
    rwa [stringEnd?, if_pos single] at missing
  · apply quotedBy_failed_of_matchAt?
    intro double
    have other : ¬ text.hasAt "\x27" i = true := by
      intro single
      have first := (Text.hasAt_singleton text '\x27' i).mp single
      have second := (Text.hasAt_singleton text '\x22' i).mp double
      exact absurd (first.symm.trans second) (by decide)
    rwa [stringEnd?, if_neg other, if_pos double] at missing

theorem commentAt?_eq_some_iff (text : Text) (i : Nat) (body : Text) (stop : Nat) :
    commentAt? text i = some (body, stop) ↔
      Meaning [] text documentationComment i (.matched (.just (.text body)) stop) := by
  rw [← Grammar.matchAt?_eq_some_iff]
  constructor
  · intro found
    rw [commentAt?] at found
    split at found
    · split at found
      · rename_i here
        cases found
        exact here
      · cases found
    · cases found
  · intro found
    have start := (documentationComment_advances
      ((Grammar.matchAt?_eq_some_iff _ _ _ _ _).mp found)).1
    rw [commentAt?, if_pos start, found]
    rfl

theorem commentAt?_of_none (missing : commentAt? text i = none) :
    ∃ e, Meaning [] text documentationComment i (.failed e) := by
  apply documentationComment_produces.failed_of_not_matched
  intro value j meaning
  obtain ⟨body, rfl⟩ := documentationComment_produces.fits_of_matched meaning
  have there := (commentAt?_eq_some_iff text i body j).mpr meaning
  exact absurd (there.symm.trans missing) nofun

inductive Step.Reads (text : Text) (i : Nat) : Step → Prop where
  | finished (ended : text.length ≤ i) (noPiece : ∃ e, Meaning [] text piece i (.failed e))
      (noComment : ∃ e, Meaning [] text documentationComment i (.failed e)) :
      Reads text i .finished
  | skip {t : Text} {stop : Nat} (ahead : i < stop)
      (found : Meaning [] text piece i (.matched (.just (.text t)) stop)) :
      Reads text i (.skip stop)
  | emit {body : Text} {stop : Nat} (ahead : i < stop)
      (noPiece : ∃ e, Meaning [] text piece i (.failed e))
      (found : Meaning [] text documentationComment i (.matched (.just (.text body)) stop)) :
      Reads text i (.emit body stop)
  | stuck (start : text.hasAt "/*" i = true) (notPlain : plainEnd? text i = none)
      (noPiece : ∃ e, Meaning [] text piece i (.failed e))
      (noComment : ∃ e, Meaning [] text documentationComment i (.failed e)) :
      Reads text i .stuck

theorem Step.Reads.piece_failed {s : Step} (reads : s.Reads text i)
    (stays : ∀ stop, s ≠ .skip stop) : ∃ e, Meaning [] text piece i (.failed e) := by
  cases reads with
  | finished _ noPiece _ => exact noPiece
  | skip _ _ => exact absurd rfl (stays _)
  | emit _ noPiece _ => exact noPiece
  | stuck _ _ noPiece _ => exact noPiece

theorem step_reads_end (ended : text.length ≤ i) : Step.finished.Reads text i := by
  have missing : ∀ word : Text, word ≠ [] → text.hasAt word i = false :=
    fun word inhabited => Text.hasAt_eq_false_of_le ended inhabited
  refine .finished ended (Meaning.choice_failed_of_all false fun part member => ?_) ?_
  · simp only [List.mem_cons, List.not_mem_nil, or_false] at member
    rcases member with rfl | rfl | rfl | rfl | rfl
    · exact quotedBy_failed (missing _ (by decide))
    · exact quotedBy_failed (missing _ (by decide))
    · exact lineComment_failed (missing _ (by decide))
    · exact blockComment_failed (.inl (missing _ (by decide)))
    · obtain ⟨e, fails⟩ : ∃ e, Meaning [] text commentStart i (.failed e) :=
        commentStart_failed (missing _ (by decide)) (missing _ (by decide))
      exact ⟨i, Meaning.not_end fails ended⟩
  · apply documentationComment_produces.failed_of_not_matched
    intro value j meaning
    have start := (documentationComment_advances meaning).1
    rw [missing _ (by decide)] at start
    exact Bool.false_ne_true start

/-- At the start of a comment in stars, only such a comment is a piece. -/
theorem piece_failed_of_start (start : text.hasAt "/*" i = true) (notPlain : plainEnd? text i = none)
    (noString : ∀ part ∈ [singleQuoted, doubleQuoted],
      ∃ e, Meaning [] text part i (.failed e))
    (noLine : ∃ e, Meaning [] text lineComment i (.failed e)) :
    ∃ e, Meaning [] text piece i (.failed e) := by
  apply Meaning.choice_failed_of_all false
  intro part member
  simp only [List.mem_cons, List.not_mem_nil, or_false] at member
  rcases member with rfl | rfl | rfl | rfl | rfl
  · exact noString _ (by simp)
  · exact noString _ (by simp)
  · exact noLine
  · exact blockComment_failed (.inr notPlain)
  · have free : text.hasAt "//" i = false := by
      rw [Bool.eq_false_iff]
      intro line
      have slash := ((Text.hasAt_cons text "/" '/' i).mp line).2
      have star := ((Text.hasAt_cons text "*" '/' i).mp start).2
      have first := (Text.hasAt_singleton text '/' _).mp slash
      have second := (Text.hasAt_singleton text '*' _).mp star
      exact absurd (first.symm.trans second) (by decide)
    obtain ⟨e, fails⟩ : ∃ e, Meaning [] text lineStart i (.failed e) := lineStart_failed free
    have found : Meaning [] text commentStart i _ :=
      .choice_later fails (.choice_first (blockStart_matched start) rfl) rfl
    exact ⟨i, .not_matched found⟩

theorem step_reads (text : Text) (i : Nat) : (step text i).Reads text i := by
  -- One case for each branch, with the alternatives of a piece that are known to fail by then.
  rw [step]
  split
  · rename_i ended
    exact step_reads_end ended
  · rename_i inside
    split
    · rename_i stop found
      obtain ⟨t, meaning, ahead⟩ := stringEnd?_of_some found
      exact .skip ahead meaning
    · rename_i missing
      have noString := stringEnd?_of_none missing
      split
      · rename_i line
        obtain ⟨t, meaning⟩ : ∃ t, Meaning [] text lineComment i
            (.matched (.just (.text t)) (lineEnd text (i + 2))) := lineComment_matched line
        exact .skip (lt_lineEnd line) (Meaning.choice_of_front false noString meaning)
      · rename_i noStart
        have free : text.hasAt "//" i = false := Bool.eq_false_of_not_eq_true noStart
        have noLine : ∃ e, Meaning [] text lineComment i (.failed e) := lineComment_failed free
        have noStringOrLine : ∀ part ∈ [singleQuoted, doubleQuoted, lineComment],
            ∃ e, Meaning [] text part i (.failed e) := by
          intro part member
          rcases List.mem_append.mp
            (show part ∈ [singleQuoted, doubleQuoted] ++ [lineComment] from member) with
            string | line
          · exact noString part string
          · rw [List.mem_singleton.mp line]
            exact noLine
        split
        · rename_i start
          split
          · rename_i stop plain
            obtain ⟨t, meaning⟩ : ∃ t, Meaning [] text blockComment i
                (.matched (.just (.text t)) stop) := blockComment_matched start plain
            exact .skip (lt_plainEnd plain) (Meaning.choice_of_front false noStringOrLine meaning)
          · rename_i notPlain
            have noPiece := piece_failed_of_start start notPlain noString noLine
            split
            · rename_i body stop found
              have meaning := (commentAt?_eq_some_iff text i body stop).mp found
              exact .emit (documentationComment_advances meaning).2 noPiece meaning
            · rename_i noComment
              exact .stuck start notPlain noPiece (commentAt?_of_none noComment)
        · rename_i other
          have noBlock : text.hasAt "/*" i = false := Bool.eq_false_of_not_eq_true other
          obtain ⟨e, fails⟩ : ∃ e, Meaning [] text commentStart i (.failed e) :=
            commentStart_failed free noBlock
          have character := Meaning.not_next fails
            (List.getElem?_eq_getElem (Nat.lt_of_not_le inside))
          have before : ∀ part ∈ [singleQuoted, doubleQuoted, lineComment, blockComment],
              ∃ e, Meaning [] text part i (.failed e) := by
            intro part member
            rcases List.mem_append.mp
              (show part ∈ [singleQuoted, doubleQuoted, lineComment] ++ [blockComment] from
                member) with earlier | block
            · exact noStringOrLine part earlier
            · rw [List.mem_singleton.mp block]
              exact blockComment_failed (.inl noBlock)
          exact .skip (Nat.lt_succ_self i) (Meaning.choice_of_front false before character)

theorem reads_of_step {s : Step} (here : step text i = s) : s.Reads text i :=
  here ▸ step_reads text i

theorem lt_of_step_skip {stop : Nat} (here : step text i = .skip stop) :
    i < text.length ∧ i < stop := by
  cases reads_of_step here with
  | skip ahead found => exact ⟨found.lt_length ahead, ahead⟩

theorem lt_of_step_emit {body : Text} {stop : Nat} (here : step text i = .emit body stop) :
    i < text.length ∧ i < stop := by
  cases reads_of_step here with
  | emit ahead _ found => exact ⟨found.lt_length ahead, ahead⟩

theorem stop_le_of_step_skip {stop : Nat} (here : step text i = .skip stop) :
    stop ≤ text.length := by
  cases reads_of_step here with
  | skip ahead found => exact found.stop_le_length ahead

theorem stop_le_of_step_emit {body : Text} {stop : Nat} (here : step text i = .emit body stop) :
    stop ≤ text.length := by
  cases reads_of_step here with
  | emit ahead _ found => exact found.stop_le_length ahead

/-- The bodies that were found, and where the pass stopped if it was not at the end. -/
structure Scan where
  bodies : List Text
  stuck? : Option Nat

def scan (text : Text) (i : Nat) : Scan :=
  match _ : step text i with
  | .finished => { bodies := [], stuck? := none }
  | .skip stop => scan text stop
  | .emit body stop =>
    let rest := scan text stop
    { rest with bodies := body :: rest.bodies }
  | .stuck => { bodies := [], stuck? := some i }
termination_by text.length - i
decreasing_by
  · have := lt_of_step_skip (by assumption)
    omega
  · have := lt_of_step_emit (by assumption)
    omega

/-- Along a pass: it ends at a position, or it goes on behind a step. -/
@[elab_as_elim] theorem scan_induction (text : Text) {motive : Nat → Prop}
    (finished : ∀ i, step text i = .finished → motive i)
    (stuck : ∀ i, step text i = .stuck → motive i)
    (skip : ∀ i stop, step text i = .skip stop → motive stop → motive i)
    (emit : ∀ i body stop, step text i = .emit body stop → motive stop → motive i) (i : Nat) :
    motive i :=
  scan.induct text motive finished skip emit stuck i

theorem scan_finished (here : step text i = .finished) :
    scan text i = { bodies := [], stuck? := none } := by
  rw [scan]
  split <;> simp_all

theorem scan_skip {stop : Nat} (here : step text i = .skip stop) :
    scan text i = scan text stop := by
  rw [scan]
  split <;> simp_all

theorem scan_emit {body : Text} {stop : Nat} (here : step text i = .emit body stop) :
    scan text i =
      { bodies := body :: (scan text stop).bodies, stuck? := (scan text stop).stuck? } := by
  rw [scan]
  split <;> simp_all

theorem scan_stuck (here : step text i = .stuck) :
    scan text i = { bodies := [], stuck? := some i } := by
  rw [scan]
  split <;> simp_all

end Comment

end Descent
