import Descent.Proofs.Comment.Prefix
import Descent.Proofs.Locality

/-! Two texts one after the other, and the documentation comments of both. -/

namespace Descent

theorem Grammar.matchAt?_behind (g : Grammar) (front text : Text) (i : Nat) :
    g.matchAt? (front ++ text) (front.length + i) =
      (g.matchAt? text i).map fun found => (found.1, front.length + found.2) := by
  have cursor : Body.cursor { text := front ++ text, name := [] } (front.length + i) =
      (Body.cursor { text, name := [] } i).behind front [] := by
    simp only [Body.cursor, Cursor.behind, Body.behind, List.drop_length_add_append]
  rw [matchAt?, matchAt?, cursor, g.parse_behind]
  simp only [Reply.behind]
  cases (g.parse (Body.cursor { text, name := [] } i)).outcome with
  | raised fault => rfl
  | exhausted => rfl
  | done r => cases r <;> rfl

namespace Comment

open Grammar

def Step.map (move : Nat → Nat) (image : Text → Text) : Step → Step
  | .finished => .finished
  | .skip stop => .skip (move stop)
  | .emit body stop => .emit (image body) (move stop)
  | .stuck => .stuck

/-- Steps are the same if everything that begins at the one position begins at the other. -/
theorem step_eq_map {text text' : Text} {i i' : Nat} {move : Nat → Nat} {image : Text → Text}
    (ended : text'.length ≤ i' ↔ text.length ≤ i)
    (string : stringEnd? text' i' = (stringEnd? text i).map move)
    (line : text'.hasAt "//" i' = text.hasAt "//" i)
    (lineEnds : text.hasAt "//" i = true → lineEnd text' (i' + 2) = move (lineEnd text (i + 2)))
    (block : text'.hasAt "/*" i' = text.hasAt "/*" i)
    (plain : text.hasAt "/*" i = true → plainEnd? text' i' = (plainEnd? text i).map move)
    (comment : commentAt? text' i' =
      (commentAt? text i).map fun found => (image found.1, move found.2))
    (next : i' + 1 = move (i + 1)) : step text' i' = (step text i).map move image := by
  rw [step, step, string, line, block, comment, next]
  by_cases past : text.length ≤ i
  · rw [if_pos past, if_pos (ended.mpr past)]
    rfl
  · rw [if_neg past, if_neg fun past' => past (ended.mp past')]
    cases stringEnd? text i with
    | some stop => rfl
    | none =>
        cases here : text.hasAt "//" i with
        | true =>
            rw [lineEnds here]
            rfl
        | false =>
            cases there : text.hasAt "/*" i with
            | false => rfl
            | true =>
                rw [plain there]
                cases plainEnd? text i with
                | some stop => rfl
                | none => cases commentAt? text i <;> rfl

def Step.behind (k : Nat) : Step → Step
  | .finished => .finished
  | .skip stop => .skip (k + stop)
  | .emit body stop => .emit body (k + stop)
  | .stuck => .stuck

variable (front text : Text) (i : Nat)

theorem stringEnd?_behind :
    stringEnd? (front ++ text) (front.length + i) =
      (stringEnd? text i).map (front.length + ·) := by
  simp only [stringEnd?, Text.hasAt_behind, Grammar.matchAt?_behind]
  split
  · cases singleQuoted.matchAt? text i <;> rfl
  · split
    · cases doubleQuoted.matchAt? text i <;> rfl
    · rfl

theorem lineEnd_behind :
    lineEnd (front ++ text) (front.length + i) = front.length + lineEnd text i := by
  rw [lineEnd, lineEnd, Text.next?_behind (by decide)]
  cases text.next? "\n" i with
  | none => exact List.length_append
  | some k => rfl

theorem plainEnd?_behind :
    plainEnd? (front ++ text) (front.length + i) =
      (plainEnd? text i).map (front.length + ·) := by
  rw [plainEnd?, plainEnd?, Nat.add_assoc, Text.next?_behind (by decide)]
  simp only [Text.hasAt_behind]
  cases text.next? "*/" (i + 2) with
  | none => rfl
  | some k =>
      simp only [Option.map_some]
      split <;> rfl

theorem commentAt?_behind :
    commentAt? (front ++ text) (front.length + i) =
      (commentAt? text i).map fun found => (found.1, front.length + found.2) := by
  simp only [commentAt?, Text.hasAt_behind, Grammar.matchAt?_behind]
  split
  · cases documentationComment.matchAt? text i with
    | none => rfl
    | some found =>
        obtain ⟨⟨present, payload⟩, stop⟩ := found
        cases present <;> cases payload <;> rfl
  · rfl

theorem step_behind :
    step (front ++ text) (front.length + i) = (step text i).behind front.length := by
  have same : (step text i).map (front.length + ·) id = (step text i).behind front.length := by
    cases step text i <;> rfl
  have ended : (front ++ text).length ≤ front.length + i ↔ text.length ≤ i := by
    rw [List.length_append]
    omega
  rw [← same]
  exact step_eq_map ended (stringEnd?_behind front text i) (Text.hasAt_behind front text _ i)
    (fun _ => lineEnd_behind front text (i + 2)) (Text.hasAt_behind front text _ i)
    (fun _ => plainEnd?_behind front text i) (commentAt?_behind front text i) rfl

def Scan.behind (k : Nat) (s : Scan) : Scan :=
  { bodies := s.bodies, stuck? := s.stuck?.map (k + ·) }

theorem scan_behind :
    scan (front ++ text) (front.length + i) = (scan text i).behind front.length := by
  have shifted := step_behind front text
  induction i using scan_induction text with
  | finished i here =>
      rw [scan_finished here, scan_finished ((shifted i).trans (congrArg _ here))]
      rfl
  | stuck i here =>
      rw [scan_stuck here, scan_stuck ((shifted i).trans (congrArg _ here))]
      rfl
  | skip i stop here ih =>
      rw [scan_skip here, scan_skip ((shifted i).trans (congrArg _ here))]
      exact ih
  | emit i body stop here ih =>
      rw [scan_emit here, scan_emit ((shifted i).trans (congrArg _ here)), ih]
      rfl

variable {text : Text} {i : Nat}

inductive Visits (text : Text) : Nat → Prop where
  | start : Visits text 0
  | skip {i stop : Nat} (visited : Visits text i) (here : step text i = .skip stop) :
      Visits text stop
  | emit {i stop : Nat} {body : Text} (visited : Visits text i)
      (here : step text i = .emit body stop) : Visits text stop

theorem Visits.le_length (visited : Visits text i) : i ≤ text.length := by
  cases visited with
  | start => exact Nat.zero_le _
  | skip _ here =>
      cases reads_of_step here with
      | skip ahead found => exact found.stop_le_length ahead
  | emit _ here =>
      cases reads_of_step here with
      | emit ahead _ found => exact found.stop_le_length ahead

/-- No quote is passed over by itself: each stands in a comment, or in a string that ends. -/
def QuotesClosed (text : Text) : Prop :=
  ∀ i, Visits text i → QuoteAt text i → step text i ≠ .skip (i + 1)

/-- The pass over a text that is read to its end goes on with what follows the text. -/
theorem scan_before (ended : Terminated text) (quotes : QuotesClosed text)
    (visited : Visits text i) (goes : (scan text i).stuck? = none) (more : Text) :
    scan (text ++ more) i =
      { bodies := (scan text i).bodies ++ (scan (text ++ more) text.length).bodies
        stuck? := (scan (text ++ more) text.length).stuck? } := by
  have same : ∀ i s, Visits text i → step text i = s → s ≠ .stuck → i < text.length →
      step (text ++ more) i = s := by
    rintro i s visited rfl moves inside
    exact step_before ended inside (quotes i visited) moves more
  induction i using scan_induction text with
  | finished i here =>
      cases reads_of_step here with
      | finished past _ _ =>
          have last : i = text.length := Nat.le_antisymm visited.le_length past
          rw [scan_finished here, last]
          rfl
  | stuck i here =>
      rw [scan_stuck here] at goes
      cases goes
  | skip i stop here ih =>
      have longer := same i _ visited here nofun (lt_of_step_skip here).1
      rw [scan_skip here] at goes ⊢
      rw [scan_skip longer]
      exact ih (visited.skip here) goes
  | emit i body stop here ih =>
      have longer := same i _ visited here nofun (lt_of_step_emit here).1
      rw [scan_emit here] at goes ⊢
      rw [scan_emit longer, ih (visited.emit here) goes]
      rfl

theorem scan_append {first : Text} (ended : Terminated first) (quotes : QuotesClosed first)
    (accepted : (scan first 0).stuck? = none) (second : Text) :
    scan (first ++ second) 0 =
      { bodies := (scan first 0).bodies ++ (scan second 0).bodies
        stuck? := (scan second 0).stuck?.map (first.length + ·) } := by
  have rest : scan (first ++ second) first.length = (scan second 0).behind first.length :=
    scan_behind first second 0
  rw [scan_before ended quotes .start accepted second, rest]
  rfl

/-- After a text that ends with a line, is accepted and leaves no quote open, any text is read as it
is read alone: it is accepted or rejected as it is alone, its bodies come after those of the first
text, and if it is rejected, then at the same place of it. -/
theorem document_run_append {first : Text} (ended : Terminated first) (quotes : QuotesClosed first)
    {name : Text} {r : Result} (run : document.run first name = .done r)
    (accepted : r.succeeded = true) (second title whole : Text) :
    ∃ (bodies : List Text) (s t : Result),
      r.value = .just (.list (bodies.map .text)) ∧
      document.run second title = .done s ∧ document.run (first ++ second) whole = .done t ∧
      t.succeeded = s.succeeded ∧
      (s.succeeded = true → ∃ more : List Text, s.value = .just (.list (more.map .text)) ∧
        t.value = .just (.list ((bodies ++ more).map .text))) ∧
      (s.succeeded = false → t.stop = first.length + s.stop) := by
  have reads : ∀ text name : Text, document.run text name =
      ((scan text 0).answer text).outcome { text, name } 0 :=
    fun text name => (document_yields text name).outcome_eq
  have firstRun := (reads first name).symm.trans run
  have secondRun := reads second title
  have bothRun := reads (first ++ second) whole
  rw [Scan.answer] at firstRun secondRun bothRun
  cases goes : (scan first 0).stuck? with
  | some e =>
      rw [goes] at firstRun
      cases firstRun
      cases accepted
  | none =>
      rw [goes] at firstRun
      cases firstRun
      rw [scan_append ended quotes goes second] at bothRun
      cases rest : (scan second 0).stuck? with
      | none =>
          rw [rest] at secondRun bothRun
          exact ⟨_, _, _, rfl, secondRun, bothRun, rfl, fun _ => ⟨_, rfl, rfl⟩, by simp⟩
      | some e =>
          rw [rest] at secondRun bothRun
          exact ⟨_, _, _, rfl, secondRun, bothRun, rfl, by simp, fun _ => rfl⟩

/-- Quotes in a string and in a comment of the first text, and one that is open in the second. -/
theorem document_run_append_quotes :
    ∃ (first second : Text) (r s t : Result),
      first = "\x27*\x27/**\x27*/\n" ∧ second = "\x27/**c*/" ∧
      Terminated first ∧ QuotesClosed first ∧
      document.run first [] = .done r ∧ r.succeeded = true ∧
      r.value = .just (.list [.text "\x27"]) ∧ document.run second [] = .done s ∧
      s.value = .just (.list [.text "c"]) ∧ document.run (first ++ second) [] = .done t ∧
      t.succeeded = s.succeeded ∧ t.value = .just (.list [.text "\x27", .text "c"]) := by
  obtain ⟨first, whole⟩ : ∃ first : Text, first = "\x27*\x27/**\x27*/\n" := ⟨_, rfl⟩
  obtain ⟨second, opened⟩ : ∃ second : Text, second = "\x27/**c*/" := ⟨_, rfl⟩
  have quoted : singleQuoted.matchAt? first 0 = some (.just (.text "\x27*\x27"), 3) := by
    rw [whole]
    cbv
  have string : step first 0 = .skip 3 := by
    have inside : 0 < first.length := by
      rw [whole]
      decide
    have quote : first.hasAt "\x27" 0 = true := by
      rw [whole]
      rfl
    apply step_of_string inside
    rw [stringEnd?, if_pos quote, quoted]
    rfl
  have comment : step first 3 = .emit "\x27" 9 := by rw [whole]; cbv
  have newline : step first 9 = .skip 10 := by rw [whole]; cbv
  have last : step first 10 = .finished := by rw [whole]; cbv
  have places : ∀ i, Visits first i → i = 0 ∨ i = 3 ∨ i = 9 ∨ i = 10 := by
    intro i visited
    induction visited with
    | start => exact .inl rfl
    | skip _ here ih =>
        rcases ih with rfl | rfl | rfl | rfl
        · cases string.symm.trans here
          exact .inr (.inl rfl)
        · cases comment.symm.trans here
        · cases newline.symm.trans here
          exact .inr (.inr (.inr rfl))
        · cases last.symm.trans here
    | emit _ here ih =>
        rcases ih with rfl | rfl | rfl | rfl
        · cases string.symm.trans here
        · cases comment.symm.trans here
          exact .inr (.inr (.inl rfl))
        · cases newline.symm.trans here
        · cases last.symm.trans here
  have quotes : QuotesClosed first := by
    intro i visited quote
    rcases places i visited with rfl | rfl | rfl | rfl
    · simp [string]
    · simp [comment]
    · have free : first.hasAt "\x27" 9 = false ∧ first.hasAt "\x22" 9 = false := by
        rw [whole]
        decide
      simp [QuoteAt, free] at quote
    · simp [last]
  have ended : Terminated first := by
    rw [whole]
    exact .inr rfl
  have run : document.run first [] = .done (.success (.just (.list [.text "\x27"]))
      (Body.cursor { text := first, name := [] } 10) 0) := by
    rw [whole]
    cbv
  have secondRun : document.run second [] = .done (.success (.just (.list [.text "c"]))
      (Body.cursor { text := second, name := [] } 7) 0) := by
    rw [opened]
    cbv
  obtain ⟨bodies, s, t, value, alone, both, succeeded, lists, _⟩ :=
    document_run_append ended quotes run rfl second [] []
  cases secondRun.symm.trans alone
  obtain ⟨more, found, joined⟩ := lists rfl
  have front : [Payload.text "\x27"] = bodies.map .text :=
    Payload.list.inj (congrArg Maybe.value value)
  have back : [Payload.text "c"] = more.map .text := Payload.list.inj (congrArg Maybe.value found)
  rw [List.map_append, ← front, ← back] at joined
  exact ⟨first, second, _, _, t, whole, opened, ended, quotes, run, rfl, rfl, secondRun, rfl, both,
    succeeded, joined⟩

end Comment

end Descent
