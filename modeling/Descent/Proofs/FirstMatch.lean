import Descent.Proofs.Greedy
import Mathlib.Order.Nat

/-! The characters up to the first position at which something matches. -/

namespace Descent

theorem Text.exists_least_or_missing (text word : Text) (i : Nat) :
    (∃ k, IsLeast {m | i ≤ m ∧ text.hasAt word m = true} k) ∨
      ∀ m, i ≤ m → text.hasAt word m = false := by
  by_cases there : ∃ m, i ≤ m ∧ text.hasAt word m = true
  · exact .inl ⟨Nat.find there, Nat.isLeast_find there⟩
  · right
    intro m ahead
    rw [Bool.eq_false_iff]
    intro here
    exact there ⟨m, ahead, here⟩

namespace Grammar

variable {defs : Definitions} {body : Body} {part : Grammar} {i j k e : Nat} {value : Maybe}
  {values : List Maybe} {d : Text}

theorem not_matches_iff :
    (Grammar.not part).Matches defs body i value j ↔
      (∃ e, part.Fails defs body i e) ∧
        ∃ x, body.text[i]? = some x ∧ value = .just (.text [x]) ∧ j = i + 1 := by
  simp only [matches_iff, fails_iff]
  constructor
  · intro meaning
    obtain ⟨e, fails⟩ := meaning.not_matched_inner
    refine ⟨⟨e, fails⟩, ?_⟩
    cases here : body.text[i]? with
    | none =>
        have ended : body.text.length ≤ i := List.getElem?_eq_none_iff.mp here
        cases meaning.unique (Meaning.not_end fails ended)
    | some x =>
        cases meaning.unique (Meaning.not_next fails here)
        exact ⟨x, rfl, rfl, rfl⟩
  · intro found
    obtain ⟨⟨e, fails⟩, x, here, rfl, rfl⟩ := found
    exact Meaning.not_next fails here

theorem matches_of_not_fails (failed : (Grammar.not part).Fails defs body i e)
    (inside : i < body.text.length) : ∃ value j, part.Matches defs body i value j := by
  simp only [matches_iff]
  generalize whole : Answer.failed e = a at *
  have meaning := fails_iff.mp failed
  rw [whole] at meaning
  cases meaning with
  | not_matched inner => exact ⟨_, _, inner⟩
  | not_failed inner =>
      have here := List.getElem?_eq_getElem inside
      simp [Answer.character, here] at whole
  | not_raised inner => cases whole

theorem fails_of_chain_not (chain : Chain ((Grammar.not part).Matches defs body) i values j) :
    ∀ m, i ≤ m → m < j → ∃ e, part.Fails defs body m e := by
  induction chain with
  | nil i =>
      intro m low high
      omega
  | @cons i k j value values first advances later ih =>
      intro m low high
      obtain ⟨fails, x, _, _, rfl⟩ := not_matches_iff.mp first
      by_cases here : m = i
      · rw [here]
        exact fails
      · exact ih m (by omega) high

theorem characters_of_chain_not
    (chain : Chain ((Grammar.not part).Matches defs body) i values j) :
    values.flatMap Maybe.toList = Payload.characters (body.text.slice i j) := by
  rw [Text.slice_natCast]
  induction chain with
  | nil i => simp [Payload.characters]
  | @cons i m j value values first advances later ih =>
      obtain ⟨_, x, here, rfl, rfl⟩ := not_matches_iff.mp first
      obtain ⟨inside, rfl⟩ := List.getElem?_eq_some_iff.mp here
      have low := later.le
      have taken : i < (body.text.take j).length := by
        rw [List.length_take]
        omega
      rw [List.flatMap_cons, ih, List.drop_eq_getElem_cons taken, List.getElem_take]
      rfl

theorem many_not_ends (inside : i ≤ body.text.length)
    (found : (many (.not part)).Matches defs body i value j) :
    i ≤ j ∧ j ≤ body.text.length ∧ (∀ m, i ≤ m → m < j → ∃ e, part.Fails defs body m e) ∧
      (j < body.text.length → ∃ value k, part.Matches defs body j value k) ∧
      value = .just (.list (Payload.characters (body.text.slice i j))) := by
  obtain ⟨values, ⟨chain, stuck⟩, rfl⟩ := many_matches_iff.mp found
  have high := (matches_iff.mp found).stop_le
  refine ⟨chain.le, by omega, fails_of_chain_not chain, ?_, ?_⟩
  · intro before
    rcases stuck with ⟨e, failed⟩ | ⟨value, k, last, still⟩
    · exact matches_of_not_fails failed before
    · obtain ⟨_, _, _, _, rfl⟩ := not_matches_iff.mp last
      omega
  · rw [characters_of_chain_not chain]

/-- Where a search may end: at the first position of the text at which the part matches, or at the
end of the text if there is none. -/
theorem first_of_many_not (inside : i ≤ body.text.length)
    (found : (many (.not part)).Matches defs body i value j) :
    IsLeast {m | i ≤ m ∧ m < body.text.length ∧ ∃ value k, part.Matches defs body m value k} j ∨
      j = body.text.length ∧ ∀ m, i ≤ m → m < body.text.length →
        ¬ ∃ value k, part.Matches defs body m value k := by
  obtain ⟨low, high, passes, stops, _⟩ := many_not_ends inside found
  have none : ∀ m, i ≤ m → m < j → ¬ ∃ value k, part.Matches defs body m value k := by
    intro m ahead before there
    obtain ⟨e, fails⟩ := passes m ahead before
    obtain ⟨value, k, matched⟩ := there
    exact matched.not_fails fails
  by_cases before : j < body.text.length
  · refine .inl ⟨⟨low, before, stops before⟩, ?_⟩
    intro m member
    obtain ⟨ahead, _, there⟩ := member
    exact Nat.not_lt.mp fun earlier => none m ahead earlier there
  · have last : j = body.text.length := by omega
    exact .inr ⟨last, fun m ahead earlier => none m ahead (by omega)⟩

theorem many_not_matches (low : i ≤ k) (high : k ≤ body.text.length)
    (passes : ∀ m, i ≤ m → m < k → ∃ e, part.Fails defs body m e)
    (stops : (Grammar.not part).Fails defs body k k) :
    (many (.not part)).Matches defs body i
      (.just (.list (Payload.characters (body.text.slice i k)))) k := by
  simp only [fails_iff] at passes stops
  rw [matches_iff, Text.slice_natCast, List.drop_take]
  exact Meaning.many_not low high passes stops

theorem word_matches (inhabited : d ≠ []) (here : body.text.hasAt d i = true) :
    (word d).Matches defs body i (.just (.text d)) (i + d.length) :=
  matches_iff.mpr (Meaning.word_matched inhabited here)

theorem word_fails (missing : body.text.hasAt d i = false) : (word d).Fails defs body i i :=
  fails_iff.mpr (Meaning.word_failed missing)

def delimitedBy (d : Text) : Grammar := .sequence [.word d, .many (.not (.word d)), .word d]

theorem delimitedBy_matches (inhabited : d ≠ []) (found : body.text.hasAt d i = true)
    (least : IsLeast {m | i + d.length ≤ m ∧ body.text.hasAt d m = true} k) :
    (delimitedBy d).Matches defs body i
      (.just (.list [.text d, .list (Payload.characters (body.text.slice ↑(i + d.length) k)),
        .text d])) (k + d.length) := by
  obtain ⟨⟨low, there⟩, first⟩ := least
  have inside := Text.length_le_of_hasAt there inhabited
  have opening : (word d).Matches defs body i (.just (.text d)) (i + d.length) :=
    word_matches inhabited found
  have closing : (word d).Matches defs body k (.just (.text d)) (k + d.length) :=
    word_matches inhabited there
  have passes : ∀ m, i + d.length ≤ m → m < k → ∃ e, (word d).Fails defs body m e := by
    intro m ahead before
    refine ⟨m, word_fails ?_⟩
    rw [Bool.eq_false_iff]
    intro here
    exact absurd (first ⟨ahead, here⟩) (Nat.not_le.mpr before)
  have stops : (Grammar.not (.word d)).Fails defs body k k :=
    fails_iff.mpr (.not_matched (matches_iff.mp closing))
  have between := many_not_matches low (by omega) passes stops
  have last : (sequence [.word d]).Matches defs body k (.just (.list [.text d])) (k + d.length) :=
    sequence_cons_matches_iff.mpr ⟨_, _, _, closing, sequence_nil_matches_iff.mpr ⟨rfl, rfl⟩, rfl⟩
  have rest := sequence_cons_matches_iff.mpr ⟨_, _, _, between, last, rfl⟩
  exact sequence_cons_matches_iff.mpr ⟨_, _, _, opening, rest, rfl⟩

theorem delimitedBy_fails (inhabited : d ≠ []) (found : body.text.hasAt d i = true)
    (missing : ∀ m, i + d.length ≤ m → body.text.hasAt d m = false) :
    (delimitedBy d).Fails defs body i body.text.length := by
  have inside := Text.length_le_of_hasAt found inhabited
  have opening : (word d).Matches defs body i (.just (.text d)) (i + d.length) :=
    word_matches inhabited found
  have passes : ∀ m, i + d.length ≤ m → m < body.text.length →
      ∃ e, (word d).Fails defs body m e :=
    fun m ahead _ => ⟨m, word_fails (missing m ahead)⟩
  have ends : (word d).Fails defs body body.text.length body.text.length :=
    word_fails (missing _ inside)
  have stops : (Grammar.not (.word d)).Fails defs body body.text.length body.text.length :=
    fails_iff.mpr (Meaning.not_end (fails_iff.mp ends) (Nat.le_refl _))
  have between := many_not_matches inside (Nat.le_refl _) passes stops
  have last : (sequence [.word d]).Fails defs body body.text.length body.text.length :=
    sequence_cons_fails_iff.mpr (.inl ends)
  have rest := sequence_cons_fails_iff.mpr (.inr ⟨_, _, between, last⟩)
  exact sequence_cons_fails_iff.mpr (.inr ⟨_, _, opening, rest⟩)

theorem delimitedBy_matches_iff (inhabited : d ≠ []) (found : body.text.hasAt d i = true) :
    (delimitedBy d).Matches defs body i value j ↔
      ∃ k : Nat, IsLeast {m | i + d.length ≤ m ∧ body.text.hasAt d m = true} k ∧
        value = .just (.list [.text d,
          .list (Payload.characters (body.text.slice ↑(i + d.length) k)), .text d]) ∧
        j = k + d.length := by
  constructor
  · intro matched
    rcases body.text.exists_least_or_missing d (i + d.length) with ⟨k, least⟩ | missing
    · obtain ⟨same, rfl⟩ := matched.unique (delimitedBy_matches inhabited found least)
      exact ⟨k, least, same, rfl⟩
    · exact absurd (delimitedBy_fails inhabited found missing) matched.not_fails
  · intro next
    obtain ⟨k, least, rfl, rfl⟩ := next
    exact delimitedBy_matches inhabited found least

theorem delimitedBy_fails_iff (inhabited : d ≠ []) (found : body.text.hasAt d i = true) :
    (∃ e, (delimitedBy d).Fails defs body i e) ↔
      ∀ m, i + d.length ≤ m → body.text.hasAt d m = false := by
  constructor
  · intro failed
    obtain ⟨e, stops⟩ := failed
    rcases body.text.exists_least_or_missing d (i + d.length) with ⟨k, least⟩ | missing
    · exact absurd stops (delimitedBy_matches inhabited found least).not_fails
    · exact missing
  · intro missing
    exact ⟨_, delimitedBy_fails inhabited found missing⟩

/-- A search for a match ends at the first position of the text at which there is one, or at the end
of the text, and lists the characters before it. So from a word to the same word all is matched up
to where the word stands next without overlapping itself; and nothing if it does not. -/
theorem many_not_finds_first (defs : Definitions) (body : Body) (i : Nat)
    (inside : i ≤ body.text.length) :
    (∀ part r, ((many (.not part)).parse (body.cursor i) defs).outcome = .done r →
      ∃ j : Nat,
        r = .success (.just (.list (Payload.characters (body.text.slice i j)))) (body.cursor j) i ∧
        (IsLeast {m | i ≤ m ∧ m < body.text.length ∧
            ∃ value k, part.Matches defs body m value k} j ∨
          j = body.text.length ∧ ∀ m, i ≤ m → m < body.text.length →
            ¬ ∃ value k, part.Matches defs body m value k)) ∧
    ∀ d, d ≠ [] → body.text.hasAt d i = true →
      (∀ value j, (delimitedBy d).Matches defs body i value j ↔
        ∃ k : Nat, IsLeast {m | i + d.length ≤ m ∧ body.text.hasAt d m = true} k ∧
          value = .just (.list [.text d,
            .list (Payload.characters (body.text.slice ↑(i + d.length) k)), .text d]) ∧
          j = k + d.length) ∧
      ((∃ e, (delimitedBy d).Fails defs body i e) ↔
        ∀ m, i + d.length ≤ m → body.text.hasAt d m = false) := by
  constructor
  · intro part r ends
    rcases matches_or_fails ends with ⟨value, found, same⟩ | ⟨failed, _⟩
    · obtain ⟨_, _, _, _, rfl⟩ := many_not_ends inside found
      exact ⟨r.stop, same, first_of_many_not inside found⟩
    · exact absurd failed not_many_fails
  · intro d inhabited found
    exact ⟨fun _ _ => delimitedBy_matches_iff inhabited found,
      delimitedBy_fails_iff inhabited found⟩

/-- A search for what takes no character, and a word that overlaps itself where it stands. -/
theorem many_not_finds_first_dashes :
    ∃ (body : Body) (part : Grammar) (r : Result) (d : Text),
      body = { text := "x---b--", name := [] } ∧ part = .peek "b" ∧ d = "--" ∧
      r = .success (.just (.list [.text "-", .text "-", .text "-"])) (body.cursor 4) 1 ∧
      1 ≤ body.text.length ∧ d ≠ [] ∧ body.text.hasAt d 1 = true ∧
      ((Grammar.many (.not part)).parse (body.cursor 1)).outcome = .done r ∧
      (∃ j : Nat,
        r = .success (.just (.list (Payload.characters (body.text.slice ↑1 j)))) (body.cursor j) 1 ∧
        (IsLeast {m | 1 ≤ m ∧ m < body.text.length ∧
            ∃ value k, part.Matches [] body m value k} j ∨
          j = body.text.length ∧ ∀ m, 1 ≤ m → m < body.text.length →
            ¬ ∃ value k, part.Matches [] body m value k)) ∧
      (Grammar.delimitedBy d).Matches [] body 1
        (.just (.list [.text d, .list [.text "-", .text "b"], .text d])) 7 := by
  let body : Body := { text := "x---b--", name := [] }
  let part : Grammar := .peek "b"
  let d : Text := "--"
  let r : Result := .success (.just (.list [.text "-", .text "-", .text "-"])) (body.cursor 4) 1
  have inside : 1 ≤ body.text.length := by decide
  have found : body.text.hasAt d 1 = true := rfl
  have run : ((Grammar.many (.not part)).parse (body.cursor 1)).outcome = .done r := rfl
  have least : IsLeast {m | 1 + d.length ≤ m ∧ body.text.hasAt d m = true} 5 := by
    refine ⟨⟨by decide, rfl⟩, ?_⟩
    intro m member
    obtain ⟨ahead, here⟩ := member
    by_contra earlier
    have few : m = 3 ∨ m = 4 := by
      have low : 3 ≤ m := ahead
      omega
    rcases few with rfl | rfl
    · cases here
    · cases here
  obtain ⟨searched, delimited⟩ := many_not_finds_first [] body 1 inside
  obtain ⟨matched, _⟩ := delimited d (by decide) found
  exact ⟨body, part, r, d, rfl, rfl, rfl, rfl, inside, by decide, found, run,
    searched part r run, (matched _ 7).mpr ⟨5, least, rfl, rfl⟩⟩

end Grammar

end Descent
