import Descent.Proofs.Greedy

/-! Items with separators between them, as chains of pairs. -/

namespace Descent

namespace Grammar

variable {defs : Definitions} {body : Body} {item separator : Grammar} {i j k e : Nat}
  {value : Maybe} {pair other : Maybe × Maybe}

def PairMatches (separator item : Grammar) (defs : Definitions) (body : Body) (i : Nat)
    (pair : Maybe × Maybe) (j : Nat) : Prop :=
  ∃ k, separator.Matches defs body i pair.1 k ∧ item.Matches defs body k pair.2 j

def PairFails (separator item : Grammar) (defs : Definitions) (body : Body) (i e : Nat) : Prop :=
  separator.Fails defs body i e ∨
    ∃ value k, separator.Matches defs body i value k ∧ item.Fails defs body k e

theorem PairMatches.unique (first : PairMatches separator item defs body i pair j)
    (second : PairMatches separator item defs body i other k) : pair = other ∧ j = k := by
  obtain ⟨m, begins, later⟩ := first
  obtain ⟨n, begins', later'⟩ := second
  obtain ⟨left, rfl⟩ := begins.unique begins'
  obtain ⟨right, same⟩ := later.unique later'
  exact ⟨Prod.ext left right, same⟩

theorem PairMatches.not_fails (found : PairMatches separator item defs body i pair j) :
    ¬ PairFails separator item defs body i e := by
  obtain ⟨m, begins, later⟩ := found
  intro failed
  rcases failed with stops | ⟨value, n, begins', stops⟩
  · exact begins.not_fails stops
  · obtain ⟨_, rfl⟩ := begins.unique begins'
    exact later.not_fails stops

theorem pair_matches_iff :
    (sequence [separator, item]).Matches defs body i value j ↔
      ∃ pair : Maybe × Maybe, value = .just (.list (pair.1.toList ++ pair.2.toList)) ∧
        PairMatches separator item defs body i pair j := by
  constructor
  · intro found
    obtain ⟨left, k, _, begins, rest, rfl⟩ := sequence_cons_matches_iff.mp found
    obtain ⟨right, m, _, later, last, same⟩ := sequence_cons_matches_iff.mp rest
    obtain ⟨nothing, rfl⟩ := sequence_nil_matches_iff.mp last
    cases nothing
    cases same
    refine ⟨(left, right), ?_, k, begins, later⟩
    simp
  · intro found
    obtain ⟨⟨left, right⟩, rfl, k, begins, later⟩ := found
    have last : (sequence []).Matches defs body j (.just (.list [])) j :=
      sequence_nil_matches_iff.mpr ⟨rfl, rfl⟩
    have rest := sequence_cons_matches_iff.mpr ⟨right, j, [], later, last, rfl⟩
    rw [List.append_nil] at rest
    exact sequence_cons_matches_iff.mpr ⟨left, k, right.toList, begins, rest, rfl⟩

theorem pair_fails_iff :
    (sequence [separator, item]).Fails defs body i e ↔ PairFails separator item defs body i e := by
  simp only [sequence_cons_fails_iff, not_sequence_nil_fails, and_false, exists_false, or_false,
    PairFails]

theorem greedy_sequence_iff {values : List Maybe} :
    Greedy ((sequence [separator, item]).Matches defs body)
        ((sequence [separator, item]).Fails defs body) i values j ↔
      ∃ pairs : List (Maybe × Maybe),
        values = pairs.map (fun pair => .just (.list (pair.1.toList ++ pair.2.toList))) ∧
        Greedy (PairMatches separator item defs body) (PairFails separator item defs body)
          i pairs j := by
  have fails : (sequence [separator, item]).Fails defs body =
      PairFails separator item defs body := by
    funext i e
    exact propext pair_fails_iff
  rw [fails]
  exact Greedy.map_iff fun _ _ _ => pair_matches_iff

theorem repeats_pairs_iff :
    Repeats Maybe.items (Meaning defs body.text (.sequence [separator, item])) i
        (.matched value j) ↔
      ∃ pairs, Greedy (PairMatches separator item defs body) (PairFails separator item defs body)
          i pairs j ∧
        value = .just (.list (pairs.flatMap fun pair => pair.1.toList ++ pair.2.toList)) := by
  rw [Repeats.matched_iff, ← matches_eq, ← fails_eq]
  constructor
  · intro found
    obtain ⟨values, greedy, rfl⟩ := found
    obtain ⟨pairs, rfl, inner⟩ := greedy_sequence_iff.mp greedy
    refine ⟨pairs, inner, ?_⟩
    rw [List.flatMap_map]
    rfl
  · intro found
    obtain ⟨pairs, inner, rfl⟩ := found
    refine ⟨_, greedy_sequence_iff.mpr ⟨pairs, rfl, inner⟩, ?_⟩
    rw [List.flatMap_map]
    rfl

/-- An item and a chain of pairs behind it that cannot go on. -/
theorem separatedBy_matches_iff :
    (separatedBy item separator).Matches defs body i value k ↔
      ∃ first j pairs, item.Matches defs body i first j ∧
        Greedy (PairMatches separator item defs body) (PairFails separator item defs body)
          j pairs k ∧
        value = .just (.list (first.toList ++
          pairs.flatMap fun pair => pair.1.toList ++ pair.2.toList)) := by
  rw [matches_iff, Meaning.separatedBy_iff]
  constructor
  · intro followed
    generalize whole : Answer.matched value k = a at followed
    cases followed with
    | stop begins stops =>
        subst whole
        simp at stops
    | @next j first b begins later =>
        cases b with
        | failed position => cases whole
        | raised fault => cases whole
        | matched rest stop =>
            cases whole
            obtain ⟨pairs, greedy, rfl⟩ := repeats_pairs_iff.mp later
            exact ⟨first, j, pairs, matches_iff.mpr begins, greedy, rfl⟩
  · intro found
    obtain ⟨first, j, pairs, begins, greedy, rfl⟩ := found
    exact .next (matches_iff.mp begins) (repeats_pairs_iff.mpr ⟨pairs, greedy, rfl⟩)

theorem separatedBy_fails_iff :
    (separatedBy item separator).Fails defs body i e ↔ item.Fails defs body i e := by
  rw [fails_iff, fails_iff, Meaning.separatedBy_iff]
  constructor
  · intro followed
    generalize whole : Answer.failed e = a at followed
    cases followed with
    | stop begins stops =>
        subst whole
        exact begins
    | next begins later =>
        rcases later.list_or_raised with ⟨_, _, rfl⟩ | ⟨_, rfl⟩
        · cases whole
        · cases whole
  · intro failed
    exact .stop failed rfl

theorem pairMatches_skip_iff :
    PairMatches (.skip separator) item defs body i pair j ↔
      ∃ whole : Maybe × Maybe, pair = (.nothing, whole.2) ∧
        PairMatches separator item defs body i whole j := by
  simp only [PairMatches, skip_matches_iff]
  constructor
  · intro found
    obtain ⟨k, ⟨absent, inner, begins⟩, later⟩ := found
    exact ⟨(inner, pair.2), Prod.ext absent rfl, k, begins, later⟩
  · intro found
    obtain ⟨whole, rfl, k, begins, later⟩ := found
    exact ⟨k, ⟨rfl, whole.1, begins⟩, later⟩

theorem pairFails_skip_eq :
    PairFails (.skip separator) item defs body = PairFails separator item defs body := by
  have behind : ∀ {i e : Nat},
      (∃ value k, (skip separator).Matches defs body i value k ∧ item.Fails defs body k e) ↔
        ∃ value k, separator.Matches defs body i value k ∧ item.Fails defs body k e := by
    intro i e
    constructor
    · intro found
      obtain ⟨_, k, begins, failed⟩ := found
      obtain ⟨_, inner, begins⟩ := skip_matches_iff.mp begins
      exact ⟨inner, k, begins, failed⟩
    · intro found
      obtain ⟨inner, k, begins, failed⟩ := found
      exact ⟨_, k, skip_matches_iff.mpr ⟨rfl, inner, begins⟩, failed⟩
  funext i e
  rw [PairFails, PairFails, skip_fails_iff, behind]

theorem greedy_skip_iff {pairs : List (Maybe × Maybe)} :
    Greedy (PairMatches (.skip separator) item defs body)
        (PairFails (.skip separator) item defs body) i pairs j ↔
      ∃ whole : List (Maybe × Maybe), pairs = whole.map (fun pair => (.nothing, pair.2)) ∧
        Greedy (PairMatches separator item defs body) (PairFails separator item defs body)
          i whole j := by
  rw [pairFails_skip_eq]
  exact Greedy.map_iff fun _ _ _ => pairMatches_skip_iff

theorem separatedBy_skip_matches {first : Maybe} {pairs : List (Maybe × Maybe)}
    (begins : item.Matches defs body i first j)
    (greedy : Greedy (PairMatches separator item defs body) (PairFails separator item defs body)
      j pairs k) :
    (separatedBy item (.skip separator)).Matches defs body i
      (.just (.list (first.toList ++ pairs.flatMap fun pair => pair.2.toList))) k := by
  have skipped := greedy_skip_iff.mpr ⟨pairs, rfl, greedy⟩
  refine separatedBy_matches_iff.mpr ⟨first, j, _, begins, skipped, ?_⟩
  rw [List.flatMap_map]
  rfl

/-- Items with separators match exactly where an item does, and along a chain of pairs of a
separator and an item behind it, as far as any such chain goes. The payloads are listed in the order
of the text; if separators are skipped, those of the items are left. -/
theorem separatedBy_takes_longest_chain (defs : Definitions) (item separator : Grammar)
    (body : Body) (i : Nat) (r : Result)
    (ends : ((separatedBy item separator).parse (body.cursor i) defs).outcome = .done r) :
    (r.succeeded = true ↔ ∃ value j, item.Matches defs body i value j) ∧
    ((item.Fails defs body i r.stop ∧ r = .failure (body.cursor r.stop) r.stop ∧
        (separatedBy item (.skip separator)).Fails defs body i r.stop) ∨
      ∃ first j pairs, item.Matches defs body i first j ∧
        Greedy (PairMatches separator item defs body) (PairFails separator item defs body)
          j pairs r.stop ∧
        (∀ others k, Chain (PairMatches separator item defs body) j others k → k ≤ r.stop) ∧
        r = .success (.just (.list (first.toList ++
          pairs.flatMap fun pair => pair.1.toList ++ pair.2.toList))) (body.cursor r.stop) i ∧
        (separatedBy item (.skip separator)).Matches defs body i
          (.just (.list (first.toList ++ pairs.flatMap fun pair => pair.2.toList))) r.stop) := by
  rcases matches_or_fails ends with ⟨value, found, same⟩ | ⟨failed, same⟩
  · obtain ⟨first, j, pairs, begins, greedy, rfl⟩ := separatedBy_matches_iff.mp found
    have matched : r.succeeded = true := by rw [same, Result.succeeded]
    refine ⟨iff_of_true matched ⟨first, j, begins⟩, .inr ⟨first, j, pairs, begins, greedy, ?_, same,
      separatedBy_skip_matches begins greedy⟩⟩
    intro others k chain
    exact greedy.le_of_chain (fun first second => first.unique second)
      (fun first => first.not_fails) chain
  · have stops := separatedBy_fails_iff.mp failed
    have missed : ¬ r.succeeded = true := by rw [same, Result.succeeded]; exact Bool.false_ne_true
    refine ⟨iff_of_false missed ?_, .inl ⟨stops, same, separatedBy_fails_iff.mpr stops⟩⟩
    intro found
    obtain ⟨value, j, begins⟩ := found
    exact begins.not_fails stops

/-- An item without a payload between two others, and a last separator without an item. -/
theorem separatedBy_takes_longest_chain_letters :
    ∃ (item : Grammar) (body : Body) (r : Result),
      item = .firstOf ["a", .skip "b"] ∧ body = { text := "a,b,a,;", name := [] } ∧
      r = .success (.just (.list [.text "a", .text ",", .text ",", .text "a"])) (body.cursor 5) 0 ∧
      ((Grammar.separatedBy item ",").parse (body.cursor 0)).outcome = .done r ∧
      (r.succeeded = true ↔ ∃ value j, item.Matches [] body 0 value j) ∧
      ∃ first j pairs, item.Matches [] body 0 first j ∧
        Greedy (Grammar.PairMatches "," item [] body) (Grammar.PairFails "," item [] body)
          j pairs r.stop ∧
        (Grammar.separatedBy item (.skip ",")).Matches [] body 0
          (.just (.list (first.toList ++ pairs.flatMap fun pair => pair.2.toList))) r.stop := by
  let item : Grammar := .firstOf ["a", .skip "b"]
  let body : Body := { text := "a,b,a,;", name := [] }
  let payload : Payload := .list [.text "a", .text ",", .text ",", .text "a"]
  let r : Result := .success (.just payload) (body.cursor 5) 0
  have run : ((Grammar.separatedBy item ",").parse (body.cursor 0)).outcome = .done r := rfl
  obtain ⟨matched, ⟨_, failed, _⟩ | ⟨first, j, pairs, begins, greedy, _, _, skipped⟩⟩ :=
    separatedBy_takes_longest_chain [] item "," body 0 r run
  · exact absurd failed nofun
  · exact ⟨item, body, r, rfl, rfl, rfl, run, matched, first, j, pairs, begins, greedy, skipped⟩

end Grammar

end Descent
