import Descent.Text.Basic

/-! Where words stand in a text, and where they stand next. -/

namespace Descent.Text

def hasAt (text word : Text) (i : Nat) : Bool := Text.startsWith (text.drop i) word

theorem hasAt_iff (text word : Text) (i : Nat) :
    text.hasAt word i = true ↔ word <+: text.drop i := List.isPrefixOf_iff_prefix

@[simp] theorem hasAt_nil (text : Text) (i : Nat) : text.hasAt [] i = true := rfl

theorem hasAt_self (text : Text) : text.hasAt text 0 = true :=
  (hasAt_iff text text 0).mpr (List.prefix_refl text)

theorem drop_eq_cons_iff (text rest : Text) (x : CodePoint) (i : Nat) :
    text.drop i = x :: rest ↔ text[i]? = some x ∧ text.drop (i + 1) = rest := by
  constructor
  · intro here
    constructor
    · rw [← List.head?_drop, here, List.head?_cons]
    · rw [← List.drop_drop, here, List.drop_succ_cons, List.drop_zero]
  · rintro ⟨found, rfl⟩
    obtain ⟨inside, rfl⟩ := List.getElem?_eq_some_iff.mp found
    exact List.drop_eq_getElem_cons inside

theorem hasAt_cons (text word : Text) (x : CodePoint) (i : Nat) :
    text.hasAt (x :: word) i = true ↔ text[i]? = some x ∧ text.hasAt word (i + 1) = true := by
  simp only [hasAt_iff]
  constructor
  · rintro ⟨rest, here⟩
    have split := (drop_eq_cons_iff text _ x i).mp here.symm
    exact ⟨split.1, rest, split.2.symm⟩
  · rintro ⟨found, rest, here⟩
    exact ⟨rest, ((drop_eq_cons_iff text _ x i).mpr ⟨found, here.symm⟩).symm⟩

theorem hasAt_append (text front back : Text) (i : Nat) :
    text.hasAt (front ++ back) i = true ↔
      text.hasAt front i = true ∧ text.hasAt back (i + front.length) = true := by
  induction front generalizing i with
  | nil => simp
  | cons x front ih =>
      rw [List.cons_append, hasAt_cons, hasAt_cons, ih, List.length_cons, Nat.add_assoc,
        Nat.add_comm 1, and_assoc]

theorem hasAt_append_of_front {text front back : Text} {i : Nat}
    (missing : text.hasAt front i = false) : text.hasAt (front ++ back) i = false := by
  rw [Bool.eq_false_iff] at missing ⊢
  exact fun found => missing ((hasAt_append text front back i).mp found).1

theorem take_of_hasAt {text word : Text} {i : Nat} (found : text.hasAt word i = true) :
    (text.drop i).take word.length = word :=
  (List.prefix_iff_eq_take.mp ((hasAt_iff text word i).mp found)).symm

theorem getElem?_of_hasAt {text word : Text} {i n : Nat} (found : text.hasAt word i = true)
    (inside : n < word.length) : text[i + n]? = word[n]? := by
  have same := take_of_hasAt found
  calc
    text[i + n]? = (text.drop i)[n]? := List.getElem?_drop.symm
    _ = ((text.drop i).take word.length)[n]? := (List.getElem?_take_of_lt inside).symm
    _ = word[n]? := by rw [same]

theorem length_le_of_hasAt {text word : Text} {i : Nat} (found : text.hasAt word i = true)
    (inhabited : word ≠ []) : i + word.length ≤ text.length := by
  have fits := ((hasAt_iff text word i).mp found).length_le
  have long : 0 < word.length := List.length_pos_iff.mpr inhabited
  rw [List.length_drop] at fits
  omega

theorem hasAt_eq_false_of_le {text word : Text} {i : Nat} (ended : text.length ≤ i)
    (inhabited : word ≠ []) : text.hasAt word i = false := by
  rw [Bool.eq_false_iff]
  intro found
  have long : 0 < word.length := List.length_pos_iff.mpr inhabited
  have inside := length_le_of_hasAt found inhabited
  omega

theorem hasAt_singleton (text : Text) (x : CodePoint) (i : Nat) :
    text.hasAt [x] i = true ↔ text[i]? = some x := by
  simp [hasAt_cons]

theorem hasAt_singleton_false (text : Text) (x : CodePoint) (i : Nat) :
    text.hasAt [x] i = false ↔ text[i]? ≠ some x := by
  rw [Bool.eq_false_iff, ne_eq, hasAt_singleton]

theorem hasAt_eq_false_of_not_infix {text word : Text} (free : ¬ word <:+: text) (i : Nat) :
    text.hasAt word i = false := by
  rw [Bool.eq_false_iff]
  intro found
  have front := (hasAt_iff text word i).mp found
  exact free (front.isInfix.trans (List.drop_suffix i text).isInfix)

theorem hasAt_before {text word : Text} {i : Nat} (inside : i + word.length ≤ text.length)
    (more : Text) : (text ++ more).hasAt word i = text.hasAt word i := by
  have low : i ≤ text.length := by omega
  have fits : word.length ≤ (text.drop i).length := by
    rw [List.length_drop]
    omega
  rw [Bool.eq_iff_iff, hasAt_iff, hasAt_iff, List.drop_append_of_le_length low,
    List.prefix_iff_eq_take, List.prefix_iff_eq_take, List.take_append_of_le_length fits]

theorem hasAt_behind (front text word : Text) (i : Nat) :
    (front ++ text).hasAt word (front.length + i) = text.hasAt word i := by
  rw [hasAt, hasAt, List.drop_length_add_append]

theorem hasAt_length (front word back : Text) :
    (front ++ (word ++ back)).hasAt word front.length = true := by
  rw [hasAt_iff, List.drop_left]
  exact List.prefix_append word back

def next? (text word : Text) (i : Nat) : Option Nat :=
  (List.range text.length).find? fun k => decide (i ≤ k) && text.hasAt word k

theorem next?_eq_some_iff {text word : Text} {i k : Nat} (inhabited : word ≠ []) :
    text.next? word i = some k ↔
      i ≤ k ∧ text.hasAt word k = true ∧ ∀ m, i ≤ m → m < k → text.hasAt word m = false := by
  have long : 0 < word.length := List.length_pos_iff.mpr inhabited
  rw [next?, List.find?_range_eq_some]
  simp only [Bool.and_eq_true, decide_eq_true_eq, List.mem_range, Bool.not_eq_true',
    Bool.and_eq_false_iff, decide_eq_false_iff_not]
  constructor
  · rintro ⟨⟨low, found⟩, _, before⟩
    refine ⟨low, found, fun m ahead below => ?_⟩
    exact (before m below).resolve_left (not_not_intro ahead)
  · rintro ⟨low, found, before⟩
    have inside := length_le_of_hasAt found inhabited
    refine ⟨⟨low, found⟩, by omega, fun m below => ?_⟩
    by_cases ahead : i ≤ m
    · exact .inr (before m ahead below)
    · exact .inl ahead

theorem next?_eq_none_iff {text word : Text} {i : Nat} (inhabited : word ≠ []) :
    text.next? word i = none ↔ ∀ m, i ≤ m → text.hasAt word m = false := by
  have long : 0 < word.length := List.length_pos_iff.mpr inhabited
  rw [next?, List.find?_eq_none]
  simp only [List.mem_range, Bool.and_eq_true, decide_eq_true_eq, not_and, Bool.not_eq_true]
  constructor
  · intro never m low
    by_cases inside : m < text.length
    · exact never m inside low
    · exact hasAt_eq_false_of_le (Nat.not_lt.mp inside) inhabited
  · exact fun never m _ low => never m low

theorem exists_next? {text word : Text} {i k : Nat} (inhabited : word ≠ []) (low : i ≤ k)
    (found : text.hasAt word k = true) : ∃ m, text.next? word i = some m := by
  cases next : text.next? word i with
  | some m => exact ⟨m, rfl⟩
  | none =>
      have missing := (next?_eq_none_iff inhabited).mp next k low
      exact absurd (found.symm.trans missing) nofun

theorem next?_before {text word : Text} {i k : Nat} (inhabited : word ≠ [])
    (next : text.next? word i = some k) (more : Text) :
    (text ++ more).next? word i = some k := by
  obtain ⟨low, found, before⟩ := (next?_eq_some_iff inhabited).mp next
  have inside := length_le_of_hasAt found inhabited
  refine (next?_eq_some_iff inhabited).mpr ⟨low, (hasAt_before inside more).trans found, ?_⟩
  intro m ahead below
  exact (hasAt_before (by omega) more).trans (before m ahead below)

theorem next?_behind {word : Text} (inhabited : word ≠ []) (front text : Text) (i : Nat) :
    (front ++ text).next? word (front.length + i) =
      (text.next? word i).map (front.length + ·) := by
  cases next : text.next? word i with
  | none =>
      have missing := (next?_eq_none_iff inhabited).mp next
      refine (next?_eq_none_iff inhabited).mpr fun m ahead => ?_
      obtain ⟨n, rfl⟩ := Nat.exists_eq_add_of_le (Nat.le_of_add_right_le ahead)
      rw [hasAt_behind]
      exact missing n (by omega)
  | some k =>
      obtain ⟨low, found, before⟩ := (next?_eq_some_iff inhabited).mp next
      rw [Option.map_some, next?_eq_some_iff inhabited]
      refine ⟨by omega, (hasAt_behind front text word k).trans found, fun m ahead below => ?_⟩
      obtain ⟨n, rfl⟩ := Nat.exists_eq_add_of_le (Nat.le_of_add_right_le ahead)
      rw [hasAt_behind]
      exact before n (by omega) (by omega)

end Descent.Text
