import Descent.Proofs.Occurrence
import Descent.Text.Charset
import Descent.Text.LowerCase
import Mathlib.Computability.Language
import Mathlib.Data.List.TakeWhile

/-! Languages of texts, and the longest of their texts at a position. -/

namespace Descent

open scoped Computability

def Charset.language (set : Text) : Language CodePoint := {t | ∃ c ∈ set, t = [c]}

def Charset.others (set : Text) : Language CodePoint := {t | ∃ c, c ∉ set ∧ t = [c]}

def Charset.words (set : Text) : Language CodePoint := language set * (language set)∗

theorem Charset.mem_words {set t : Text} :
    t ∈ Charset.words set ↔ t ≠ [] ∧ ∀ c ∈ t, c ∈ set := by
  have star : ∀ t : Text, t ∈ (Charset.language set)∗ ↔ ∀ c ∈ t, c ∈ set := by
    intro t
    rw [Language.mem_kstar]
    constructor
    · rintro ⟨words, rfl, each⟩ c member
      obtain ⟨word, inside, here⟩ := List.mem_flatten.mp member
      obtain ⟨d, known, rfl⟩ := each word inside
      exact List.mem_singleton.mp here ▸ known
    · intro each
      refine ⟨t.map fun c => [c], (List.flatMap_singleton' t).symm, fun word member => ?_⟩
      obtain ⟨c, inside, rfl⟩ := List.mem_map.mp member
      exact ⟨c, each c inside, rfl⟩
  rw [words, Language.mem_mul]
  constructor
  · rintro ⟨_, ⟨c, known, rfl⟩, rest, more, rfl⟩
    exact ⟨List.cons_ne_nil c rest, List.forall_mem_cons.mpr ⟨known, (star rest).mp more⟩⟩
  · rintro ⟨inhabited, each⟩
    obtain ⟨c, rest, rfl⟩ := List.exists_cons_of_ne_nil inhabited
    obtain ⟨known, more⟩ := List.forall_mem_cons.mp each
    exact ⟨[c], ⟨c, known, rfl⟩, rest, (star rest).mpr more, rfl⟩

def Text.alike (w : Text) : Language CodePoint :=
  {t | t.length = w.length ∧ Text.lower t = Text.lower w}

variable {L M : Language CodePoint} {text : Text} {i : Nat} {s t : Text}

/-- A text of `L` that is followed by some text of `M` is not continued by more of `L`. -/
def Separates (L M : Language CodePoint) : Prop :=
  ∀ (text : Text) (i : Nat), ∀ s ∈ L, ∀ u ∈ M, u ≠ [] → text.hasAt (s ++ u) i = true →
    ∀ t ∈ L, text.hasAt t i = true → t.length ≤ s.length

/-- Where texts of both languages stand, the one of `L` is not the shorter one. -/
def Covers (L M : Language CodePoint) : Prop :=
  ∀ (text : Text) (i : Nat), ∀ s ∈ L, ∀ t ∈ M, text.hasAt s i = true → text.hasAt t i = true →
    t.length ≤ s.length

namespace Text

theorem eq_of_hasAt (first : text.hasAt s i = true) (second : text.hasAt t i = true)
    (size : s.length = t.length) : s = t := by
  rw [← take_of_hasAt first, ← take_of_hasAt second, size]

structure LongestAt (text : Text) (L : Language CodePoint) (i : Nat) (t : Text) : Prop where
  member : t ∈ L
  here : text.hasAt t i = true
  longest : ∀ s ∈ L, text.hasAt s i = true → s.length ≤ t.length

namespace LongestAt

theorem empty (text : Text) (i : Nat) : text.LongestAt 1 i [] := by
  refine ⟨rfl, hasAt_nil text i, ?_⟩
  rintro _ rfl _
  exact Nat.le_refl _

theorem unique (first : text.LongestAt L i s) (second : text.LongestAt L i t) : s = t :=
  eq_of_hasAt first.here second.here
    (Nat.le_antisymm (second.longest s first.member first.here)
      (first.longest t second.member second.here))

theorem eq_of_separates (first : text.LongestAt L i s) (apart : Separates L M) {s' u : Text}
    (known : s' ∈ L) (later : u ∈ M) (inhabited : u ≠ []) (found : text.hasAt (s' ++ u) i = true) :
    s' = s := by
  have here := ((hasAt_append text s' u i).mp found).1
  have upper := first.longest s' known here
  have lower := apart text i s' known u later inhabited found s first.member first.here
  exact eq_of_hasAt here first.here (Nat.le_antisymm upper lower)

theorem append (first : text.LongestAt L i s) (rest : text.LongestAt M (i + s.length) t)
    (apart : Separates L M) : text.LongestAt (L * M) i (s ++ t) := by
  refine ⟨Language.append_mem_mul first.member rest.member,
    (hasAt_append text s t i).mpr ⟨first.here, rest.here⟩, ?_⟩
  intro w member found
  rcases Language.mem_mul.mp member with ⟨s', known, u, later, rfl⟩
  rw [List.length_append, List.length_append]
  by_cases inhabited : u = []
  · subst inhabited
    rw [List.append_nil] at found
    have bound := first.longest s' known found
    rw [List.length_nil]
    omega
  · -- A second part that is not empty fixes where the first one ends.
    have same := first.eq_of_separates apart known later inhabited found
    subst same
    have bound := rest.longest u later ((hasAt_append text s' u i).mp found).2
    omega

theorem none_of_append (first : text.LongestAt L i s)
    (none : ∀ u ∈ M, text.hasAt u (i + s.length) = false) (apart : Separates L M) :
    ∀ w ∈ L * M, text.hasAt w i = false := by
  intro w member
  rcases Language.mem_mul.mp member with ⟨s', known, u, later, rfl⟩
  have inhabited : u ≠ [] := by
    intro empty
    subst empty
    exact absurd (none [] later) (by simp)
  rw [Bool.eq_false_iff]
  intro found
  have same := first.eq_of_separates apart known later inhabited found
  subst same
  have missing := none u later
  rw [((hasAt_append text s' u i).mp found).2] at missing
  exact absurd missing nofun

theorem add_left (first : text.LongestAt L i s) (covers : Covers L M) :
    text.LongestAt (L + M) i s := by
  refine ⟨Language.mem_add L M s |>.mpr (.inl first.member), first.here, ?_⟩
  intro w member found
  rcases (Language.mem_add L M w).mp member with left | right
  · exact first.longest w left found
  · exact covers text i s first.member w right first.here found

theorem add_right (second : text.LongestAt M i t) (none : ∀ s ∈ L, text.hasAt s i = false) :
    text.LongestAt (L + M) i t := by
  refine ⟨(Language.mem_add L M t).mpr (.inr second.member), second.here, ?_⟩
  intro w member found
  rcases (Language.mem_add L M w).mp member with left | right
  · rw [none w left] at found
    exact absurd found nofun
  · exact second.longest w right found

end LongestAt

def run (text set : Text) (i : Nat) : Text := (text.drop i).takeWhile (· ∈ set)

variable (text set : Text) (i : Nat)

theorem hasAt_run : text.hasAt (text.run set i) i = true :=
  (hasAt_iff text _ i).mpr (List.takeWhile_prefix _)

theorem mem_of_mem_run : ∀ c ∈ text.run set i, c ∈ set := by
  intro c member
  have known := List.mem_takeWhile_imp member
  exact of_decide_eq_true known

theorem length_le_run : ∀ t : Text, (∀ c ∈ t, c ∈ set) → text.hasAt t i = true →
    t.length ≤ (text.run set i).length := by
  intro t each found
  rcases (hasAt_iff text t i).mp found with ⟨rest, whole⟩
  rw [run, ← whole, List.takeWhile_append_of_pos fun c member => decide_eq_true (each c member),
    List.length_append]
  exact Nat.le_add_right _ _

theorem not_mem_of_run : ∀ c, text[i + (text.run set i).length]? = some c → c ∉ set := by
  intro c next known
  have more : text.hasAt (text.run set i ++ [c]) i = true :=
    (hasAt_append text _ [c] i).mpr ⟨hasAt_run text set i, (hasAt_singleton text c _).mpr next⟩
  have each : ∀ d ∈ text.run set i ++ [c], d ∈ set := by
    intro d member
    rcases List.mem_append.mp member with inside | last
    · exact mem_of_mem_run text set i d inside
    · exact List.mem_singleton.mp last ▸ known
  have bound := length_le_run text set i _ each more
  rw [List.length_append, List.length_singleton] at bound
  exact Nat.not_succ_le_self _ bound

end Text

def WrittenIn (set : Text) (L : Language CodePoint) : Prop := ∀ t ∈ L, ∀ c ∈ t, c ∈ set

def BeginsIn (set : Text) (L : Language CodePoint) : Prop := ∀ t ∈ L, ∀ c ∈ t.head?, c ∈ set

namespace WrittenIn

variable {set other : Text}

theorem one : WrittenIn set 1 := by
  intro t member c inside
  rw [Language.mem_one t |>.mp member] at inside
  exact absurd inside List.not_mem_nil

theorem add (first : WrittenIn set L) (second : WrittenIn set M) : WrittenIn set (L + M) := by
  intro t member
  exact member.elim (first t) (second t)

theorem mul (first : WrittenIn set L) (second : WrittenIn set M) : WrittenIn set (L * M) := by
  intro t member c inside
  rcases Language.mem_mul.mp member with ⟨front, left, back, right, rfl⟩
  exact (List.mem_append.mp inside).elim (first front left c) (second back right c)

theorem words (known : ∀ c ∈ other, c ∈ set) : WrittenIn set (Charset.words other) :=
  fun _ member c inside => known c ((Charset.mem_words.mp member).2 c inside)

theorem language (known : ∀ c ∈ other, c ∈ set) : WrittenIn set (Charset.language other) := by
  rintro t ⟨d, member, rfl⟩ c inside
  rw [List.mem_singleton.mp inside]
  exact known d member

theorem singleton {w : Text} (known : ∀ c ∈ w, c ∈ set) : WrittenIn set {w} := by
  rintro t rfl
  exact known

theorem beginsIn (written : WrittenIn set L) : BeginsIn set L :=
  fun t member c first => written t member c (List.mem_of_mem_head? first)

end WrittenIn

namespace BeginsIn

variable {set other : Text}

theorem one : BeginsIn set 1 := WrittenIn.one.beginsIn

theorem add (first : BeginsIn set L) (second : BeginsIn set M) : BeginsIn set (L + M) := by
  intro t member
  exact member.elim (first t) (second t)

/-- The second factor counts only if the first one may be empty. -/
theorem mul (first : BeginsIn set L) (second : [] ∈ L → BeginsIn set M) :
    BeginsIn set (L * M) := by
  intro t member c here
  rcases Language.mem_mul.mp member with ⟨front, left, back, right, rfl⟩
  cases front with
  | nil => exact second left back right c here
  | cons d front => exact first _ left c here

theorem separates (begins : BeginsIn other M) (written : WrittenIn set L)
    (apart : ∀ c ∈ other, c ∉ set) : Separates L M := by
  intro text i s _ u later inhabited found t known here
  by_contra longer
  have inside : s.length < t.length := Nat.lt_of_not_le longer
  obtain ⟨c, rest, rfl⟩ := List.exists_cons_of_ne_nil inhabited
  have follows := ((Text.hasAt_append text s (c :: rest) i).mp found).2
  have next : text[i + s.length]? = some c := ((Text.hasAt_cons text rest c _).mp follows).1
  rw [Text.getElem?_of_hasAt here inside] at next
  exact apart c (begins _ later c rfl) (written t known c (List.mem_of_getElem? next))

theorem covers (first : BeginsIn set L) (second : BeginsIn other M)
    (different : ∀ c ∈ other, c ∉ set) (inhabited : [] ∉ L) : Covers L M := by
  intro text i s left t right here there
  cases t with
  | nil => exact Nat.zero_le _
  | cons d t =>
      cases s with
      | nil => exact absurd left inhabited
      | cons c s =>
          have begins := ((Text.hasAt_cons text s c i).mp here).1
          rw [((Text.hasAt_cons text t d i).mp there).1] at begins
          have same : d = c := Option.some.inj begins
          exact absurd (same ▸ first _ left c rfl) (different d (second _ right d rfl))

end BeginsIn

theorem nil_not_mem_words (set : Text) : [] ∉ Charset.words set :=
  fun member => (Charset.mem_words.mp member).1 rfl

theorem nil_not_mem_mul (inhabited : [] ∉ L) (M : Language CodePoint) : [] ∉ L * M := by
  intro member
  rcases Language.mem_mul.mp member with ⟨s, left, t, _, whole⟩
  obtain ⟨rfl, _⟩ := List.append_eq_nil_iff.mp whole
  exact inhabited left

theorem Separates.eq_front {N : Language CodePoint} (left : Separates L M) (right : Separates L N)
    {u v : Text} (first : s ∈ L) (later : u ∈ M) (inhabited : u ≠ [])
    (here : text.hasAt (s ++ u) i = true) (second : t ∈ L) (later' : v ∈ N) (inhabited' : v ≠ [])
    (there : text.hasAt (t ++ v) i = true) : s = t := by
  have front := ((Text.hasAt_append text s u i).mp here).1
  have front' := ((Text.hasAt_append text t v i).mp there).1
  have upper := right text i t second v later' inhabited' there s first front
  have lower := left text i s first u later inhabited here t second front'
  exact Text.eq_of_hasAt front front' (Nat.le_antisymm upper lower)

theorem separates_of_length {n : Nat} (size : ∀ t ∈ L, t.length = n) (M : Language CodePoint) :
    Separates L M := by
  intro text i s member u _ _ _ t known _
  exact Nat.le_of_eq ((size t known).trans (size s member).symm)

theorem separates_singleton (w : Text) (M : Language CodePoint) : Separates {w} M := by
  refine separates_of_length (n := w.length) ?_ M
  rintro _ rfl
  rfl

theorem separates_language (set : Text) (M : Language CodePoint) :
    Separates (Charset.language set) M := by
  refine separates_of_length (n := 1) ?_ M
  rintro _ ⟨c, _, rfl⟩
  rfl

theorem covers_of_length {n : Nat} (low : ∀ s ∈ L, n ≤ s.length) (high : ∀ t ∈ M, t.length ≤ n) :
    Covers L M :=
  fun _ _ s left t right _ _ => Nat.le_trans (high t right) (low s left)

namespace Covers

variable {N : Language CodePoint}

theorem one (L : Language CodePoint) : Covers L 1 := by
  rintro _ _ _ _ _ rfl _ _
  exact Nat.zero_le _

theorem add_left (first : Covers L N) (second : Covers M N) : Covers (L + M) N := by
  intro text i s member
  exact member.elim (first text i s) (second text i s)

theorem add_right (first : Covers L M) (second : Covers L N) : Covers L (M + N) := by
  intro text i s known t member
  exact member.elim (first text i s known t) (second text i s known t)

theorem mul (rest : Covers M N) (left : Separates L M) (right : Separates L N)
    (inhabited : [] ∉ M) (inhabited' : [] ∉ N) : Covers (L * M) (L * N) := by
  intro text i _ first _ second here there
  rcases Language.mem_mul.mp first with ⟨s, front, u, later, rfl⟩
  rcases Language.mem_mul.mp second with ⟨t, front', v, later', rfl⟩
  have same : s = t := left.eq_front right front later (fun empty => inhabited (empty ▸ later)) here
    front' later' (fun empty => inhabited' (empty ▸ later')) there
  subst same
  have bound := rest text (i + s.length) u later v later' ((Text.hasAt_append text s u i).mp here).2
    ((Text.hasAt_append text s v i).mp there).2
  rw [List.length_append, List.length_append]
  omega

end Covers

theorem separates_one (L : Language CodePoint) : Separates L 1 :=
  fun _ _ _ _ _ member inhabited => absurd member inhabited

end Descent
