import Descent.Proofs.Comment.Banner
import Descent.Proofs.Comment.Concatenation
import Descent.Proofs.Comment.Delimited

/-! Texts with a carriage return before every newline, and the documentation comments in them. -/

namespace Descent

namespace Text

def crlf (t : Text) : Text :=
  t.flatMap fun c : CodePoint => if c = '\n' then ("\r\n" : Text) else [c]

def crlfPosition (t : Text) (i : Nat) : Nat := (crlf (t.take i)).length

variable {t front back word line : Text} {c : CodePoint}

theorem crlf_append (front back : Text) : crlf (front ++ back) = crlf front ++ crlf back :=
  List.flatMap_append

theorem crlf_newline (t : Text) :
    crlf (('\n' : CodePoint) :: t) = ('\r' : CodePoint) :: ('\n' : CodePoint) :: crlf t := rfl

theorem crlf_cons (other : c ≠ '\n') (t : Text) : crlf (c :: t) = c :: crlf t := by
  rw [crlf, List.flatMap_cons, if_neg other]
  rfl

theorem crlf_of_not_mem (unbroken : ('\n' : CodePoint) ∉ line) : crlf line = line := by
  induction line with
  | nil => rfl
  | cons c line ih =>
      rw [crlf_cons (Ne.symm (List.ne_of_not_mem_cons unbroken)),
        ih (List.not_mem_of_not_mem_cons unbroken)]

theorem crlf_append_cons (unbroken : ('\n' : CodePoint) ∉ line) (rest : Text) :
    crlf (line ++ ('\n' : CodePoint) :: rest) =
      (line ++ [('\r' : CodePoint)]) ++ ('\n' : CodePoint) :: crlf rest := by
  rw [crlf_append, crlf_of_not_mem unbroken, crlf_newline, List.append_assoc]
  rfl

theorem prefix_crlf_iff (plain : ∀ x ∈ word, x ≠ '\n' ∧ x ≠ '\r') (t : Text) :
    word <+: crlf t ↔ word <+: t := by
  induction word generalizing t with
  | nil => simp
  | cons x word ih =>
      obtain ⟨noNewline, noReturn⟩ := plain x List.mem_cons_self
      have rest := ih fun y member => plain y (List.mem_cons_of_mem x member)
      cases t with
      | nil => rfl
      | cons c t =>
          by_cases newline : c = '\n'
          · rw [newline, crlf_newline, List.cons_prefix_cons, List.cons_prefix_cons]
            simp [noNewline, noReturn]
          · rw [crlf_cons newline, List.cons_prefix_cons, List.cons_prefix_cons, rest]

theorem infix_crlf_iff (plain : ∀ x ∈ word, x ≠ '\n' ∧ x ≠ '\r') (inhabited : word ≠ [])
    (t : Text) : word <:+: crlf t ↔ word <:+: t := by
  induction t with
  | nil => rfl
  | cons c t ih =>
      by_cases newline : c = '\n'
      · obtain ⟨x, rest, rfl⟩ := List.exists_cons_of_ne_nil inhabited
        obtain ⟨noNewline, noReturn⟩ := plain x List.mem_cons_self
        rw [newline, crlf_newline, List.infix_cons_iff, List.infix_cons_iff, ih,
          List.infix_cons_iff, List.cons_prefix_cons, List.cons_prefix_cons, List.cons_prefix_cons]
        simp [noNewline, noReturn]
      · have front := prefix_crlf_iff plain (c :: t)
        rw [crlf_cons newline] at front ⊢
        rw [List.infix_cons_iff, List.infix_cons_iff, ih, front]

theorem hasAt_crlf (plain : ∀ x ∈ word, x ≠ '\n' ∧ x ≠ '\r') (t : Text) :
    (crlf t).hasAt word 0 = t.hasAt word 0 := by
  rw [Bool.eq_iff_iff, hasAt_iff, hasAt_iff, List.drop_zero, List.drop_zero]
  exact prefix_crlf_iff plain t

theorem head?_crlf {x : CodePoint} (plain : x ≠ '\n' ∧ x ≠ '\r') (t : Text) :
    (crlf t).head? = some x ↔ t.head? = some x := by
  have word : ∀ y ∈ [x], y ≠ '\n' ∧ y ≠ '\r' := by simpa using plain
  rw [List.head?_eq_getElem?, List.head?_eq_getElem?, ← hasAt_singleton, ← hasAt_singleton,
    hasAt_crlf word]

theorem crlfPosition_append (front back : Text) (i : Nat) :
    crlfPosition (front ++ back) (front.length + i) = (crlf front).length + crlfPosition back i := by
  rw [crlfPosition, List.take_length_add_append, crlf_append, List.length_append, crlfPosition]

theorem crlfPosition_length (front back : Text) :
    crlfPosition (front ++ back) front.length = (crlf front).length := by
  rw [crlfPosition, List.take_left]

theorem crlfPosition_of_hasAt {i : Nat} (found : t.hasAt word i = true)
    (unbroken : ('\n' : CodePoint) ∉ word) :
    crlfPosition t (i + word.length) = crlfPosition t i + word.length := by
  rw [crlfPosition, List.take_add, take_of_hasAt found, crlf_append, List.length_append,
    crlf_of_not_mem unbroken, crlfPosition]

theorem crlfPosition_cons (other : c ≠ '\n') (t : Text) (i : Nat) :
    crlfPosition (c :: t) (i + 1) = crlfPosition t i + 1 := by
  rw [crlfPosition, List.take_succ_cons, crlf_cons other, List.length_cons, crlfPosition]

theorem crlfPosition_newline (t : Text) (i : Nat) :
    crlfPosition (('\n' : CodePoint) :: t) (i + 1) = crlfPosition t i + 2 := by
  rw [crlfPosition, List.take_succ_cons, crlf_newline, List.length_cons, List.length_cons,
    crlfPosition]

end Text

namespace Comment

open Text

variable {text content line front back : Text} {c x y : CodePoint}

theorem closing?_crlf (quote : x ≠ '\n' ∧ x ≠ '\r') (escape : y ≠ '\n' ∧ y ≠ '\r')
    (other : y ≠ x) (text : Text) :
    closing? x y (crlf text) = (closing? x y text).map (crlfPosition text) := by
  induction text using closing_induction x y with
  | nil => rfl
  | closed text =>
      rw [crlf_cons quote.1, closing?_quote, closing?_quote, Option.map_some,
        crlfPosition_cons quote.1]
      rfl
  | escaped text ih =>
      rw [crlf_cons escape.1, crlf_cons quote.1, closing?_escaped other,
        closing?_escaped other, ih, Option.map_map, Option.map_map]
      exact Option.map_congr fun n _ => ((crlfPosition_cons escape.1 _ (n + 1)).trans
        (congrArg (· + 1) (crlfPosition_cons quote.1 text n))).symm
  | character c text noQuote noEscape ih =>
      by_cases newline : c = '\n'
      · subst newline
        have plain : ∀ rest : Text, closing? x y (('\n' : CodePoint) :: rest) =
            (closing? x y rest).map (· + 1) := fun rest =>
          closing?_cons noQuote fun same => absurd same.symm escape.1
        have carriage : closing? x y (('\r' : CodePoint) :: ('\n' : CodePoint) :: crlf text) =
            (closing? x y (('\n' : CodePoint) :: crlf text)).map (· + 1) :=
          closing?_cons quote.2.symm fun same => absurd same.symm escape.2
        rw [crlf_newline, carriage, plain, plain, ih, Option.map_map, Option.map_map,
          Option.map_map]
        exact Option.map_congr fun n _ => (crlfPosition_newline text n).symm
      · have head : c = y → (crlf text).head? ≠ some x := fun same there =>
          noEscape same ((head?_crlf quote text).mp there)
        rw [crlf_cons newline, closing?_cons noQuote head, closing?_cons noQuote noEscape, ih,
          Option.map_map, Option.map_map]
        exact Option.map_congr fun n _ => (crlfPosition_cons newline text n).symm

theorem stringEnd?_crlf (other : c ≠ '\n') (rest : Text) :
    stringEnd? (crlf (c :: rest)) 0 =
      (stringEnd? (c :: rest) 0).map (crlfPosition (c :: rest)) := by
  have moved : ∀ n, crlfPosition (c :: rest) (1 + n) = 1 + crlfPosition rest n := by
    intro n
    rw [Nat.add_comm 1, Nat.add_comm 1, crlfPosition_cons other]
  rw [crlf_cons other]
  by_cases single : c = '\x27'
  · subst single
    rw [stringEnd?_of_single, stringEnd?_of_single,
      closing?_crlf (by decide) (by decide) (by decide), Option.map_map, Option.map_map]
    exact Option.map_congr fun n _ => (moved n).symm
  · by_cases double : c = '\x22'
    · subst double
      rw [stringEnd?_of_double, stringEnd?_of_double,
        closing?_crlf (by decide) (by decide) (by decide), Option.map_map, Option.map_map]
      exact Option.map_congr fun n _ => (moved n).symm
    · have free : ∀ rest : Text, stringEnd? (c :: rest) 0 = none := by
        intro rest
        apply stringEnd?_of_not_quoteAt
        rintro (quote | quote)
        · exact single (Option.some.inj ((hasAt_singleton (c :: rest) '\x27' 0).mp quote))
        · exact double (Option.some.inj ((hasAt_singleton (c :: rest) '\x22' 0).mp quote))
      rw [free, free]
      rfl

theorem unbroken_return (unbroken : ('\n' : CodePoint) ∉ line) :
    ('\n' : CodePoint) ∉ line ++ [('\r' : CodePoint)] := by
  rw [List.mem_append, not_or]
  exact ⟨unbroken, by decide⟩

theorem lineEnd_crlf (opening rest : Text) (plain : ('\n' : CodePoint) ∉ opening) :
    lineEnd (crlf (opening ++ rest)) opening.length =
      crlfPosition (opening ++ rest) (lineEnd (opening ++ rest) opening.length) := by
  by_cases broken : ('\n' : CodePoint) ∈ rest
  · obtain ⟨line, more, rfl, unbroken⟩ := List.eq_append_cons_of_mem broken
    rw [crlf_append, crlf_of_not_mem plain, crlf_append_cons unbroken,
      lineEnd_of_broken (unbroken_return unbroken), lineEnd_of_broken unbroken,
      crlfPosition_append, crlfPosition_append, crlf_of_not_mem plain, crlf_of_not_mem unbroken,
      List.length_append]
    rfl
  · rw [crlf_append, crlf_of_not_mem plain, crlf_of_not_mem broken, lineEnd_of_unbroken broken,
      crlfPosition_append, crlf_of_not_mem plain, crlfPosition, List.take_length,
      crlf_of_not_mem broken]

theorem Unclosed.crlf (unclosed : Unclosed text) : Unclosed (crlf text) :=
  fun close => unclosed ((infix_crlf_iff (by decide) (by decide) text).mp close)

theorem Unclosed.crlf_content (unclosed : Unclosed (content ++ ("*" : Text))) :
    Unclosed (Text.crlf content ++ ("*" : Text)) := by
  have whole := unclosed.crlf
  rwa [crlf_append] at whole

theorem next?_crlf (opening rest : Text) (plain : ('\n' : CodePoint) ∉ opening) :
    (crlf (opening ++ rest)).next? "*/" opening.length =
      ((opening ++ rest).next? "*/" opening.length).map (crlfPosition (opening ++ rest)) := by
  rw [crlf_append, crlf_of_not_mem plain]
  rcases exists_content rest with ⟨content, more, rfl, unclosed⟩ | unclosed
  · rw [(contentAt_of_unclosed unclosed opening more).next?, crlf_append, crlf_append]
    have moved := (contentAt_of_unclosed unclosed.crlf_content opening (crlf more)).next?
    refine moved.trans (congrArg some ?_)
    rw [crlfPosition_append, crlfPosition_length, crlf_of_not_mem plain]
  · rw [next?_of_unclosed unclosed, next?_of_unclosed unclosed.crlf]
    rfl

theorem plainEnd?_crlf (start : text.hasAt "/*" 0 = true) :
    plainEnd? (crlf text) 0 = (plainEnd? text 0).map (crlfPosition text) := by
  obtain ⟨rest, whole⟩ := (hasAt_iff text "/*" 0).mp start
  have next : (crlf text).next? "*/" 2 = (text.next? "*/" 2).map (crlfPosition text) := by
    rw [List.drop_zero] at whole
    exact whole ▸ next?_crlf "/*" rest (by decide)
  rw [plainEnd?, plainEnd?, next, hasAt_crlf (by decide), hasAt_crlf (by decide)]
  cases found : text.next? "*/" 2 with
  | none => rfl
  | some k =>
      have close := ((next?_eq_some_iff (by decide)).mp found).2.1
      have moved : crlfPosition text (k + 2) = crlfPosition text k + 2 :=
        crlfPosition_of_hasAt close (by decide)
      rw [Option.map_some]
      cases kind : text.hasAt "/**/" 0 || !text.hasAt "/**" 0 with
      | false => rfl
      | true => exact congrArg some moved.symm

theorem dropSpace_crlf (content : Text) : dropSpace (crlf content) = crlf (dropSpace content) := by
  cases content with
  | nil => rfl
  | cons c content =>
      by_cases newline : c = '\n'
      · subst newline
        rfl
      · rw [crlf_cons newline, dropSpace, dropSpace]
        split
        · rfl
        · rw [crlf_cons newline]

/-- The carriage returns stay, as no banner reaches up to them. -/
theorem withoutBanners_crlf (content : Text) :
    withoutBanners (crlf content) = crlf (withoutBanners content) := by
  have kept : ∀ line : Text, ('\n' : CodePoint) ∉ line →
      crlf (withoutBanner line) = withoutBanner line := fun line unbroken =>
    crlf_of_not_mem fun newline => unbroken ((withoutBanner_suffix line).mem newline)
  induction content using Text.lines_induction '\n' with
  | last line unbroken =>
      rw [crlf_of_not_mem unbroken, withoutBanners_of_not_mem unbroken, kept line unbroken]
  | next line rest unbroken ih =>
      rw [crlf_append_cons unbroken, withoutBanners_append_cons (unbroken_return unbroken),
        withoutBanners_append_cons unbroken, ih, crlf_append, crlf_append, kept line unbroken,
        withoutBanner_append_cons line (by decide) (by decide), List.append_assoc,
        List.append_assoc, List.append_assoc]
      rfl

theorem lastLine_crlf (content : Text) : lastLine (crlf content) = lastLine content := by
  induction content using Text.lines_induction '\n' with
  | last line unbroken => rw [crlf_of_not_mem unbroken]
  | next line rest unbroken ih =>
      rw [crlf_append_cons unbroken, lastLine_append_cons (unbroken_return unbroken),
        lastLine_append_cons unbroken, ih]

theorem crlfPosition_comment (content more : Text) :
    crlfPosition (("/**" : Text) ++ (content ++ (("*/" : Text) ++ more)))
      (3 + content.length + 2) = 3 + (crlf content).length + 2 := by
  have ends := crlfPosition_length ("*/" : Text) more
  have inner := crlfPosition_append content (("*/" : Text) ++ more) 2
  have outer := crlfPosition_append ("/**" : Text) (content ++ (("*/" : Text) ++ more))
    (content.length + 2)
  calc
    _ = 3 + crlfPosition (content ++ (("*/" : Text) ++ more)) (content.length + 2) :=
      (congrArg _ (Nat.add_assoc _ _ _)).trans outer
    _ = 3 + ((crlf content).length + 2) := by
      rw [inner]
      exact congrArg _ (congrArg _ ends)
    _ = 3 + (crlf content).length + 2 := (Nat.add_assoc _ _ _).symm

theorem commentAt?_crlf (text : Text) :
    commentAt? (crlf text) 0 =
      (commentAt? text 0).map fun found => (crlf found.1, crlfPosition text found.2) := by
  cases start : text.hasAt "/**" 0 with
  | false =>
      rw [commentAt?, commentAt?, hasAt_crlf (by decide), start]
      rfl
  | true =>
      obtain ⟨rest, whole⟩ := (hasAt_iff text "/**" 0).mp start
      rw [List.drop_zero] at whole
      subst whole
      have opening : crlf ("/**" : Text) = ("/**" : Text) := rfl
      have close : crlf ("*/" : Text) = ("*/" : Text) := rfl
      rcases exists_content rest with ⟨content, more, rfl, unclosed⟩ | unclosed
      · obtain ⟨refused, read⟩ := commentAt?_of_content unclosed more
        obtain ⟨refused', read'⟩ := commentAt?_of_content unclosed.crlf_content (crlf more)
        rw [dropSpace_crlf, lastLine_crlf] at refused' read'
        rw [crlf_append, crlf_append, crlf_append, opening, close]
        by_cases banner : IsBanner (lastLine (dropSpace content))
        · rw [refused banner, refused' banner]
          rfl
        · rw [read banner, read' banner, withoutBanners_crlf, Option.map_some,
            crlfPosition_comment]
      · rw [commentAt?_of_unclosed unclosed, crlf_append, opening,
          commentAt?_of_unclosed unclosed.crlf]
        rfl

theorem step_crlf (other : c ≠ '\n') (rest : Text) :
    step (crlf (c :: rest)) 0 = (step (c :: rest) 0).map (crlfPosition (c :: rest)) crlf := by
  apply step_eq_map
  · simp [crlf_cons other]
  · exact stringEnd?_crlf other rest
  · exact hasAt_crlf (by decide) _
  · intro line
    obtain ⟨more, whole⟩ := (hasAt_iff (c :: rest) "//" 0).mp line
    rw [List.drop_zero] at whole
    exact whole ▸ lineEnd_crlf "//" more (by decide)
  · exact hasAt_crlf (by decide) _
  · exact plainEnd?_crlf
  · exact commentAt?_crlf _
  · exact (crlfPosition_cons other rest 0).symm

def Scan.crlf (text : Text) (s : Scan) : Scan :=
  { bodies := s.bodies.map Text.crlf, stuck? := s.stuck?.map (crlfPosition text) }

theorem Scan.crlf_behind (front back : Text) (s : Scan) :
    (s.behind front.length).crlf (front ++ back) = (s.crlf back).behind (Text.crlf front).length := by
  simp only [crlf, behind, Option.map_map, Function.comp_def, crlfPosition_append]

theorem scan_eq_behind {i : Nat} (inside : i ≤ text.length) :
    scan text i = (scan (text.drop i) 0).behind i := by
  have whole := scan_behind (text.take i) (text.drop i) 0
  rwa [List.take_append_drop, List.length_take, Nat.min_eq_left inside] at whole

theorem scan_crlf_from {i : Nat} (inside : i ≤ text.length)
    (rest : scan (crlf (text.drop i)) 0 = (scan (text.drop i) 0).crlf (text.drop i)) :
    scan (crlf text) (crlfPosition text i) = (scan text i).crlf text := by
  have size : (text.take i).length = i := List.length_take_of_le inside
  have whole : crlf text = crlf (text.take i) ++ crlf (text.drop i) := by
    rw [← crlf_append, List.take_append_drop]
  have behind := Scan.crlf_behind (text.take i) (text.drop i) (scan (text.drop i) 0)
  rw [List.take_append_drop, size] at behind
  calc
    scan (crlf text) (crlfPosition text i) =
        (scan (crlf (text.drop i)) 0).behind (crlf (text.take i)).length := by
      rw [whole]
      exact scan_behind (crlf (text.take i)) (crlf (text.drop i)) 0
    _ = ((scan (text.drop i) 0).behind i).crlf text := by rw [rest, behind]
    _ = (scan text i).crlf text := by rw [← scan_eq_behind inside]

/-- A newline is passed over in one step here and in two there. -/
theorem scan_crlf_newline (rest : Text)
    (later : scan (crlf (('\n' : CodePoint) :: rest)) 2 =
      (scan (('\n' : CodePoint) :: rest) 1).crlf (('\n' : CodePoint) :: rest)) :
    scan (crlf (('\n' : CodePoint) :: rest)) 0 =
      (scan (('\n' : CodePoint) :: rest) 0).crlf (('\n' : CodePoint) :: rest) := by
  have here : step (('\n' : CodePoint) :: rest) 0 = .skip 1 :=
    step_of_ordinary rfl (by decide)
  have first : step (crlf (('\n' : CodePoint) :: rest)) 0 = .skip 1 :=
    step_of_ordinary (x := '\r') rfl (by decide)
  have second : step (crlf (('\n' : CodePoint) :: rest)) 1 = .skip 2 :=
    step_of_ordinary (x := '\n') rfl (by decide)
  rw [scan_skip here, scan_skip first, scan_skip second]
  exact later

theorem scan_crlf_step
    (same : step (crlf text) 0 = (step text 0).map (crlfPosition text) crlf)
    (later : ∀ i, 0 < i → i ≤ text.length →
      scan (crlf text) (crlfPosition text i) = (scan text i).crlf text) :
    scan (crlf text) 0 = (scan text 0).crlf text := by
  cases here : step text 0 with
  | finished =>
      rw [here] at same
      rw [scan_finished here, scan_finished same]
      rfl
  | stuck =>
      rw [here] at same
      rw [scan_stuck here, scan_stuck same]
      rfl
  | skip stop =>
      rw [here] at same
      rw [scan_skip here, scan_skip same]
      exact later stop (lt_of_step_skip here).2 (stop_le_of_step_skip here)
  | emit body stop =>
      rw [here] at same
      rw [scan_emit here, scan_emit same,
        later stop (lt_of_step_emit here).2 (stop_le_of_step_emit here)]
      rfl

theorem scan_crlf (text : Text) : scan (crlf text) 0 = (scan text 0).crlf text := by
  -- What is behind a step is shorter, so the induction is on the length and not on the characters.
  induction size : text.length using Nat.strong_induction_on generalizing text with
  | _ n ih =>
      have later : ∀ i, 0 < i → i ≤ text.length →
          scan (crlf text) (crlfPosition text i) = (scan text i).crlf text := by
        intro i ahead inside
        refine scan_crlf_from inside (ih (text.drop i).length ?_ _ rfl)
        rw [List.length_drop]
        omega
      cases text with
      | nil =>
          rw [crlf, List.flatMap_nil, scan_finished rfl]
          rfl
      | cons c rest =>
          by_cases newline : c = '\n'
          · subst newline
            exact scan_crlf_newline rest (later 1 Nat.one_pos (Nat.le_add_left 1 rest.length))
          · exact scan_crlf_step (step_crlf newline rest) later

/-- A text is accepted with carriage returns before its newlines if it is accepted without them.
The bodies then have them too, and so has what is before the position of a failure. -/
theorem document_run_crlf (text name title : Text) :
    ∃ r s, document.run text name = .done r ∧ document.run (crlf text) title = .done s ∧
      ((∃ bodies : List Text, r.succeeded = true ∧ s.succeeded = true ∧
        r.value = .just (.list (bodies.map .text)) ∧
        s.value = .just (.list ((bodies.map crlf).map .text))) ∨
      r.succeeded = false ∧ s.succeeded = false ∧
        s.stop = (crlf (text.take r.stop)).length) := by
  have first := (document_yields text name).outcome_eq
  have second := (document_yields (crlf text) title).outcome_eq
  rw [Scan.answer] at first
  rw [scan_crlf, Scan.answer, Scan.crlf] at second
  cases ends : (scan text 0).stuck? with
  | none =>
      rw [ends] at first second
      exact ⟨_, _, first, second, .inl ⟨(scan text 0).bodies, rfl, rfl, rfl, rfl⟩⟩
  | some e =>
      rw [ends] at first second
      exact ⟨_, _, first, second, .inr ⟨rfl, rfl, rfl⟩⟩

end Comment

end Descent
