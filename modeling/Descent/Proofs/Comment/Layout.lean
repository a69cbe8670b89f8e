import Descent.Proofs.Comment.Concatenation
import Descent.Proofs.Comment.Delimited
import Descent.Proofs.Comment.Extraction

/-! Comments in their usual layout, a star before each line, and what is read from them. -/

namespace Descent

namespace Comment

/-- What may stand in one line of a comment. -/
structure Line where
  text : Text
  unbroken : ('\n' : CodePoint) ∉ text
  unclosed : ¬ ("*/" : Text) <:+: text

/-- Code without comments and strings. -/
structure Code where
  text : Text
  ordinary : ∀ c ∈ text, Ordinary c

/-- The lines of a comment and the code behind it. -/
structure Passage where
  lines : List Line
  code : Code

namespace Passage

def starred (lines : List Line) : Text :=
  (lines.map fun line => (" * " : Text) ++ line.text ++ ("\n" : Text)).flatten

def comment (p : Passage) : Text := ("/**\n" : Text) ++ starred p.lines ++ (" */" : Text)

def content (p : Passage) : Text := ("\n" : Text) ++ (starred p.lines ++ (" " : Text))

def body (p : Passage) : Text :=
  ("\n" : Text) ++ (p.lines.map fun line => line.text ++ ("\n" : Text)).flatten ++ (" " : Text)

def text (p : Passage) : Text := p.comment ++ p.code.text

end Passage

def layOut (opening : Code) (passages : List Passage) : Text :=
  opening.text ++ (passages.map Passage.text).flatten

variable {text front back : Text}

theorem infix_append_pair {x y : CodePoint} (here : [x, y] <:+: front ++ back) :
    [x, y] <:+: front ∨ [x, y] <:+: back ∨ front.getLast? = some x ∧ back.head? = some y := by
  obtain ⟨before, behind, whole⟩ := here
  rw [List.append_assoc] at whole
  rcases List.append_eq_append_iff.mp whole with ⟨middle, rfl, rest⟩ | ⟨middle, rfl, rfl⟩
  · match middle, rest with
    | [], rest => exact .inr (.inl ⟨[], behind, rest⟩)
    | [c], rest =>
        obtain ⟨rfl, rfl⟩ := List.cons.inj rest
        exact .inr (.inr ⟨List.getLast?_concat, rfl⟩)
    | c :: d :: middle, rest =>
        obtain ⟨rfl, tail⟩ := List.cons.inj rest
        obtain ⟨rfl, _⟩ := List.cons.inj tail
        exact .inl ⟨before, middle, List.append_assoc _ _ _⟩
  · exact .inr (.inl ⟨middle, behind, List.append_assoc _ _ _⟩)

theorem Unclosed.append (first : Unclosed front) (second : Unclosed back)
    (seam : front.getLast? ≠ some ('*' : CodePoint) ∨ back.head? ≠ some ('/' : CodePoint)) :
    Unclosed (front ++ back) := by
  intro close
  rcases infix_append_pair close with before | behind | ⟨star, slash⟩
  · exact first before
  · exact second behind
  · rcases seam with noStar | noSlash
    · exact noStar star
    · exact noSlash slash

theorem unclosed_starred (lines : List Line) :
    Unclosed (Passage.starred lines ++ (" " : Text)) := by
  induction lines with
  | nil => decide
  | cons line lines ih =>
      have star : Unclosed " * " := by decide
      have marked : Unclosed ((" * " : Text) ++ line.text) :=
        star.append line.unclosed (.inl (by decide))
      have newline : Unclosed "\n" := by decide
      have ended : Unclosed ((" * " : Text) ++ line.text ++ ("\n" : Text)) :=
        marked.append newline (.inr (by decide))
      rw [Passage.starred, List.map_cons, List.flatten_cons, List.append_assoc]
      refine ended.append ih (.inl ?_)
      rw [List.getLast?_append_of_ne_nil _ (by decide)]
      decide

namespace Passage

theorem comment_eq (p : Passage) :
    p.comment = ("/**" : Text) ++ (p.content ++ ("*/" : Text)) := by
  have opening : ("/**\n" : Text) = ("/**" : Text) ++ ("\n" : Text) := rfl
  have close : (" */" : Text) = (" " : Text) ++ ("*/" : Text) := rfl
  simp only [comment, content, opening, close, List.append_assoc]

theorem length_comment (p : Passage) : p.comment.length = 3 + p.content.length + 2 := by
  have opening : ("/**" : Text).length = 3 := rfl
  have close : ("*/" : Text).length = 2 := rfl
  rw [comment_eq, List.length_append, List.length_append, opening, close]
  omega

theorem unclosed_content (p : Passage) : Unclosed (p.content ++ ("*" : Text)) := by
  have newline : Unclosed "\n" := by decide
  have star : Unclosed "*" := by decide
  have content : Unclosed p.content :=
    newline.append (unclosed_starred p.lines) (.inl (by decide))
  refine content.append star (.inl ?_)
  rw [Passage.content, ← List.append_assoc, List.getLast?_append_of_ne_nil _ (by decide)]
  decide

/-- The stars and the space behind each are the banners of the lines. -/
theorem withoutBanners_starred (lines : List Line) :
    withoutBanners (starred lines ++ (" " : Text)) =
      (lines.map fun line => line.text ++ ("\n" : Text)).flatten ++ (" " : Text) ∧
    lastLine (starred lines ++ (" " : Text)) = (" " : Text) := by
  induction lines with
  | nil => exact ⟨rfl, rfl⟩
  | cons line lines ih =>
      have whole : starred (line :: lines) ++ (" " : Text) =
          ((" * " : Text) ++ line.text) ++
            ('\n' : CodePoint) :: (starred lines ++ (" " : Text)) := by
        simp [starred, Text.ofString]
      have unbroken : ('\n' : CodePoint) ∉ (" * " : Text) ++ line.text := by
        rw [List.mem_append, not_or]
        exact ⟨by decide, line.unbroken⟩
      have bare : withoutBanner ((" * " : Text) ++ line.text) = line.text := rfl
      rw [whole, withoutBanners_append_cons unbroken, lastLine_append_cons unbroken, bare, ih.1]
      refine ⟨?_, ih.2⟩
      rw [List.map_cons, List.flatten_cons, List.append_assoc, List.append_assoc, List.append_assoc]

theorem withoutBanners_content (p : Passage) :
    withoutBanners (dropSpace p.content) = p.body ∧ ¬ IsBanner (lastLine (dropSpace p.content)) := by
  obtain ⟨lines, last⟩ := withoutBanners_starred p.lines
  have first : dropSpace p.content = [] ++ ('\n' : CodePoint) :: (starred p.lines ++ (" " : Text)) :=
    rfl
  rw [first, withoutBanners_append_cons List.not_mem_nil, lastLine_append_cons List.not_mem_nil,
    lines, last, isBanner_iff]
  refine ⟨?_, fun banner => absurd banner.2 (by decide)⟩
  rw [body, List.append_assoc]
  rfl

theorem step_comment (p : Passage) (rest : Text) :
    step (p.comment ++ rest) 0 = .emit p.body p.comment.length := by
  have whole : p.comment ++ rest =
      ("/**" : Text) ++ (p.content ++ (("*/" : Text) ++ rest)) := by
    simp only [comment_eq, List.append_assoc]
  obtain ⟨text, last⟩ := p.withoutBanners_content
  have found := (commentAt?_of_content p.unclosed_content rest).2 last
  rw [text, ← whole, ← length_comment] at found
  have notPlain : plainEnd? (p.comment ++ rest) 0 = none := plainEnd?_eq_none rfl rfl
  have noString : stringEnd? (p.comment ++ rest) 0 = none := rfl
  have noLine : (p.comment ++ rest).hasAt "//" 0 = false := rfl
  have block : (p.comment ++ rest).hasAt "/*" 0 = true := rfl
  have inside : 0 < (p.comment ++ rest).length := by
    rw [List.length_append, length_comment]
    omega
  rw [step_of_no_string inside noString]
  simp [noLine, block, notPlain, found]

theorem scan_comment (p : Passage) (rest : Text) :
    scan (p.comment ++ rest) 0 =
      { bodies := p.body :: (scan rest 0).bodies
        stuck? := (scan rest 0).stuck?.map (p.comment.length + ·) } := by
  have behind : scan (p.comment ++ rest) p.comment.length =
      (scan rest 0).behind p.comment.length := scan_behind p.comment rest 0
  rw [scan_emit (p.step_comment rest), behind]
  rfl

end Passage

theorem Scan.behind_behind (s : Scan) (j k : Nat) : (s.behind j).behind k = s.behind (k + j) := by
  simp only [behind, Option.map_map, Function.comp_def, Nat.add_assoc]

theorem Code.scan_append (code : Code) (rest : Text) :
    scan (code.text ++ rest) 0 = (scan rest 0).behind code.text.length := by
  obtain ⟨text, ordinary⟩ := code
  induction text with
  | nil => simp [Scan.behind]
  | cons c text ih =>
      have first : step (c :: text ++ rest) 0 = .skip 1 :=
        step_of_ordinary rfl (ordinary c List.mem_cons_self)
      have later := ih fun d member => ordinary d (List.mem_cons_of_mem c member)
      have behind : scan (c :: text ++ rest) 1 = (scan (text ++ rest) 0).behind 1 :=
        scan_behind [c] (text ++ rest) 0
      rw [scan_skip first, behind, later, Scan.behind_behind, Nat.add_comm]
      rfl

/-- Everything is read, and the bodies are those of the passages in their order. -/
theorem scan_passages (passages : List Passage) :
    scan (passages.map Passage.text).flatten 0 =
      { bodies := passages.map Passage.body, stuck? := none } := by
  induction passages with
  | nil => exact scan_finished rfl
  | cons p passages ih =>
      rw [List.map_cons, List.flatten_cons, Passage.text, List.append_assoc, p.scan_comment,
        p.code.scan_append, ih]
      rfl

theorem scan_layOut (opening : Code) (passages : List Passage) :
    scan (layOut opening passages) 0 =
      { bodies := passages.map Passage.body, stuck? := none } := by
  rw [layOut, opening.scan_append, scan_passages]
  rfl

/-- From comments in their usual layout, with code between them, the lines are read as they were
written, comment by comment, and joined by blank lines. -/
theorem document_run_layOut (opening : Code) (passages : List Passage) (name : Text) :
    ∃ r, document.run (layOut opening passages) name = .done r ∧ r.succeeded = true ∧
      r.stop = (layOut opening passages).length ∧
      r.value = .just (.list (passages.map fun p => .text p.body)) ∧
      extract (layOut opening passages) name = .done
        { outcome := .ok (Text.join "\n\n" (passages.map Passage.body))
          log := [r.record, foundRecord passages.length] } := by
  have run := (document_yields (layOut opening passages) name).outcome_eq
  rw [Scan.answer, scan_layOut, List.map_map] at run
  refine ⟨_, run, rfl, rfl, rfl, ?_⟩
  rw [extract_of_run run, Scan.extraction, scan_layOut, List.length_map]

end Comment

end Descent
