import Descent.Command.Directory
import Descent.Proofs.Command.Place
import Descent.Proofs.Comment.Characters
import Descent.Proofs.Encoding

/-! The command delivers the whole text of the comments or leaves everything as it was. -/

namespace Descent.Command

variable {tools : Toolkit} {request : Request} {bytes : ByteArray} {input name text : Text}
  {extraction : Comment.Extraction}

theorem extract_eq_ok (extracted : Comment.extract input name = .done extraction) :
    extract input name =
      .ok { extraction with log := readRecord input name :: extraction.log } := by
  unfold extract
  split
  · rename_i other same
    cases extracted.symm.trans same
    rfl
  · rename_i fault same
    exact absurd (extracted.symm.trans same) nofun
  · rename_i same
    exact absurd (extracted.symm.trans same) nofun

theorem encodable_of_accepted (decoded : decode bytes = .ok input)
    (extracted : Comment.extract input name = .done extraction)
    (accepted : extraction.outcome = .ok text) : text.Encodable := by
  rw [Text.encodable_iff]
  intro c member
  rcases Comment.mem_of_mem_extraction extracted accepted member with inside | rfl
  · exact (Text.encodable_iff input).mp (encodable_of_decode decoded) c inside
  · exact ⟨'\n', rfl⟩

namespace Request

theorem answer_of_rejected {diagnostic : Diagnostic} (decoded : decode bytes = .ok input)
    (extracted : Comment.extract input request.sourceName = .done extraction)
    (refused : extraction.outcome = .error diagnostic) :
    ∃ log, request.answer tools bytes = .ok { response := rejected tools diagnostic log } := by
  refine ⟨request.logged (readRecord input request.sourceName :: extraction.log), ?_⟩
  simp only [answer, decoded, extract_eq_ok extracted, refused, bind, Except.bind]
  rfl

theorem answer_of_printed (decoded : decode bytes = .ok input)
    (extracted : Comment.extract input request.sourceName = .done extraction)
    (accepted : extraction.outcome = .ok text) (printed : request.output = none) :
    ∃ log, request.answer tools bytes =
      .ok { response := { exitCode := 0, stdout := tools.stdout text, stderr := [], log } } := by
  refine ⟨request.logged (readRecord input request.sourceName :: extraction.log), ?_⟩
  simp only [answer, decoded, extract_eq_ok extracted, accepted, printed, bind, Except.bind]
  rfl

theorem answer_of_written {path : Text} (decoded : decode bytes = .ok input)
    (extracted : Comment.extract input request.sourceName = .done extraction)
    (accepted : extraction.outcome = .ok text) (written : request.output = some path) :
    ∃ log, request.answer tools bytes =
      .ok { response := { exitCode := 0, stdout := [], stderr := [], log }
            output := some (Text.Path.tidy path, text) } := by
  refine ⟨request.logged (readRecord input request.sourceName :: extraction.log ++
    [writtenRecord text (Text.Path.tidy path)]), ?_⟩
  simp only [answer, decoded, extract_eq_ok extracted, accepted, written, bind, Except.bind]
  rfl

end Request

namespace FileSystem

theorem lookup_replace (files : List (Location × ByteArray)) (file other : Location)
    (contents : ByteArray) :
    (files.map fun entry => if entry.1 = file then (file, contents) else entry).lookup other =
      if other = file then (files.lookup file).map fun _ => contents else files.lookup other := by
  induction files with
  | nil => simp
  | cons entry files ih =>
      obtain ⟨name, held⟩ := entry
      rw [List.map_cons]
      by_cases here : name = file
      · subst here
        rw [if_pos rfl, List.lookup_cons, ih]
        by_cases same : other = name
        · simp [same]
        · have apart : (other == name) = false := beq_eq_false_iff_ne.mpr same
          simp [same, List.lookup_cons, apart]
      · rw [if_neg here, List.lookup_cons, ih]
        by_cases same : other = file
        · have apart : (file == name) = false := beq_eq_false_iff_ne.mpr (Ne.symm here)
          simp [same, List.lookup_cons, apart]
        · simp [same, List.lookup_cons]

/-- A file that is written holds what was written, and no other file changes. -/
theorem contents?_write (fs : FileSystem) (file other : Location) (contents : ByteArray) :
    (fs.write file contents).contents? other =
      if other = file then some contents else fs.contents? other := by
  rw [contents?, write]
  split
  · rename_i there
    obtain ⟨held, found⟩ : ∃ held, fs.files.lookup file = some held :=
      Option.isSome_iff_exists.mp there
    rw [lookup_replace, found]
    rfl
  · rename_i absent
    have missing : fs.files.lookup file = none := Option.not_isSome_iff_eq_none.mp absent
    rw [List.lookup_append]
    by_cases same : other = file
    · simp [same, missing]
    · have apart : (other == file) = false := beq_eq_false_iff_ne.mpr same
      simp [same, List.lookup_cons, apart, contents?]

/-- After a text was written to a file: the file holds it in UTF-8, and all else is as before. -/
structure Written (fs : FileSystem) (file : Location) (text : Text) (after : FileSystem) :
    Prop where
  holds : ∃ s : String, Text.ofString s = text ∧ after.contents? file = some s.toUTF8
  keeps : ∀ other, other ≠ file → after.contents? other = fs.contents? other
  folders : after.folders = fs.folders
  home : after.home = fs.home

theorem written_write (fs : FileSystem) (file : Location) (encodable : text.Encodable) :
    fs.Written file text (fs.write file (encode text)) := by
  obtain ⟨s, rfl⟩ := encodable
  refine ⟨⟨s, rfl, ?_⟩, ?_, rfl, rfl⟩
  · rw [contents?_write, if_pos rfl, encode_ofString]
  · intro other differs
    rw [contents?_write, if_neg differs]

def Effect.Exits (effect : Effect Response) (exitCode : Nat) (stdout : Text) : Prop :=
  ∃ response, effect.outcome = .ok response ∧ response.exitCode = exitCode ∧
    response.stdout = stdout

theorem Effect.Exits.stdout_iff {effect : Effect Response} {exitCode : Nat} {stdout : Text}
    (exits : effect.Exits exitCode stdout) (other : Text) :
    effect.Exits exitCode other ↔ other = stdout := by
  constructor
  · rintro ⟨response, here, _, rfl⟩
    obtain ⟨response', there, _, rfl⟩ := exits
    cases here.symm.trans there
    rfl
  · rintro rfl
    exact exits

/-- A text for a path is written as a whole where a file may be, and elsewhere an error is raised
and nothing is different. -/
structure Delivers (fs : FileSystem) (text path : Text) (effect : Effect Response) : Prop where
  writes : ∀ location, fs.FilePath path location →
    effect.Exits 0 [] ∧ fs.Written location text effect.after
  refuses : (∀ location, ¬ fs.FilePath path location) →
    (∃ failure, effect.outcome = .error failure) ∧ effect.after = fs
  folder : ∀ target, fs.LeadsTo path target → effect.outcome = .error .outputIsFolder

variable {fs : FileSystem} {path output : Text} {location : Location}

theorem deliver_of_filePath (names : fs.FilePath path location) (output : Text) :
    fs.deliver path output = { outcome := .ok (), after := fs.write location (encode output) } := by
  rw [deliver, place_of_filePath names]
  cases fs.isFile location with
  | true => rfl
  | false => rfl

theorem deliver_of_leadsTo (leads : fs.LeadsTo path location) (output : Text) :
    fs.deliver path output = { outcome := .error .outputIsFolder, after := fs } := by
  rw [deliver, place_of_leadsTo leads]

theorem deliver_refused (missing : ∀ location, ¬ fs.FilePath path location) (output : Text) :
    ∃ failure, fs.deliver path output = { outcome := .error failure, after := fs } := by
  have found : fs.Found (fs.start path) (Text.Path.parts path) (fs.place path) :=
    fs.walk_found _ _
  rw [deliver]
  cases here : fs.place path with
  | folder => exact ⟨_, rfl⟩
  | missingFolder => exact ⟨_, rfl⟩
  | belowFile => exact ⟨_, rfl⟩
  | file location =>
      rw [here] at found
      exact absurd found (missing location)
  | vacant location =>
      rw [here] at found
      exact absurd found (missing location)

theorem delivers_of_deliver {response : Response} (done : response.exitCode = 0)
    (silent : response.stdout = []) (encodable : output.Encodable) :
    fs.Delivers output path { fs.deliver path output with
      outcome := (fs.deliver path output).outcome.map fun _ => response } where
  writes location names := by
    rw [deliver_of_filePath names]
    exact ⟨⟨response, rfl, done, silent⟩, written_write fs location encodable⟩
  refuses missing := by
    obtain ⟨failure, refused⟩ := deliver_refused missing output
    rw [refused]
    exact ⟨⟨failure, rfl⟩, rfl⟩
  folder target leads := by
    rw [deliver_of_leadsTo leads]
    rfl

section Request

variable {arguments : List Text} {stdin : ByteArray} (valid : tools.read arguments = .ok request)
  (given : fs.Provides request stdin bytes) (decoded : decode bytes = .ok input)
  (extracted : Comment.extract input request.sourceName = .done extraction)
include valid given

theorem perform_eq : fs.perform tools arguments stdin = fs.respond tools request bytes := by
  rw [perform, valid]
  simp only [source?_of_provides given]

theorem perform_of_answer {answer : Answer} (answered : request.answer tools bytes = .ok answer)
    (unwritten : answer.output = none) :
    fs.perform tools arguments stdin = { outcome := .ok answer.response, after := fs } := by
  rw [perform_eq valid given]
  simp only [respond, answered, unwritten]

include decoded extracted

theorem perform_of_rejected {diagnostic : Diagnostic}
    (refused : extraction.outcome = .error diagnostic) :
    (fs.perform tools arguments stdin).Exits 1 [] ∧
      (fs.perform tools arguments stdin).after = fs := by
  obtain ⟨log, answered⟩ := Request.answer_of_rejected decoded extracted refused
  rw [perform_of_answer valid given answered rfl]
  exact ⟨⟨_, rfl, rfl, rfl⟩, rfl⟩

theorem perform_of_printed (accepted : extraction.outcome = .ok text)
    (printed : request.output = none) :
    (fs.perform tools arguments stdin).Exits 0 (tools.stdout text) ∧
      (fs.perform tools arguments stdin).after = fs := by
  obtain ⟨log, answered⟩ := Request.answer_of_printed decoded extracted accepted printed
  rw [perform_of_answer valid given answered rfl]
  exact ⟨⟨_, rfl, rfl, rfl⟩, rfl⟩

theorem perform_of_written (accepted : extraction.outcome = .ok text)
    (written : request.output = some path) :
    fs.Delivers text (Text.Path.tidy path) (fs.perform tools arguments stdin) := by
  obtain ⟨log, answered⟩ := Request.answer_of_written decoded extracted accepted written
  have encodable := encodable_of_accepted decoded extracted accepted
  rw [perform_eq valid given, respond, answered]
  exact delivers_of_deliver rfl rfl encodable

end Request

/-- The command prints or writes the whole text of the comments, or nothing is different. What is
printed goes through the tools, so the standard output holds the text itself exactly if they keep
it, as they do where no escape is in it. -/
theorem perform_delivers (tools : Toolkit)
    (plain : ∀ t, Text.Terminal.escape ∉ t → tools.stdout t = t) (fs : FileSystem)
    {arguments : List Text} {stdin : ByteArray} (valid : tools.read arguments = .ok request)
    (given : fs.Provides request stdin bytes) (decoded : decode bytes = .ok input) :
    ∃ extraction effect, Comment.extract input request.sourceName = .done extraction ∧
      fs.perform tools arguments stdin = effect ∧
      (∀ diagnostic, extraction.outcome = .error diagnostic →
        effect.Exits 1 [] ∧ effect.after = fs) ∧
      (∀ text, extraction.outcome = .ok text → request.output = none →
        effect.Exits 0 (tools.stdout text) ∧ effect.after = fs ∧
        (effect.Exits 0 text ↔ tools.stdout text = text) ∧
        (Text.Terminal.escape ∉ text → effect.Exits 0 text)) ∧
      ∀ text path, extraction.outcome = .ok text → request.output = some path →
        fs.Delivers text (Text.Path.tidy path) effect := by
  obtain ⟨extraction, extracted⟩ := Comment.extract_returns input request.sourceName
  refine ⟨extraction, _, extracted, rfl, ?_, ?_, ?_⟩
  · intro diagnostic refused
    exact perform_of_rejected valid given decoded extracted refused
  · intro text accepted printed
    obtain ⟨exits, same⟩ := perform_of_printed valid given decoded extracted accepted printed
    refine ⟨exits, same, ?_, fun missing => ?_⟩
    · rw [exits.stdout_iff, eq_comm]
    · rw [exits.stdout_iff, plain text missing]
  · intro text path accepted written
    exact perform_of_written valid given decoded extracted accepted written

/-- The source itself may be the output, on another path. -/
theorem perform_delivers_into_source :
    ∃ fs : FileSystem, fs.contents? ["h", "a.js"] = some ("/** a */" : String).toUTF8 ∧
      (fs.perform StandIn.toolkit ["a.js", "-o", "../h/a.js"] .empty).Exits 0 [] ∧
      fs.Written ["h", "a.js"] "a "
        (fs.perform StandIn.toolkit ["a.js", "-o", "../h/a.js"] .empty).after := by
  let fs : FileSystem :=
    { home := ["h"], files := [(["h", "a.js"], ("/** a */" : String).toUTF8)], folders := [] }
  have valid : StandIn.toolkit.read ["a.js", "-o", "../h/a.js"] =
      .ok { source := "a.js", output := some "../h/a.js" } := rfl
  have source : fs.FilePath "a.js" ["h", "a.js"] :=
    ⟨⟨[], "a.js", ["h"], rfl, .stay _, ⟨rfl, by decide⟩, rfl⟩, rfl⟩
  have output : fs.FilePath "../h/a.js" ["h", "a.js"] :=
    ⟨⟨["..", "h"], "a.js", ["h"], rfl, .up (.down ⟨rfl, by decide⟩ rfl (.stay _)),
      ⟨rfl, by decide⟩, rfl⟩, rfl⟩
  have given : fs.Provides { source := "a.js", output := some "../h/a.js" } .empty
      ("/** a */" : String).toUTF8 := by
    rw [Provides, if_neg (by decide)]
    exact ⟨_, source, rfl⟩
  have decoded : decode ("/** a */" : String).toUTF8 = .ok "/** a */" := decode_toUTF8 _
  have comment : Comment.step "/** a */" 0 = .emit "a " 8 := by cbv
  have pass : Comment.scan "/** a */" 0 = { bodies := ["a "], stuck? := none } := by
    rw [Comment.scan_emit comment, Comment.scan_finished rfl]
  obtain ⟨extraction, _, extracted, rfl, _, _, delivers⟩ := perform_delivers StandIn.toolkit
    (fun _ => Text.withoutControls_of_not_mem) fs valid given decoded
  have accepted := Comment.outcome_of_scan pass extracted
  exact ⟨fs, rfl, (delivers "a " "../h/a.js" accepted rfl).writes _ output⟩

/-- A comment with a control sequence in it is not printed as it is. -/
theorem perform_drops_controls :
    ∃ (fs : FileSystem) (stdin : ByteArray) (request : Request) (input : Text)
      (extraction : Comment.Extraction),
      StandIn.toolkit.read [] = .ok request ∧ request.output = none ∧
      fs.Provides request stdin stdin ∧ decode stdin = .ok input ∧
      Comment.extract input request.sourceName = .done extraction ∧
      extraction.outcome = .ok ("\x1b[m" : Text) ∧
      ¬ (fs.perform StandIn.toolkit [] stdin).Exits 0 "\x1b[m" := by
  let fs : FileSystem := { home := [], files := [], folders := [] }
  have valid : StandIn.toolkit.read [] = .ok {} := rfl
  have given : fs.Provides {} ("/**\x1b[m*/" : String).toUTF8 ("/**\x1b[m*/" : String).toUTF8 := by
    rw [Provides, if_pos rfl]
  have decoded : decode ("/**\x1b[m*/" : String).toUTF8 = .ok "/**\x1b[m*/" := decode_toUTF8 _
  have comment : Comment.step "/**\x1b[m*/" 0 = .emit "\x1b[m" 8 := by cbv
  have pass : Comment.scan "/**\x1b[m*/" 0 = { bodies := ["\x1b[m"], stuck? := none } := by
    rw [Comment.scan_emit comment, Comment.scan_finished rfl]
  obtain ⟨extraction, extracted⟩ := Comment.extract_returns "/**\x1b[m*/" (Request.sourceName {})
  have accepted := Comment.outcome_of_scan pass extracted
  refine ⟨fs, _, {}, _, extraction, valid, rfl, given, decoded, extracted, accepted, ?_⟩
  obtain ⟨exits, _⟩ := perform_of_printed valid given decoded extracted accepted rfl
  rw [exits.stdout_iff]
  decide

end FileSystem

end Descent.Command
