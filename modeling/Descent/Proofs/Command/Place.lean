import Descent.Command.Directory
import Descent.Proofs.Split

/-! Where paths lead. -/

namespace Descent.Command

namespace FileSystem

variable {fs : FileSystem} {folder target location : Location} {part name path : Text}
  {front parts : List Text}

def IsName (part : Text) : Prop := Text.Path.idle part = false ∧ part ≠ Text.Path.parent

/-- The parts of a path lead from one folder that exists to another. -/
inductive Leads (fs : FileSystem) : Location → List Text → Location → Prop where
  | stay (folder : Location) : Leads fs folder [] folder
  | idle {part : Text} {parts : List Text} {folder target : Location}
      (nowhere : Text.Path.idle part = true) (rest : Leads fs folder parts target) :
      Leads fs folder (part :: parts) target
  | up {parts : List Text} {folder target : Location}
      (rest : Leads fs folder.dropLast parts target) :
      Leads fs folder (Text.Path.parent :: parts) target
  | down {name : Text} {parts : List Text} {folder target : Location} (proper : IsName name)
      (there : fs.isFolder (folder ++ [name]) = true)
      (rest : Leads fs (folder ++ [name]) parts target) : Leads fs folder (name :: parts) target

def Reaches (fs : FileSystem) (folder : Location) (parts : List Text) (location : Location) :
    Prop :=
  ∃ front name target, parts = front ++ [name] ∧ fs.Leads folder front target ∧ IsName name ∧
    location = target ++ [name]

def LeadsTo (fs : FileSystem) (path : Text) (target : Location) : Prop :=
  fs.Leads (fs.start path) (Text.Path.parts path) target

/-- There may be a file at the path: it is a name in a folder that exists, and no folder itself. -/
def FilePath (fs : FileSystem) (path : Text) (location : Location) : Prop :=
  fs.Reaches (fs.start path) (Text.Path.parts path) location ∧ fs.isFolder location = false

theorem walk_parent (fs : FileSystem) (folder : Location) (parts : List Text) :
    fs.walk folder (Text.Path.parent :: parts) = fs.walk folder.dropLast parts := rfl

theorem walk_idle (nowhere : Text.Path.idle part = true) :
    fs.walk folder (part :: parts) = fs.walk folder parts := by
  rw [walk, if_pos nowhere]

theorem walk_folder (proper : IsName name) (there : fs.isFolder (folder ++ [name]) = true) :
    fs.walk folder (name :: parts) = fs.walk (folder ++ [name]) parts := by
  rw [walk, if_neg (Bool.not_eq_true _ ▸ proper.1), if_neg proper.2]
  exact if_pos there

theorem walk_of_leads (leads : fs.Leads folder front target) (parts : List Text) :
    fs.walk folder (front ++ parts) = fs.walk target parts := by
  induction leads with
  | stay folder => rfl
  | idle nowhere _ ih => rw [List.cons_append, walk_idle nowhere, ih]
  | up _ ih => rw [List.cons_append, walk_parent, ih]
  | down proper there _ ih => rw [List.cons_append, walk_folder proper there, ih]

theorem walk_of_reaches (reaches : fs.Reaches folder parts location)
    (apart : fs.isFolder location = false) :
    fs.walk folder parts = if fs.isFile location then .file location else .vacant location := by
  obtain ⟨front, name, target, rfl, leads, proper, rfl⟩ := reaches
  rw [walk_of_leads leads, walk, if_neg (Bool.not_eq_true _ ▸ proper.1), if_neg proper.2]
  exact if_neg (Bool.not_eq_true _ ▸ apart)

/-- Where nothing is found nothing is said: `walk_of_leads` and `walk_of_reaches` tell when. -/
def Found (fs : FileSystem) (folder : Location) (parts : List Text) : Place → Prop
  | .folder => ∃ target, fs.Leads folder parts target
  | .file location | .vacant location =>
    fs.Reaches folder parts location ∧ fs.isFolder location = false
  | .missingFolder | .belowFile => True

theorem Found.behind {place : Place} {folder' : Location} (found : fs.Found folder' parts place)
    (step : ∀ front target, fs.Leads folder' front target →
      fs.Leads folder (part :: front) target) :
    fs.Found folder (part :: parts) place := by
  have reaches : ∀ location, fs.Reaches folder' parts location →
      fs.Reaches folder (part :: parts) location := by
    rintro _ ⟨front, name, target, rfl, leads, proper, rfl⟩
    exact ⟨part :: front, name, target, rfl, step front target leads, proper, rfl⟩
  cases place with
  | folder => exact found.imp (step parts)
  | file location => exact found.imp_left (reaches location)
  | vacant location => exact found.imp_left (reaches location)
  | missingFolder => exact trivial
  | belowFile => exact trivial

theorem walk_found (fs : FileSystem) (folder : Location) (parts : List Text) :
    fs.Found folder parts (fs.walk folder parts) := by
  induction parts generalizing folder with
  | nil => exact ⟨folder, .stay folder⟩
  | cons part parts ih =>
      by_cases nowhere : Text.Path.idle part = true
      · rw [walk_idle nowhere]
        exact (ih folder).behind fun _ _ => .idle nowhere
      by_cases above : part = Text.Path.parent
      · subst above
        exact (ih folder.dropLast).behind fun _ _ => .up
      have proper : IsName part := ⟨eq_false_of_ne_true nowhere, above⟩
      by_cases there : fs.isFolder (folder ++ [part]) = true
      · rw [walk_folder proper there]
        exact (ih (folder ++ [part])).behind fun _ _ => .down proper there
      have apart := eq_false_of_ne_true there
      cases parts with
      | nil =>
          have last : fs.Reaches folder [part] (folder ++ [part]) :=
            ⟨[], part, folder, rfl, .stay folder, proper, rfl⟩
          rw [walk_of_reaches last apart]
          split
          · exact ⟨last, apart⟩
          · exact ⟨last, apart⟩
      | cons next parts =>
          rw [walk, if_neg nowhere, if_neg above]
          dsimp only
          rw [if_neg there, List.isEmpty_cons, if_neg Bool.false_ne_true]
          split
          · exact trivial
          · exact trivial

theorem place_of_leadsTo (leads : fs.LeadsTo path target) : fs.place path = .folder := by
  have whole := walk_of_leads leads []
  rwa [List.append_nil] at whole

theorem place_of_filePath (names : fs.FilePath path location) :
    fs.place path = if fs.isFile location then .file location else .vacant location :=
  walk_of_reaches names.1 names.2

/-- The source of a request holds the bytes: it is the standard input or a file. -/
def Provides (fs : FileSystem) (request : Request) (stdin bytes : ByteArray) : Prop :=
  if request.source = ("-" : Text) then bytes = stdin
  else ∃ location, fs.FilePath request.source location ∧ fs.contents? location = some bytes

theorem source?_of_provides {request : Request} {stdin bytes : ByteArray}
    (given : fs.Provides request stdin bytes) : fs.source? request stdin = some bytes := by
  have standard : request.readsStandardInput = true ↔ request.source = ("-" : Text) := beq_iff_eq
  rw [Provides] at given
  rw [source?]
  by_cases dash : request.source = ("-" : Text)
  · rw [if_pos dash] at given
    rw [if_pos (standard.mpr dash), given]
  · rw [if_neg dash] at given
    obtain ⟨location, names, held⟩ := given
    have there : fs.isFile location = true := by rw [isFile, held]; rfl
    rw [if_neg (mt standard.mp dash), place_of_filePath names, if_pos there]
    exact held

end FileSystem

namespace Directory

theorem path?_location (path : Text) : path? (location path) = some path := by
  have inside : home.isPrefixOf (location path) = true :=
    List.isPrefixOf_iff_prefix.mpr (List.prefix_append home _)
  rw [path?, if_pos inside, location, List.drop_left, Text.Path.parts, Text.join_split]

/-- Between the runs of a command nothing of a directory is lost. -/
theorem ofFileSystem_fileSystem (d : Directory) : ofFileSystem d.fileSystem = d := by
  obtain ⟨files, folders⟩ := d
  have kept : path? ∘ location = some := funext path?_location
  have whole : ((fun file : Location × ByteArray => (path? file.1).map fun path =>
      (path, file.2)) ∘ fun file : Text × ByteArray => (location file.1, file.2)) = some :=
    funext fun file => congrArg (Option.map fun path => (path, file.2)) (path?_location file.1)
  rw [ofFileSystem, fileSystem, List.filterMap_map, List.filterMap_map, kept, whole,
    List.filterMap_some, List.filterMap_some]

end Directory

end Descent.Command
