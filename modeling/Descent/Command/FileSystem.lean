import Descent.Command.Response

/-! The command among files: which one it reads and which one it writes. -/

namespace Descent.Command

abbrev Location := List Text

/-- There are no links, so every file and every folder has one location. -/
structure FileSystem where
  /-- The folder in which paths begin that are not absolute. -/
  home : Location
  files : List (Location × ByteArray)
  folders : List Location

namespace FileSystem

def contents? (fs : FileSystem) (file : Location) : Option ByteArray := fs.files.lookup file

def isFile (fs : FileSystem) (location : Location) : Bool := (fs.contents? location).isSome

/-- Above a folder and above a file there are folders only. -/
def isFolder (fs : FileSystem) (location : Location) : Bool :=
  (fs.home :: (fs.folders ++ fs.files.map fun file => file.1.dropLast)).any location.isPrefixOf

def write (fs : FileSystem) (file : Location) (contents : ByteArray) : FileSystem :=
  let files :=
    if fs.isFile file then
      fs.files.map fun entry => if entry.1 = file then (file, contents) else entry
    else fs.files ++ [(file, contents)]
  { fs with files }

inductive Place where
  | folder
  | file (location : Location)
  /-- Nothing, in a folder that exists. -/
  | vacant (location : Location)
  | missingFolder
  | belowFile

/-- Follows the parts of a path from a folder. The root is its own parent. -/
def walk (fs : FileSystem) (folder : Location) : List Text → Place
  | [] => .folder
  | part :: parts =>
    if Text.Path.idle part then walk fs folder parts
    else if part = Text.Path.parent then walk fs folder.dropLast parts
    else
      let location := folder ++ [part]
      if fs.isFolder location then walk fs location parts
      else if parts.isEmpty then
        if fs.isFile location then .file location else .vacant location
      else if fs.isFile location then .belowFile
      else .missingFolder

def start (fs : FileSystem) (path : Text) : Location :=
  if Text.Path.isAbsolute path then [] else fs.home

def place (fs : FileSystem) (path : Text) : Place :=
  fs.walk (fs.start path) (Text.Path.parts path)

def source? (fs : FileSystem) (request : Request) (stdin : ByteArray) : Option ByteArray :=
  if request.readsStandardInput then some stdin
  else
    match fs.place request.source with
    | .file location => fs.contents? location
    | _ => none

/-- What an action comes to, and the files that it leaves behind even where it fails. -/
structure Effect (α : Type) where
  outcome : Except Failure α
  after : FileSystem

def deliver (fs : FileSystem) (path output : Text) : Effect Unit :=
  match fs.place path with
  | .file file => { outcome := .ok (), after := fs.write file (encode output) }
  | .vacant file => { outcome := .ok (), after := fs.write file (encode output) }
  | .folder => { outcome := .error .outputIsFolder, after := fs }
  | .missingFolder => { outcome := .error .outputFolderMissing, after := fs }
  | .belowFile => { outcome := .error .outputBelowFile, after := fs }

def respond (fs : FileSystem) (tools : Toolkit) (request : Request) (bytes : ByteArray) :
    Effect Response :=
  match request.answer tools bytes with
  | .error failure => { outcome := .error failure, after := fs }
  | .ok answer =>
    match answer.output with
    | none => { outcome := .ok answer.response, after := fs }
    | some (path, text) =>
      let written := fs.deliver path text
      { written with outcome := written.outcome.map fun _ => answer.response }

def perform (fs : FileSystem) (tools : Toolkit) (arguments : List Text) (stdin : ByteArray) :
    Effect Response :=
  match tools.read arguments with
  | .error response => { outcome := .ok response, after := fs }
  | .ok request =>
    match fs.source? request stdin with
    | none => { outcome := .ok (tools.unreadable request.source), after := fs }
    | some bytes => fs.respond tools request bytes

end FileSystem

end Descent.Command
