import Descent.Comment.Extract
import Descent.Command.Request
import Descent.Text.Line

/-! What the command answers to a request, once the source has been read. -/

namespace Descent.Command

inductive Failure where
  | undecodableSource
  | outputIsFolder
  | outputFolderMissing
  | outputBelowFile
  | unfinished (fault : Option Fault)
  deriving DecidableEq

def Failure.message : Failure → Text
  | .undecodableSource => "The source is not in UTF-8."
  | .outputIsFolder => "The output is a folder."
  | .outputFolderMissing => "The folder of the output does not exist."
  | .outputBelowFile => "The output lies below a file."
  | .unfinished (some fault) => fault.message
  | .unfinished none => "The source is too large."

structure Response where
  exitCode : Nat
  stdout : Text
  stderr : Text
  log : List Log.Record

/-- What the command leaves to the libraries that it is built with: to read arguments, to explain
how it is used, and to bring texts to its streams. -/
structure Toolkit where
  /-- A request, or the response to arguments that make none. -/
  read : List Text → Except Response Request
  /-- The response where a source cannot be opened. -/
  unreadable : Text → Response
  /-- What reaches the standard output of a text that is printed. -/
  stdout : Text → Text
  stderr : Text → Text

def decode (bytes : ByteArray) : Except Failure Text :=
  match String.fromUTF8? bytes with
  | some s => .ok (Text.ofString s).unifyNewlines
  | none => .error .undecodableSource

def encode (t : Text) : ByteArray := t.toString.toUTF8

def readRecord (input name : Text) : Log.Record :=
  Log.debug .command
    (Text.concat ["Read ", Text.ofNat input.length, " characters from ", name, "."])

def writtenRecord (output path : Text) : Log.Record :=
  Log.debug .command
    (Text.concat ["Wrote ", Text.ofNat output.length, " characters to ", path, "."])

def extract (input name : Text) : Except Failure Comment.Extraction :=
  match Comment.extract input name with
  | .done extraction => .ok { extraction with log := readRecord input name :: extraction.log }
  | .raised fault => .error (.unfinished (some fault))
  | .exhausted => .error (.unfinished none)

namespace Request

def logged (request : Request) (records : List Log.Record) : List Log.Record :=
  Log.atLeast (if request.verbose then .debug else .warning) records

end Request

def rejected (tools : Toolkit) (diagnostic : Diagnostic) (log : List Log.Record) : Response :=
  { exitCode := 1
    stdout := []
    stderr := tools.stderr (Text.concat [diagnostic.message, "\n", diagnostic.note, "\n"])
    log }

structure Answer where
  response : Response
  output : Option (Text × Text) := none

def Request.answer (tools : Toolkit) (request : Request) (bytes : ByteArray) :
    Except Failure Answer := do
  let input ← decode bytes
  let extraction ← extract input request.sourceName
  match extraction.outcome, request.output with
  | .error diagnostic, _ =>
    return { response := rejected tools diagnostic (request.logged extraction.log) }
  | .ok text, none =>
    let log := request.logged extraction.log
    return { response := { exitCode := 0, stdout := tools.stdout text, stderr := [], log } }
  | .ok text, some path =>
    let path := Text.Path.tidy path
    let log := request.logged (extraction.log ++ [writtenRecord text path])
    let response := { exitCode := 0, stdout := [], stderr := [], log }
    return { response, output := some (path, text) }

end Descent.Command
