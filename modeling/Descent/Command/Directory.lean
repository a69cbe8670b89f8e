import Descent.Command.FileSystem
import Descent.Command.StandIn

/-! Runs of the command in a directory. -/

namespace Descent.Command

/-- Files and folders by paths that begin in the directory and have no idle parts. -/
structure Directory where
  files : List (Text × ByteArray)
  folders : List Text

namespace Directory

def home : Location := ["tmp", "work"]

def location (path : Text) : Location := home ++ Text.Path.parts path

def fileSystem (d : Directory) : FileSystem where
  home := home
  files := d.files.map fun file => (location file.1, file.2)
  folders := d.folders.map location

def path? (location : Location) : Option Text :=
  if home.isPrefixOf location then
    some (Text.join [Text.Path.slash] (location.drop home.length))
  else none

def ofFileSystem (fs : FileSystem) : Directory where
  files := fs.files.filterMap fun file => (path? file.1).map fun path => (path, file.2)
  folders := fs.folders.filterMap path?

def run (d : Directory) (arguments : List Text) (stdin : ByteArray) :
    Except Failure (Response × Directory) :=
  let effect := d.fileSystem.perform StandIn.toolkit arguments stdin
  effect.outcome.map fun response => (response, ofFileSystem effect.after)

end Directory

end Descent.Command
