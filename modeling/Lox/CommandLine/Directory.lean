import Lox.CommandLine.FileTree
import Lox.CommandLine.Run

set_option autoImplicit false

/-! A directory that holds files and no directories, as the place in which the command runs. -/

namespace Lox.CommandLine

def logName : String := "app.log"

abbrev Directory := List (String × ByteArray)

/-- The folders that every system has. What they hold is not known here, except for the empty
device and the one that gives the input of the command. -/
def systemTree (lines : ByteArray) : FileTree :=
  .folder (("dev", .folder [("null", .file ByteArray.empty), ("stdin", .file lines)]) ::
    ["bin", "etc", "home", "lib", "opt", "proc", "run", "sbin", "srv", "sys", "tmp", "usr",
      "var"].map fun name => (name, .folder []))

namespace Directory

/-- What stands at a path. The folders around the directory are not known either. -/
def read (directory : Directory) (lines : ByteArray) (path : String) :
    Except FileFault ByteArray :=
  let files := directory.map fun (name, contents) => (name, FileTree.file contents)
  let start : Location :=
    if path.toList.head? == some '/' then ⟨systemTree lines, []⟩
    else ⟨.folder files, [.folder []]⟩
  start.read path

/-- The directory with a new log in it. What a log says is not told here. -/
def withLog (directory : Directory) : Directory :=
  (logName, ByteArray.empty) :: directory.filter (·.1 != logName)

/-- The directory in which a request is carried out: a log is started before anything is read. -/
def prepare (directory : Directory) : Except UsageError Request → Directory
  | .ok (.run options) => if options.log then directory.withLog else directory
  | _ => directory

def names (directory : Directory) : List String :=
  (directory.map (·.1)).mergeSort (· ≤ ·)

/-- Does what arguments ask for, and says which files there are afterwards. There is no answer if
the bound was exceeded. -/
def run (bound : Nat) (directory : Directory) (lines : ByteArray) (arguments : List String) :
    Option (Outcome × List String) :=
  let directory := directory.prepare (Request.ofArguments arguments)
  match CommandLine.run bound ⟨directory.read lines, lines⟩ arguments with
  | none => none
  | some outcome => some (outcome, directory.names)

end Directory
end Lox.CommandLine
