set_option autoImplicit false

/-! Files, folders and paths. A path is followed part by part from where it starts, so the first
part that cannot be followed says what is wrong with it. -/

namespace Lox.CommandLine

/-- Why a file cannot be read. Opening a folder succeeds, but reading it does not. -/
inductive FileFault where
  | missing
  | notInDirectory
  | nameTooLong
  | denied
  | isDirectory
deriving Repr, DecidableEq, Inhabited

namespace FileFault

def message : FileFault → String
  | missing => "No such file or directory (os error 2)"
  | notInDirectory => "Not a directory (os error 20)"
  | nameTooLong => "File name too long (os error 36)"
  | denied => "Permission denied (os error 13)"
  | isDirectory => "Is a directory (os error 21)"

def action : FileFault → String
  | isDirectory => "read"
  | _ => "open"

end FileFault

inductive FileTree where
  | file (contents : ByteArray)
  | folder (entries : List (String × FileTree))
deriving Inhabited

def maxNameSize : Nat := 255

def maxPathSize : Nat := 4095

def pathParts : List Char → List (List Char)
  | [] => [[]]
  | '/' :: rest => [] :: pathParts rest
  | c :: rest =>
    match pathParts rest with
    | part :: parts => (c :: part) :: parts
    | [] => [[c]]

/-- Where a path has led so far, and the folders around that place, innermost first. -/
structure Location where
  place : FileTree
  around : List FileTree
deriving Inhabited

namespace Location

/-- Follows one part of a path. Nothing can be followed from a file: a slash behind its name, with
or without more, asks for a folder. Two dots lead nowhere from the outermost folder. -/
def step (location : Location) (part : String) : Except FileFault Location :=
  match location.place with
  | .file _ => .error .notInDirectory
  | .folder entries =>
    if part.isEmpty || part == "." then .ok location
    else if part == ".." then
      match location.around with
      | [] => .ok location
      | outer :: rest => .ok ⟨outer, rest⟩
    else if maxNameSize < part.utf8ByteSize then .error .nameTooLong
    else match entries.lookup part with
      | none => .error .missing
      | some place => .ok ⟨place, location.place :: location.around⟩

def walk (location : Location) : List String → Except FileFault Location
  | [] => .ok location
  | part :: rest =>
    match location.step part with
    | .error fault => .error fault
    | .ok next => next.walk rest

def read (location : Location) (path : String) : Except FileFault ByteArray :=
  if maxPathSize < path.utf8ByteSize then .error .nameTooLong
  else match location.walk ((pathParts path.toList).map String.ofList) with
  | .error fault => .error fault
  | .ok ⟨.folder _, _⟩ => .error .isDirectory
  | .ok ⟨.file contents, _⟩ => .ok contents

end Location
end Lox.CommandLine
