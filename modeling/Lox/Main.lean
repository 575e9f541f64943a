import Lox.CommandLine.Directory

set_option autoImplicit false

/-! The command line program: it reads files and lines, and shows what a session writes. -/

namespace Lox.Main

open CommandLine

/-- More rounds and calls than any run can have. -/
def bound : Nat := Nat.pow 2 62

def faultOf : IO.Error → FileFault
  | .noFileOrDirectory _ _ _ => .missing
  | .inappropriateType _ code _ => if code = 21 then .isDirectory else .notInDirectory
  | .permissionDenied _ _ _ => .denied
  | _ => .nameTooLong

def showOutput (session : Session) : IO Session := do
  let ((output, errors), session) := drain session
  (← IO.getStdout).putStr output
  (← IO.getStdout).flush
  (← IO.getStderr).putStr errors
  return session

/-- The bytes of the next line of the input, with its newline; none at the end. -/
partial def nextLine (line : ByteArray) : IO ByteArray := do
  let byte ← (← IO.getStdin).read 1
  if byte.isEmpty then
    return line
  else if byte.toList == [10] then
    return line ++ byte
  else
    nextLine (line ++ byte)

partial def converse (session : Session) : IO UInt32 := do
  let session ← showOutput (say session prompt)
  match String.fromUTF8? (← nextLine ByteArray.empty) with
  | none =>
    (← IO.getStderr).putStr Failure.lineEncoding.text
    return 1
  | some "" =>
    let _ ← showOutput (say session "\n")
    return 0
  | some line =>
    match session.run bound line with
    | some (_, session) => converse (← showOutput session)
    | none => return 70

def fileOf (options : Options) : IO (Except FileFault ByteArray) := do
  match options.file with
  | none => return .error .missing
  | some name =>
    try
      return .ok (← IO.FS.readBinFile name)
    catch e =>
      return .error (faultOf e)

def conclude (outcome : Option Outcome) : IO UInt32 := do
  match outcome with
  | none => return 70
  | some outcome =>
    (← IO.getStdout).putStr outcome.output
    (← IO.getStderr).putStr outcome.errors
    return outcome.status.toUInt32

def start (arguments : List String) : IO UInt32 := do
  let noInput : Input := ⟨fun _ => .error .missing, ByteArray.empty⟩
  match Request.ofArguments arguments with
  | .ok (.run options) =>
    if options.log then
      IO.FS.writeFile logName ""
    if options.source.isNone && options.file.isNone then
      converse (newSession options.config)
    else
      let contents ← fileOf options
      conclude (runOptions bound { noInput with file := fun _ => contents } options)
  | _ => conclude (CommandLine.run bound noInput arguments)

end Lox.Main

def main (arguments : List String) : IO UInt32 :=
  Lox.Main.start arguments
