import Lox.Session

set_option autoImplicit false

/-! The arguments of the command. They are read from left to right, so that the first mistake or
the first request for the version decides; whether they go together is asked at the end. -/

namespace Lox.CommandLine

/-- What to run, and how. Without a source and without a file, lines are read from the input. -/
structure Options where
  config : Config := {}
  format : Option DumpFormat := none
  log : Bool := false
  source : Option String := none
  file : Option String := none
deriving Inhabited

inductive Request where
  | version
  | help
  | run (options : Options)
deriving Inhabited

inductive UsageError where
  | unknown (argument : String)
  | missingValue (option : String)
  | unexpectedValue (option : String)
  | invalidValue (option value : String)
  | repeated (option : String)
  | surplus (argument : String)
  | emptyFile
  | sourceAndFile
deriving Repr, DecidableEq, Inhabited

def UsageError.message : UsageError → String
  | unknown argument => "unexpected argument '" ++ argument ++ "'"
  | missingValue option => "option '" ++ option ++ "' needs a value"
  | unexpectedValue option => "option '" ++ option ++ "' takes no value"
  | invalidValue option value => "invalid value '" ++ value ++ "' for option '" ++ option ++ "'"
  | repeated option => "option '" ++ option ++ "' cannot be used more than once"
  | surplus argument => "unexpected argument '" ++ argument ++ "'"
  | emptyFile => "the name of the file is empty"
  | sourceAndFile => "a file cannot be combined with option '-c'"

inductive Argument where
  /-- Two dashes alone: all further arguments are plain. -/
  | terminator
  | long (name : String) (value : Option String)
  | short (first : Char) (rest : List Char)
  | plain (text : String)
deriving Repr, DecidableEq, Inhabited

def Argument.ofText (text : String) : Argument :=
  match text.toList with
  | ['-', '-'] => .terminator
  | '-' :: '-' :: rest =>
    let name := String.ofList (rest.takeWhile (· != '='))
    match rest.dropWhile (· != '=') with
    | [] => .long name none
    | _ :: value => .long name (some (String.ofList value))
  | '-' :: c :: rest => .short c rest
  | _ => .plain text

def Argument.isValue : Argument → Bool
  | plain _ => true
  | _ => false

namespace Options

def addDebug (options : Options) (value : String) : Except UsageError Options :=
  let config := options.config
  match value with
  | "dump-tokens" => .ok { options with config := { config with dumpTokens := true } }
  | "dump-ast" => .ok { options with config := { config with dumpAst := true } }
  | "stop-after-parse" => .ok { options with config := { config with stopAfterParse := true } }
  | "stop-after-resolve" => .ok { options with config := { config with stopAfterResolve := true } }
  | "reduced-errors" => .ok { options with config := { config with style := .reduced } }
  | "backtrace" => .ok options
  | value => .error (.invalidValue "--dbg" value)

def formatOfName? : String → Option DumpFormat
  | "text" => some .text
  | "json" => some .json
  | _ => none

def setFormat (options : Options) (value : String) : Except UsageError Options :=
  match formatOfName? value with
  | none => .error (.invalidValue "--dump-format" value)
  | some format =>
    if options.format.isSome then .error (.repeated "--dump-format")
    else .ok { options with
      format := some format
      config := { options.config with dumpFormat := format } }

def setSource (options : Options) (value : String) : Except UsageError Options :=
  if options.source.isSome then .error (.repeated "-c")
  else .ok { options with source := some value }

def setLog (options : Options) : Except UsageError Options :=
  if options.log then .error (.repeated "--log") else .ok { options with log := true }

def setFile (options : Options) (value : String) : Except UsageError Options :=
  if options.file.isSome then .error (.surplus value)
  else if value.isEmpty then .error .emptyFile
  else .ok { options with file := some value }

/-- A source and a file exclude each other. -/
def finish (options : Options) : Except UsageError Request :=
  if options.source.isSome && options.file.isSome then .error .sourceAndFile
  else .ok (.run options)

def readPlain (options : Options) : List String → Except UsageError Request
  | [] => options.finish
  | argument :: rest => do
    let options ← options.setFile argument
    readPlain options rest

def setter? (name : String) : Option (Options → String → Except UsageError Options) :=
  match name with
  | "dbg" => some addDebug
  | "dump-format" => some setFormat
  | _ => none

/-- Reads arguments. An option waits for its value, which must not look like an option itself. -/
def read (options : Options) : List String → Except UsageError Request
  | [] => options.finish
  | argument :: rest =>
    match Argument.ofText argument with
    | .terminator => readPlain options rest
    | .plain text => do
      let options ← options.setFile text
      read options rest
    | .long name (some value) =>
      match setter? name with
      | some set => do
        let options ← set options value
        read options rest
      | none =>
        if ["log", "version", "help"].contains name then .error (.unexpectedValue ("--" ++ name))
        else .error (.unknown argument)
    | .long "version" none => .ok .version
    | .long "help" none => .ok .help
    | .long "log" none => do
      let options ← options.setLog
      read options rest
    | .long name none =>
      match setter? name with
      | some set =>
        match rest with
        | [] => .error (.missingValue argument)
        | value :: rest =>
          if (Argument.ofText value).isValue then do
            let options ← set options value
            read options rest
          else .error (.missingValue argument)
      | none => .error (.unknown argument)
    | .short 'V' _ => .ok .version
    | .short 'h' _ => .ok .help
    | .short 'c' [] =>
      match rest with
      | [] => .error (.missingValue argument)
      | value :: rest =>
        if (Argument.ofText value).isValue then do
          let options ← options.setSource value
          read options rest
        else .error (.missingValue argument)
    | .short 'c' ('=' :: value) => do
      let options ← options.setSource (String.ofList value)
      read options rest
    | .short 'c' value => do
      let options ← options.setSource (String.ofList value)
      read options rest
    | .short _ _ => .error (.unknown argument)

end Options

def Request.ofArguments (arguments : List String) : Except UsageError Request :=
  Options.read {} arguments

end Lox.CommandLine
