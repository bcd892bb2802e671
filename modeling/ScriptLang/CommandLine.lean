/-
ScriptLang.CommandLine — the command line as a function.

    [--log] tokenize [--json] FILE
    [--log] parse FILE
    [--log] run FILE
    [--log] repl
    --version

`Command.ofArguments?` reads the arguments. `--log` may also stand after the
command; it is accepted and has no effect on what is printed. A flag may be
given once on each side of the command, everything after `--` is a file name,
and whatever does not fit is refused. `-V` and `-h` act as soon as they are
read: what follows them, even in the same argument, is not looked at. `help`
takes the name of at most one command.

`Command.perform` is what a command does: from the outcome of opening its file
and from the standard input to an exit code and two texts. The outer layer
only has to open the file, call this function and print what it gives.
-/
import ScriptLang.Session
import ScriptLang.Text.Backspace
import ScriptLang.Token.Listing
import ScriptLang.Tree.Outline

namespace ScriptLang

/-! ## 1. Reading arguments -/

/-- What the program is asked to do. -/
inductive Command where
  | tokenize (file : String) (json : Bool)
  | parse (file : String)
  | run (file : String)
  | repl
  | version
  | help
  deriving DecidableEq, Repr

/-- Why arguments are not a command with its options. -/
inductive ArgumentStop where
  | help
  | refused
  deriving DecidableEq, Repr

/-- Whether an argument asks for help. -/
def asksHelp (argument : String) : Bool :=
  argument = "--help" || argument.startsWith "-h"

/-- Whether an argument asks for the version. -/
def asksVersion (argument : String) : Bool :=
  argument = "--version" || argument.startsWith "-V"

/-- The arguments after a command. -/
structure Options where
  json : Bool
  log : Bool
  files : List String
  deriving DecidableEq, Repr

namespace Options

/-- No arguments after a command. -/
def initial : Options := ⟨false, false, []⟩

/-- Adds a file name, of which there may be at most `limit`. A file name is not empty. -/
def addFile (limit : Nat) (options : Options) (file : String) : Except ArgumentStop Options :=
  if file.isEmpty || limit ≤ options.files.length then .error .refused
  else .ok { options with files := options.files ++ [file] }

/-- Reads the arguments after a command, from left to right. -/
def read (allowJson : Bool) (limit : Nat) (options : Options) :
    List String → Except ArgumentStop Options
  | [] => .ok options
  | argument :: rest =>
    if argument = "--" then rest.foldlM (addFile limit) options
    else if asksHelp argument then .error .help
    else if argument = "--log" then
      if options.log then .error .refused
      else read allowJson limit { options with log := true } rest
    else if argument = "--json" && allowJson then
      if options.json then .error .refused
      else read allowJson limit { options with json := true } rest
    else if argument.startsWith "-" && argument ≠ "-" then .error .refused
    else
      match addFile limit options argument with
      | .ok options => read allowJson limit options rest
      | .error stop => .error stop

end Options

namespace Command

/-- The one file name of some arguments. -/
def oneFile (options : Options) : Except ArgumentStop String :=
  match options.files with
  | [file] => .ok file
  | _ => .error .refused

/-- The words that are commands. -/
def words : List String := ["tokenize", "parse", "run", "repl", "help"]

/-- Reads a command and the arguments after it. -/
def ofWord (word : String) (rest : List String) : Except ArgumentStop Command :=
  match word with
  | "tokenize" => do
    let options ← Options.initial.read true 1 rest
    pure (.tokenize (← oneFile options) options.json)
  | "parse" => do pure (.parse (← oneFile (← Options.initial.read false 1 rest)))
  | "run" => do pure (.run (← oneFile (← Options.initial.read false 1 rest)))
  | "repl" => do
    let _ ← Options.initial.read false 0 rest
    pure .repl
  | "help" => .error (if rest.length ≤ 1 && rest.all words.contains then .help else .refused)
  | _ => .error .refused

/-- Reads all arguments, when `--log` has been seen or not. -/
def readArguments (log : Bool) : List String → Except ArgumentStop Command
  | [] => .error .refused
  | word :: rest =>
    if word = "--log" then if log then .error .refused else readArguments true rest
    else if asksVersion word then .ok .version
    else if asksHelp word then .error .help
    else ofWord word rest

/-- The command that arguments ask for; nothing if they are refused. -/
def ofArguments? (arguments : List String) : Option Command :=
  match readArguments false arguments with
  | .ok command => some command
  | .error .help => some .help
  | .error .refused => none

/-- The file a command needs. -/
def file? : Command → Option String
  | .tokenize file _ => some file
  | .parse file => some file
  | .run file => some file
  | _ => none

end Command

/-! ## 2. Performing commands -/

/-- What a process leaves behind. -/
structure Outcome where
  exit : Nat
  stdout : String
  stderr : String
  deriving DecidableEq, Repr

/-- Why a file cannot be opened or read. -/
inductive FileProblem where
  | missing
  | denied
  /-- The path goes through a file as if it were a directory. -/
  | notDirectory
  | isDirectory
  | nameTooLong
  | described (message : String)
  deriving DecidableEq, Repr

/-- The wording of a problem with a file, with its number. -/
def FileProblem.message : FileProblem → String
  | .missing => "No such file or directory (os error 2)"
  | .denied => "Permission denied (os error 13)"
  | .notDirectory => "Not a directory (os error 20)"
  | .isDirectory => "Is a directory (os error 21)"
  | .nameTooLong => "File name too long (os error 36)"
  | .described message => message

/-- What opening and reading a file gives. -/
inductive FileRead where
  | contents (bytes : List UInt8)
  | cannotOpen (problem : FileProblem)
  | cannotRead (problem : FileProblem)
  deriving DecidableEq, Repr

/-- Texts on lines of their own. -/
def asLines (texts : List String) : String :=
  String.join (texts.map (· ++ "\n"))

/-- Faults on lines of their own. -/
def faultLines (faults : List Fault) : String :=
  asLines (faults.map Fault.message)

/-- The outcome of a file that cannot be used: what failed, on which file, and why. -/
def fileOutcome (before file after cause : String) : Outcome where
  exit := 1
  stdout := ""
  stderr := "Error: " ++ before ++ Text.Quoted.quote Text.Quoted.shown file ++ after
    ++ "\n\nCaused by:\n    " ++ cause ++ "\n"

/-- The bytes of a file that can be read and is UTF-8. -/
def sourceOf (file : String) : FileRead → Except Outcome (List UInt8)
  | .cannotOpen problem => .error (fileOutcome "Failed to open file " file "" problem.message)
  | .cannotRead problem => .error (fileOutcome "Failed to read file " file "" problem.message)
  | .contents bytes =>
    match Text.Utf8.firstFlaw? bytes with
    | none => .ok bytes
    | some flaw => .error (fileOutcome "File " file " is not valid UTF-8" flaw.message)

/-- Lists the tokens of a source. Faults do not stop the listing. -/
def tokenizeSource (json : Bool) (source : List UInt8) : Outcome :=
  let items := scan source
  let faults := faultsOf items
  { exit := if faults.isEmpty then 0 else Status.staticFault.exitCode
    stdout := asLines ((tokensOf items).map fun t => if json then t.json else t.listing)
    stderr := faultLines faults }

/-- Prints the outlines of the statements of a source, or its faults. -/
def parseSource (session : Session) (source : List UInt8) : Outcome :=
  let (statements, session) := session.parse source
  if session.ledger.hadStatic then
    ⟨Status.staticFault.exitCode, "", faultLines session.ledger.faults⟩
  else ⟨0, asLines (statements.map Stmt.outline), ""⟩

/-- Runs a source. -/
def runSource (fuel : Nat) (session : Session) (source : List UInt8) : Outcome :=
  let (status, session) := session.run fuel source
  ⟨status.exitCode, session.machine.sink.text, faultLines session.ledger.faults⟩

/-- The lines of the rest of an input, when `line` is the line so far, backwards. -/
def linesFrom (line : List UInt8) : List UInt8 → List (List UInt8)
  | [] => if line.isEmpty then [] else [line.reverse]
  | b :: rest =>
    if b = lineFeed then
      let line := if line.head? = some (ascii '\r') then line.tail else line
      line.reverse :: linesFrom [] rest
    else linesFrom (b :: line) rest

/-- The lines of an input, without their line ends and with their backspaces carried out. A
carriage return before a line feed belongs to the line end. -/
def inputLines (input : List UInt8) : List (List UInt8) :=
  (linesFrom [] input).map fun line => Text.Backspace.carriedOut (Text.Utf8.decodeLossy line)

/-- One line of an interactive session: the faults it gives are shown at once. -/
def replLine (fuel : Nat) (session : Session) (line : List UInt8) : List Fault × Session :=
  let (_, session) := session.runLine fuel line
  let (faults, ledger) := session.ledger.drain
  (faults, { session with ledger := ledger })

/-- The exit code at the end of an interactive session. -/
def replExit (session : Session) : Nat :=
  if session.ledger.hadRuntime then Status.runtimeFault.exitCode else 0

/-- Runs the lines of an interactive session. -/
def replInput (fuel : Nat) (session : Session) (input : List UInt8) : Outcome :=
  let (faults, session) := (inputLines input).foldl
    (fun (faults, session) line =>
      let (new, session) := replLine fuel session line
      (faults ++ new, session))
    ([], session)
  ⟨replExit session, session.machine.sink.text, faultLines faults⟩

/-- The name and version of the program. -/
def versionText : String := "sinterp 0.1.0"

/-- How the program is used. -/
def usageText : String :=
  "Usage: sinterp [--log] <tokenize [--json] FILE | parse FILE | run FILE | repl>"

/-- Does something with the source in a file. -/
def withSource (file : String) (read : FileRead) (act : List UInt8 → Outcome) : Outcome :=
  match sourceOf file read with
  | .ok source => act source
  | .error outcome => outcome

/-- What a command does on a new session, given its file and the standard input. -/
def Command.perform (fuel : Nat) (session : Session) (read : FileRead) (input : List UInt8) :
    Command → Outcome
  | .tokenize file json => withSource file read (tokenizeSource json)
  | .parse file => withSource file read (parseSource session)
  | .run file => withSource file read (runSource fuel session)
  | .repl => replInput fuel session input
  | .version => ⟨0, asLines [versionText], ""⟩
  | .help => ⟨0, asLines [usageText], ""⟩

end ScriptLang
