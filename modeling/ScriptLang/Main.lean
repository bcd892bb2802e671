/-
ScriptLang.Main — the program around the library.

The outer layer reads the arguments, the file and the clock, calls
`ScriptLang.CommandLine`, and prints. An interactive session is read line by
line, so that each line is answered before the next is read.
-/
import ScriptLang.CommandLine
import Std.Time.DateTime.Timestamp

namespace ScriptLang

/-- Fuel for a run from the command line: more steps than a computer takes in a century. -/
def commandFuel : Nat := Nat.pow 2 62

/-- The problem behind a failed file operation. -/
def problemOf : IO.Error → FileProblem
  | .noFileOrDirectory .. => .missing
  | .permissionDenied .. => .denied
  | .inappropriateType _ code _ => if code = 20 then .notDirectory else .isDirectory
  | .invalidArgument _ 36 _ => .nameTooLong
  | error => .described (toString error)

/-- Opens and reads a file. -/
def readSource (file : String) : IO FileRead := do
  match ← (IO.FS.Handle.mk file .read).toBaseIO with
  | .error error => pure (.cannotOpen (problemOf error))
  | .ok handle =>
    match ← handle.readBinToEnd.toBaseIO with
    | .error error => pure (.cannotRead (problemOf error))
    | .ok bytes => pure (.contents bytes.data.toList)

/-- Answers the lines of the standard input one by one. -/
partial def interact (input output error : IO.FS.Stream) (session : Session) : IO Nat := do
  let bytes := (← input.getLine).toUTF8.data.toList
  if bytes.isEmpty then return replExit session
  let shown := session.machine.sink.written.size
  let (faults, session) := (inputLines bytes).foldl
    (fun (faults, session) line =>
      let (new, session) := replLine commandFuel session line
      (faults ++ new, session))
    ([], session)
  let written := session.machine.sink.written
  output.write ⟨written.extract shown written.size⟩
  output.flush
  error.putStr (faultLines faults)
  interact input output error session

end ScriptLang

open ScriptLang in
/-- The program. -/
def main (arguments : List String) : IO UInt32 := do
  let output ← IO.getStdout
  let error ← IO.getStderr
  match Command.ofArguments? arguments with
  | none =>
    error.putStr (asLines [usageText])
    return 2
  | some command =>
    let now := (← Std.Time.Timestamp.now).toMillisecondsSinceUnixEpoch.val.toNat
    let session := Session.start .unbounded (steadyClock (1000 * now))
    match command with
    | .repl => return (← interact (← IO.getStdin) output error session).toUInt32
    | command =>
      let read ← match command.file? with
        | some file => readSource file
        | none => pure (.contents [])
      let outcome := command.perform commandFuel session read []
      output.putStr outcome.stdout
      output.flush
      error.putStr outcome.stderr
      return outcome.exit.toUInt32
