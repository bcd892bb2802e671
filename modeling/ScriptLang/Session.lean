/-
ScriptLang.Session — scripts run one after another on the same machine.

A session takes units of source: a whole file, or one line of an interactive
session. Each unit is scanned, read, bound and run. A static fault anywhere
before stops the unit before it runs, and since the mark for static faults
stays set, also the units after it, until `runLine` or `Ledger.resetStatic`
wipes it. Variables, functions and hop counts last from one unit to the next,
and so does the count of expression identities, which keeps the identities of
different units apart.
-/
import ScriptLang.Binding
import ScriptLang.Grammar
import ScriptLang.Ledger
import ScriptLang.Machine.Evaluate
import ScriptLang.Token.Scan

namespace ScriptLang

/-- How a unit ended. -/
inductive Status where
  | ok
  /-- There were static faults; nothing was run. -/
  | staticFault
  /-- Running stopped at a fault. -/
  | runtimeFault
  /-- Running did not end within the fuel it was given. -/
  | unfinished
  deriving DecidableEq, Repr

/-- The exit code of a process that ends with a unit. -/
def Status.exitCode : Status → Nat
  | .ok => 0
  | .staticFault => 65
  | .runtimeFault => 70
  | .unfinished => 75

/-- A machine, its ledger, and the next unused expression identity. -/
structure Session where
  machine : Machine
  ledger : Ledger
  nextId : Nat

namespace Session

/-- A session on a new machine. -/
def start (sink : Sink) (clock : Nat → Float) : Session :=
  ⟨.start sink clock, .empty, 0⟩

/-- The tokens of a unit. Lexical faults are reported. -/
def scan (session : Session) (source : List UInt8) : List Token × Session :=
  let items := ScriptLang.scan source
  (tokensOf items, { session with ledger := session.ledger.reportAll (faultsOf items) })

/-- The statements of a unit. Faults are reported. -/
def parse (session : Session) (source : List UInt8) : List Stmt × Session :=
  let (tokens, session) := session.scan source
  let parsed := Grammar.parse tokens session.nextId
  (parsed.statements,
    { session with
      ledger := session.ledger.reportAll parsed.faults
      nextId := parsed.nextId })

/-- Binds the names of statements. Faults are reported. -/
def resolve (session : Session) (statements : List Stmt) : Session :=
  let (hops, faults) := Binding.resolve statements session.machine.hops
  { session with
    machine := { session.machine with hops := hops }
    ledger := session.ledger.reportAll faults }

/-- Runs statements that are bound. A fault is reported. -/
def interpret (fuel : Nat) (session : Session) (statements : List Stmt) : Status × Session :=
  match ScriptLang.interpret fuel statements session.machine with
  | .ok () machine => (.ok, { session with machine := machine })
  | .error (.fault fault) machine =>
    (.runtimeFault,
      { session with machine := machine, ledger := session.ledger.report fault })
  | .error .outOfFuel machine => (.unfinished, { session with machine := machine })

/-- Runs a unit. -/
def run (fuel : Nat) (session : Session) (source : List UInt8) : Status × Session :=
  let (statements, session) := session.parse source
  if session.ledger.hadStatic then (.staticFault, session)
  else
    let session := session.resolve statements
    if session.ledger.hadStatic then (.staticFault, session)
    else session.interpret fuel statements

/-- Runs a line of an interactive session: the static faults of earlier lines are forgotten. -/
def runLine (fuel : Nat) (session : Session) (source : List UInt8) : Status × Session :=
  run fuel { session with ledger := session.ledger.resetStatic } source

end Session

end ScriptLang
