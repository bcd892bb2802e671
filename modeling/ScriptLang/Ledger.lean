/-
ScriptLang.Ledger — the faults of a session, kept until they are shown.

The ledger holds the faults since they were last drained and two marks. The
static mark keeps scripts from running and is wiped between the lines of an
interactive session, together with the static faults still held. The runtime
mark is never wiped: it decides the exit code at the end.
-/
import ScriptLang.Fault

namespace ScriptLang

/-- The faults held, and what kinds of faults there were. -/
structure Ledger where
  faults : List Fault
  hadStatic : Bool
  hadRuntime : Bool
  deriving DecidableEq, Repr

namespace Ledger

/-- The ledger before any fault. -/
def empty : Ledger := ⟨[], false, false⟩

/-- Takes in a fault. -/
def report (ledger : Ledger) (fault : Fault) : Ledger where
  faults := ledger.faults ++ [fault]
  hadStatic := ledger.hadStatic || fault.isStatic
  hadRuntime := ledger.hadRuntime || !fault.isStatic

/-- Takes in faults in order. -/
def reportAll (ledger : Ledger) (faults : List Fault) : Ledger :=
  faults.foldl report ledger

/-- Gives the held faults out. The marks stay. -/
def drain (ledger : Ledger) : List Fault × Ledger :=
  (ledger.faults, { ledger with faults := [] })

/-- Forgets static faults. -/
def resetStatic (ledger : Ledger) : Ledger :=
  { ledger with faults := ledger.faults.filter (!·.isStatic), hadStatic := false }

end Ledger

end ScriptLang
