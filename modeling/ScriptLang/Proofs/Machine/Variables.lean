/-
ScriptLang.Proofs.Machine.Variables — how a mention gets at its variable.

There are two ways to get at a variable from a frame: to search outward for the
nearest frame that has the name, and to go a given number of links outward and
look only there. A mention without a hop count searches from the globals, one
with a hop count addresses from the current frame (`readVariable_eq`,
`writeVariable_eq`).

So reading and writing fail for one reason only, which is that the name means
no variable.
-/
import ScriptLang.Proofs.Machine.Visits

namespace ScriptLang

/-- The fault about a name that means no variable. -/
def undefinedAt (name : Token) : Halt :=
  .fault (.runtime name.line (.undefinedVariable name.lexeme))

namespace Exec

/-! ## 1. Four accesses -/

/-- Reads a variable of the store, or fails because the name means none. -/
def readBy (name : Token) (read : Store → Option Value) : Exec Value := fun m =>
  match read m.store with
  | some value => .ok value m
  | none => undefined name m

/-- Changes a variable of the store, or fails because the name means none. -/
def writeBy (name : Token) (write : Store → Option Store) : Exec Unit := fun m =>
  match write m.store with
  | some store => .ok () { m with store := store }
  | none => undefined name m

/-- The value of the nearest variable of a name. -/
def readNearest (frame : Nat) (name : Token) : Exec Value :=
  readBy name (·.get? frame name.lexeme)

/-- Changes the nearest variable of a name. -/
def writeNearest (frame : Nat) (name : Token) (value : Value) : Exec Unit :=
  writeBy name (·.assign? frame name.lexeme value)

/-- The value of a variable exactly so many links outward. -/
def readAt (frame hops : Nat) (name : Token) : Exec Value :=
  readBy name (·.getAt? frame hops name.lexeme)

/-- Changes or creates a variable exactly so many links outward. -/
def writeAt (frame hops : Nat) (name : Token) (value : Value) : Exec Unit :=
  writeBy name (·.assignAt? frame hops name.lexeme value)

section Accesses

variable {m : Machine} {name : Token} {read : Store → Option Value} {write : Store → Option Store}
variable {s' : Store} {value : Value} {halt : Halt}

theorem readBy_of_some (h : read m.store = some value) : readBy name read m = .ok value m := by
  rw [readBy, h]

theorem readBy_of_none (h : read m.store = none) :
    readBy name read m = .error (undefinedAt name) m := by
  rw [readBy, h]
  rfl

theorem writeBy_of_some (h : write m.store = some s') :
    writeBy name write m = .ok () { m with store := s' } := by
  rw [writeBy, h]

theorem writeBy_of_none (h : write m.store = none) :
    writeBy name write m = .error (undefinedAt name) m := by
  rw [writeBy, h]
  rfl

theorem eq_undefinedAt_of_readBy (h : Fails (readBy name read) m halt) : halt = undefinedAt name := by
  obtain ⟨m', h⟩ := h
  cases hread : read m.store with
  | some value =>
    rw [readBy_of_some hread] at h
    cases h
  | none =>
    rw [readBy_of_none hread] at h
    cases h
    rfl

theorem eq_undefinedAt_of_writeBy (h : Fails (writeBy name write) m halt) :
    halt = undefinedAt name := by
  obtain ⟨m', h⟩ := h
  cases hwrite : write m.store with
  | some s' =>
    rw [writeBy_of_some hwrite] at h
    cases h
  | none =>
    rw [writeBy_of_none hwrite] at h
    cases h
    rfl

end Accesses

/-! ## 2. Mentions -/

/-- A mention reads by address if it has a hop count, and otherwise searches the globals. -/
theorem readVariable_eq (id : Nat) (name : Token) (m : Machine) :
    readVariable id name m = (m.hops.get? id).elim (readNearest m.globals name m)
      fun hops => readAt m.frame hops name m := by
  unfold readVariable readNearest readAt readBy
  cases m.hops.get? id <;> rfl

/-- A mention writes by address if it has a hop count, and otherwise searches the globals. -/
theorem writeVariable_eq (id : Nat) (name : Token) (value : Value) (m : Machine) :
    writeVariable id name value m = (m.hops.get? id).elim (writeNearest m.globals name value m)
      fun hops => writeAt m.frame hops name value m := by
  unfold writeVariable writeNearest writeAt writeBy Store.assign? Store.assignAt?
  cases m.hops.get? id with
  | none =>
    dsimp only [Option.elim_none]
    cases m.store.find? m.globals name.lexeme <;> rfl
  | some hops =>
    dsimp only [Option.elim_some]
    cases m.store.ancestor? hops m.frame <;> rfl

end Exec

section Undefined

open Exec

variable {m : Machine} {name : Token} {id : Nat} {value : Value} {halt : Halt}

/-- Reading a variable fails only because the name means none. -/
theorem eq_undefinedAt_of_readVariable (h : Fails (readVariable id name) m halt) :
    halt = undefinedAt name := by
  obtain ⟨m', h⟩ := h
  rw [readVariable_eq] at h
  cases hhops : m.hops.get? id with
  | none =>
    rw [hhops, Option.elim_none] at h
    exact eq_undefinedAt_of_readBy ⟨m', h⟩
  | some hops =>
    rw [hhops, Option.elim_some] at h
    exact eq_undefinedAt_of_readBy ⟨m', h⟩

/-- Changing a variable fails only because the name means none. -/
theorem eq_undefinedAt_of_writeVariable (h : Fails (writeVariable id name value) m halt) :
    halt = undefinedAt name := by
  obtain ⟨m', h⟩ := h
  rw [writeVariable_eq] at h
  cases hhops : m.hops.get? id with
  | none =>
    rw [hhops, Option.elim_none] at h
    exact eq_undefinedAt_of_writeBy ⟨m', h⟩
  | some hops =>
    rw [hhops, Option.elim_some] at h
    exact eq_undefinedAt_of_writeBy ⟨m', h⟩

end Undefined

end ScriptLang
