/-
ScriptLang.Proofs.Reference.Steps — the single steps of the two evaluators do
the same.

`Sim` compares two computations from corresponding states: both give results,
or both halt for the same reason, and the states they leave correspond again.
It is closed under `bind`, so a comparison follows the text of what it
compares. Here are the steps that involve no evaluation: variables, the three
kinds of declarations, new frames, properties and the results of calls.
-/
import ScriptLang.Proofs.Reference.Correspondence

namespace ScriptLang.Reference

open Binding (Scope thisScope declared Fresh parameterScope scopesAfter declaredName?)
open Binding (Placed PlacedAll PlacedRoutine PlacedMethods)

/-! ## 1. Comparing computations -/

section Sim

variable {P : List Scope → Mention → Prop} {current : Option Nat} {c : Config}
variable {α β γ δ : Type}

/-- From the states `c`, both computations give results that satisfy `Q`, or both halt for the
same reason, and the states afterwards correspond. -/
def Sim (P : List Scope → Mention → Prop) (current : Option Nat) (c : Config)
    (x : ScriptLang.Exec α) (y : Exec β) (Q : Config → α → β → Prop) : Prop :=
  match x c.machine, y c.reference with
  | .ok a m, .ok b r =>
    ∃ slots, Agrees P ⟨slots, m, r⟩ ∧ Step current c ⟨slots, m, r⟩ ∧ Q ⟨slots, m, r⟩ a b
  | .error halt m, .error halt' r =>
    halt' = halt ∧ ∃ slots, Agrees P ⟨slots, m, r⟩ ∧ Step current c ⟨slots, m, r⟩
  | _, _ => False

namespace Sim

/-- Two computations that give results. -/
theorem ok {x : ScriptLang.Exec α} {y : Exec β} {Q : Config → α → β → Prop} (a : α) (b : β)
    {c' : Config} (hx : x c.machine = .ok a c'.machine) (hy : y c.reference = .ok b c'.reference)
    (hagrees : Agrees P c') (hstep : Step current c c') (hQ : Q c' a b) :
    Sim P current c x y Q := by
  unfold Sim
  rw [hx, hy]
  exact ⟨c'.slots, hagrees, hstep, hQ⟩

/-- Two computations that halt for the same reason. -/
theorem error {x : ScriptLang.Exec α} {y : Exec β} {Q : Config → α → β → Prop} (halt : Halt)
    {c' : Config} (hx : x c.machine = .error halt c'.machine)
    (hy : y c.reference = .error halt c'.reference) (hagrees : Agrees P c')
    (hstep : Step current c c') : Sim P current c x y Q := by
  unfold Sim
  rw [hx, hy]
  exact ⟨rfl, c'.slots, hagrees, hstep⟩

theorem pure {Q : Config → α → β → Prop} (hagrees : Agrees P c) {a : α} {b : β} (hQ : Q c a b) :
    Sim P current c (Pure.pure a) (Pure.pure b) Q :=
  ok a b rfl rfl hagrees (Step.refl current c) hQ

/-- Halting at once. -/
theorem throw {Q : Config → α → β → Prop} (hagrees : Agrees P c) (halt : Halt) :
    Sim P current c (MonadExcept.throw halt) (MonadExcept.throw halt) Q :=
  error halt rfl rfl hagrees (Step.refl current c)

theorem raise {Q : Config → α → β → Prop} (hagrees : Agrees P c) (token : Token)
    (cause : RuntimeCause) :
    Sim P current c (ScriptLang.Exec.raise token cause) (Exec.raise token cause) Q :=
  throw hagrees _

theorem get (hagrees : Agrees P c) :
    Sim P current c MonadState.get MonadState.get fun c' m r => m = c'.machine ∧ r = c'.reference :=
  ok c.machine c.reference rfl rfl hagrees (Step.refl current c) ⟨rfl, rfl⟩

/-- Only what the computations do from the states `c` matters. -/
theorem congr {x : ScriptLang.Exec α} {y : Exec β} {Q : Config → α → β → Prop}
    (x' : ScriptLang.Exec α) (y' : Exec β) (h : Sim P current c x' y' Q) (hx : x c.machine = x' c.machine)
    (hy : y c.reference = y' c.reference) : Sim P current c x y Q := by
  unfold Sim at h ⊢
  rw [hx, hy]
  exact h

theorem bind {x : ScriptLang.Exec α} {y : Exec β} {f : α → ScriptLang.Exec γ} {g : β → Exec δ}
    {Q : Config → α → β → Prop} {R : Config → γ → δ → Prop} (h : Sim P current c x y Q)
    (hf : ∀ c' a b, Agrees P c' → Step current c c' → Q c' a b → Sim P current c' (f a) (g b) R) :
    Sim P current c (x >>= f) (y >>= g) R := by
  unfold Sim at h ⊢
  show match EStateM.bind x f c.machine, EStateM.bind y g c.reference with
    | .ok a m, .ok b r => _
    | .error halt m, .error halt' r => _
    | _, _ => False
  unfold EStateM.bind
  cases hx : x c.machine with
  | ok a m =>
    cases hy : y c.reference with
    | ok b r =>
      rw [hx, hy] at h
      obtain ⟨slots, hagrees, hstep, hQ⟩ := h
      have hnext := hf ⟨slots, m, r⟩ a b hagrees hstep hQ
      unfold Sim at hnext
      dsimp only at hnext ⊢
      cases hfa : f a m with
      | ok a' m' =>
        cases hgb : g b r with
        | ok b' r' =>
          rw [hfa, hgb] at hnext
          obtain ⟨slots', hagrees', hstep', hR⟩ := hnext
          exact ⟨slots', hagrees', hstep.trans hstep', hR⟩
        | error halt' r' => rw [hfa, hgb] at hnext; exact hnext.elim
      | error halt m' =>
        cases hgb : g b r with
        | ok b' r' => rw [hfa, hgb] at hnext; exact hnext.elim
        | error halt' r' =>
          rw [hfa, hgb] at hnext
          obtain ⟨hhalt, slots', hagrees', hstep'⟩ := hnext
          exact ⟨hhalt, slots', hagrees', hstep.trans hstep'⟩
    | error halt' r => rw [hx, hy] at h; exact h.elim
  | error halt m =>
    cases hy : y c.reference with
    | ok b r => rw [hx, hy] at h; exact h.elim
    | error halt' r => rw [hx, hy] at h; exact h

/-- A step of the reference evaluator that the machine does not take. -/
theorem bind_right {x : ScriptLang.Exec α} {y : Exec β} {g : β → Exec δ}
    {Q : Config → Unit → β → Prop} {R : Config → α → δ → Prop}
    (h : Sim P current c (Pure.pure ()) y Q)
    (hg : ∀ c' b, Agrees P c' → Step current c c' → Q c' () b → Sim P current c' x (g b) R) :
    Sim P current c x (y >>= g) R :=
  congr (Pure.pure () >>= fun _ => x) (y >>= g) (h.bind fun c' _ b => hg c' b) rfl rfl

/-- The reference evaluator gives more of a result than the machine. -/
theorem map_right {x : ScriptLang.Exec α} {y : Exec β} {g : β → δ} {Q : Config → α → β → Prop}
    {R : Config → α → δ → Prop} (h : Sim P current c x y Q)
    (hg : ∀ c' a b, Step current c c' → Q c' a b → R c' a (g b)) :
    Sim P current c x (y >>= fun b => Pure.pure (g b)) R := by
  refine congr (x >>= Pure.pure) _ (h.bind ?_) (by rw [bind_pure]) rfl
  intro c' a b hagrees hstep hQ
  exact pure hagrees (hg c' a b hstep hQ)

theorem imp {current' : Option Nat} {x : ScriptLang.Exec α} {y : Exec β}
    {Q R : Config → α → β → Prop} (h : Sim P current c x y Q)
    (hstep : ∀ c', Step current c c' → Step current' c c')
    (himp : ∀ c' a b, Step current c c' → Q c' a b → R c' a b) : Sim P current' c x y R := by
  unfold Sim at h ⊢
  cases hx : x c.machine with
  | ok a m =>
    cases hy : y c.reference with
    | ok b r =>
      rw [hx, hy] at h
      obtain ⟨slots, hagrees, hs, hQ⟩ := h
      exact ⟨slots, hagrees, hstep _ hs, himp _ a b hs hQ⟩
    | error halt' r => rw [hx, hy] at h; exact h
  | error halt m =>
    cases hy : y c.reference with
    | ok b r => rw [hx, hy] at h; exact h
    | error halt' r =>
      rw [hx, hy] at h
      obtain ⟨hhalt, slots, hagrees, hs⟩ := h
      exact ⟨hhalt, slots, hagrees, hstep _ hs⟩

theorem mono {x : ScriptLang.Exec α} {y : Exec β} {Q R : Config → α → β → Prop}
    (h : Sim P current c x y Q)
    (himp : ∀ c' a b, Step current c c' → Q c' a b → R c' a b) : Sim P current c x y R :=
  h.imp (fun _ hs => hs) himp

/-- What changes no frame that was there before changes no frame but the current one. -/
theorem weaken {x : ScriptLang.Exec α} {y : Exec β} {Q : Config → α → β → Prop}
    (h : Sim P none c x y Q) :
    Sim P current c x y fun c' a b => Step none c c' ∧ Q c' a b :=
  h.imp (fun _ hs => hs.weaken current) fun _ _ _ hs hQ => ⟨hs, hQ⟩

end Sim

/-! ## 2. Steps that leave the variables alone -/

/-- The states after a change that concerns neither variables nor what values point at. -/
theorem Step.of_store (current : Option Nat) {c' : Config}
    (hslots : c'.slots = c.slots) (hframes : c'.machine.store.frames = c.machine.store.frames)
    (hframe : c'.machine.frame = c.machine.frame) (hglobals : c'.machine.globals = c.machine.globals)
    (hhops : c'.machine.hops = c.machine.hops) : Step current c c' where
  grown := by
    rw [hslots]
    exact Grown.of_frames c.slots hframes
  size := Nat.le_of_eq (by rw [hframes])
  others _ _ _ _ := by rw [hslots]
  frame := hframe
  globals := hglobals
  hops := hhops

theorem sim_ofExcept (hagrees : Agrees P c) (token : Token) (result : Except RuntimeCause Value) :
    Sim P current c (ScriptLang.Exec.ofExcept token result) (Exec.ofExcept token result)
      fun _ a b => b = a := by
  cases result with
  | ok value => exact Sim.pure hagrees rfl
  | error cause => exact Sim.raise hagrees token cause

theorem sim_printLine (hagrees : Agrees P c) (value : Value) :
    Sim P none c (ScriptLang.Exec.printLine value) (Exec.printLine value) fun _ _ _ => True := by
  have hshown := hagrees.heap.display value
  generalize hwrite : c.machine.sink.write
    (Text.Utf8.encode (c.machine.store.display value ++ "\n")) = written
  obtain ⟨fault?, sink⟩ := written
  have hagrees' : Agrees P ⟨c.slots, { c.machine with sink := sink },
      { c.reference with sink := sink }⟩ :=
    ⟨hagrees.cells, hagrees.heap, hagrees.addressed, hagrees.depth, rfl, hagrees.clock,
      hagrees.readings⟩
  have hstep : Step none c ⟨c.slots, { c.machine with sink := sink },
      { c.reference with sink := sink }⟩ := Step.of_store none rfl rfl rfl rfl rfl
  cases fault? with
  | none =>
    refine Sim.ok () () ?_ ?_ hagrees' hstep trivial
    · simp only [ScriptLang.Exec.printLine, hwrite]
    · simp only [Exec.printLine, hshown, hagrees.sink, hwrite]
  | some message =>
    refine Sim.error (.fault (.output message)) ?_ ?_ hagrees' hstep
    · simp only [ScriptLang.Exec.printLine, hwrite]
    · simp only [Exec.printLine, hshown, hagrees.sink, hwrite]

theorem sim_callHost (hagrees : Agrees P c) (provided : HostFunction) (paren : Token)
    (arguments : List Value) :
    Sim P none c (ScriptLang.Exec.callHost provided paren arguments)
      (Exec.callHost provided paren arguments) fun _ a b => b = a := by
  have hagrees' : Agrees P ⟨c.slots, { c.machine with readings := c.machine.readings + 1 },
      { c.reference with readings := c.reference.readings + 1 }⟩ :=
    ⟨hagrees.cells, hagrees.heap, hagrees.addressed, hagrees.depth, hagrees.sink,
      hagrees.clock, by simp only [hagrees.readings]⟩
  have hstep : Step none c ⟨c.slots, { c.machine with readings := c.machine.readings + 1 },
      { c.reference with readings := c.reference.readings + 1 }⟩ :=
    Step.of_store none rfl rfl rfl rfl rfl
  have hsame : provided.run (c.reference.clock c.reference.readings)
        (arguments.map fun value => (value, c.reference.store.display value))
      = provided.run (c.machine.clock c.machine.readings)
        (arguments.map fun value => (value, c.machine.store.display value)) := by
    simp only [hagrees.heap.display, hagrees.clock, hagrees.readings]
  cases hrun : provided.run (c.machine.clock c.machine.readings)
      (arguments.map fun value => (value, c.machine.store.display value)) with
  | ok value =>
    refine Sim.ok value value ?_ ?_ hagrees' hstep rfl
    · simp only [ScriptLang.Exec.callHost, hrun]
    · simp only [Exec.callHost, hsame, hrun]
  | error message =>
    refine Sim.error (.fault (.runtime paren.line (.described .native message))) ?_ ?_ hagrees' hstep
    · simp only [ScriptLang.Exec.callHost, hrun]
      rfl
    · simp only [Exec.callHost, hsame, hrun]
      rfl

theorem sim_asCall {α β : Type} {x : ScriptLang.Exec α} {y : Exec β} {R : α → β → Prop}
    (hagrees : Agrees P c)
    (hbody : ∀ c', Agrees P c' → Step none c c' → Sim P none c' x y fun _ a b => R a b) :
    Sim P none c (ScriptLang.Exec.asCall x) (Exec.asCall y) fun _ a b => R a b := by
  have hdeeper : Agrees P ⟨c.slots, { c.machine with depth := c.machine.depth + 1 },
      { c.reference with depth := c.reference.depth + 1 }⟩ :=
    ⟨hagrees.cells, hagrees.heap, hagrees.addressed, by simp [hagrees.depth], hagrees.sink,
      hagrees.clock, hagrees.readings⟩
  have h := hbody _ hdeeper (Step.of_store none rfl rfl rfl rfl rfl)
  have hback : ∀ {slots m r}, Agrees P ⟨slots, m, r⟩ → Agrees P ⟨slots,
      { m with depth := m.depth - 1 }, { r with depth := r.depth - 1 }⟩ := by
    intro slots m r h
    exact ⟨h.cells, h.heap, h.addressed, by have := h.depth; simp_all, h.sink, h.clock,
      h.readings⟩
  unfold Sim at h ⊢
  unfold ScriptLang.Exec.asCall Exec.asCall
  dsimp only at h ⊢
  cases hx : x { c.machine with depth := c.machine.depth + 1 } with
  | ok a m =>
    cases hy : y { c.reference with depth := c.reference.depth + 1 } with
    | ok b r =>
      rw [hx, hy] at h
      obtain ⟨slots, h', hstep, hR⟩ := h
      exact ⟨slots, hback h', ⟨hstep.grown, hstep.size, hstep.others, hstep.frame, hstep.globals,
        hstep.hops⟩, hR⟩
    | error halt' r => rw [hx, hy] at h; exact h.elim
  | error halt m =>
    cases hy : y { c.reference with depth := c.reference.depth + 1 } with
    | ok b r => rw [hx, hy] at h; exact h.elim
    | error halt' r =>
      rw [hx, hy] at h
      obtain ⟨hhalt, slots, h', hstep⟩ := h
      exact ⟨hhalt, slots, hback h', ⟨hstep.grown, hstep.size, hstep.others, hstep.frame,
        hstep.globals, hstep.hops⟩⟩

/-- A change of the objects. -/
theorem sim_onObjects {α : Type} (hagrees : Agrees P c) (a : α) (objects : Array Object) :
    Sim P none c
      (ScriptLang.Exec.onStore fun store => (a, { store with objects := objects }))
      (Exec.onStore fun store => (a, { store with objects := objects })) fun _ x y => x = a ∧ y = a := by
  have hagrees' : Agrees P ⟨c.slots,
      { c.machine with store := { c.machine.store with objects := objects } },
      { c.reference with store := { c.reference.store with objects := objects } }⟩ :=
    ⟨hagrees.cells.congr rfl rfl rfl, hagrees.heap.onObjects objects, hagrees.addressed,
      hagrees.depth, hagrees.sink, hagrees.clock, hagrees.readings⟩
  refine Sim.ok a a ?_ ?_ hagrees' (Step.of_store none rfl rfl rfl rfl rfl) ⟨rfl, rfl⟩
  · rfl
  · rfl

/-- An instance without fields is made. -/
theorem sim_addObject (hagrees : Agrees P c) (classId : Nat) :
    Sim P none c (ScriptLang.Exec.onStore (·.addObject classId))
      (Exec.onStore (·.addObject classId)) fun _ a b => b = a := by
  have h := sim_onObjects hagrees c.machine.store.objects.size
    (c.machine.store.objects.push ⟨classId, .empty⟩)
  refine Sim.congr _ _ (h.mono ?_) rfl ?_
  · rintro c' _ _ - ⟨rfl, rfl⟩
    rfl
  · rw [← hagrees.heap.objects]
    rfl

/-- A field of an instance gets a value. -/
theorem sim_setField (hagrees : Agrees P c) (object : Nat) (name : String) (value : Value) :
    Sim P none c (ScriptLang.Exec.onStore fun store => ((), store.setField object name value))
      (Exec.onStore fun store => ((), store.setField object name value)) fun _ _ _ => True := by
  have h := sim_onObjects hagrees () (c.machine.store.objects.modify object fun o =>
    { o with fields := o.fields.insert name value })
  refine Sim.congr _ _ (h.mono fun _ _ _ _ _ => trivial) rfl ?_
  rw [← hagrees.heap.objects]
  rfl

theorem sim_addFunction {closure : ScriptLang.Closure} {closure' : Closure} (hagrees : Agrees P c)
    (hclosure : ClosureAgrees P c.machine.globals c.slots c.machine.store [] closure closure') :
    Sim P none c (ScriptLang.Exec.onStore (·.addFunction closure))
      (Exec.onStore (·.addFunction closure')) fun _ a b => b = a := by
  have hagrees' : Agrees P ⟨c.slots,
      { c.machine with store := (c.machine.store.addFunction closure).2 },
      { c.reference with store := (c.reference.store.addFunction closure').2 }⟩ :=
    ⟨hagrees.cells.congr rfl rfl rfl, hagrees.heap.addFunction hclosure, hagrees.addressed,
      hagrees.depth, hagrees.sink, hagrees.clock, hagrees.readings⟩
  refine Sim.ok (.function c.machine.store.functions.size)
    (.function c.reference.store.functions.size) ?_ ?_ hagrees'
    (Step.of_store none rfl rfl rfl rfl rfl) (by rw [hagrees.heap.functionCount])
  · rfl
  · rfl

theorem sim_addClass {info : ScriptLang.ClassInfo} {info' : ClassInfo} (hagrees : Agrees P c)
    (hclass : ClassAgrees P c.machine.globals c.slots c.machine.store info info') :
    Sim P none c (ScriptLang.Exec.onStore (·.addClass info)) (Exec.onStore (·.addClass info'))
      fun _ a b => b = a := by
  have hagrees' : Agrees P ⟨c.slots,
      { c.machine with store := (c.machine.store.addClass info).2 },
      { c.reference with store := (c.reference.store.addClass info').2 }⟩ :=
    ⟨hagrees.cells.congr rfl rfl rfl, hagrees.heap.addClass hclass, hagrees.addressed,
      hagrees.depth, hagrees.sink, hagrees.clock, hagrees.readings⟩
  refine Sim.ok (.classRef c.machine.store.classes.size)
    (.classRef c.reference.store.classes.size) ?_ ?_ hagrees'
    (Step.of_store none rfl rfl rfl rfl rfl) (by rw [hagrees.heap.classCount])
  · rfl
  · rfl

/-! ## 3. Variables -/

/-- The value of the variable that a mention means. -/
def mentioned? (m : ScriptLang.Machine) (id : Nat) (name : String) : Option Value :=
  match m.hops.get? id with
  | some hops => m.store.getAt? m.frame hops name
  | none => m.store.get? m.globals name

/-- The value of the variable that a name means. -/
def named? (m : Machine) (locals : Locals) (name : String) : Option Value :=
  match locals.get? name with
  | some location => m.store.cells[location]?.join
  | none => m.store.globals.get? name

/-- How reading a variable ends, if this is the value it has. -/
def readResult {σ : Type} (name : Token) (m : σ) : Option Value → EStateM.Result Halt σ Value
  | some value => .ok value m
  | none => .error (.fault (.runtime name.line (.undefinedVariable name.lexeme))) m

/-- A mention means the same variable in both states. -/
theorem Agrees.value {S : List Scope} {locals : Locals} {role : MentionRole} {id : Nat}
    {name : Token} (hagrees : Agrees P c) (hmirrors : c.Mirrors S locals)
    (hP : P S ⟨role, id, name⟩) :
    mentioned? c.machine id name.lexeme = named? c.reference locals name.lexeme := by
  have haddress : c.machine.hops.get? id = S.findIdx? (·.contains name.lexeme) :=
    hagrees.addressed S _ hP
  unfold mentioned? named?
  cases hidx : S.findIdx? (·.contains name.lexeme) with
  | none =>
    simp only [haddress, hidx, hmirrors.absent hidx]
    rw [c.machine.store.get?_root hagrees.cells.root, hagrees.cells.global]
  | some hops =>
    obtain ⟨target, location, scope, hancestor, hslot, hlocal, -, -⟩ := hmirrors.found hidx
    simp only [haddress, hidx, hlocal]
    rw [ScriptLang.Store.getAt?, hancestor, Option.bind_some]
    exact (hagrees.cells.slot hslot).2.2.2

theorem sim_readVariable {S : List Scope} {locals : Locals} {role : MentionRole} {id : Nat}
    {name : Token} (hagrees : Agrees P c) (hmirrors : c.Mirrors S locals)
    (hP : P S ⟨role, id, name⟩) :
    Sim P none c (ScriptLang.Exec.readVariable id name) (Exec.readVariable locals name)
      fun _ a b => b = a := by
  have hx : ScriptLang.Exec.readVariable id name c.machine
      = readResult name c.machine (mentioned? c.machine id name.lexeme) := rfl
  have hy : Exec.readVariable locals name c.reference
      = readResult name c.reference (named? c.reference locals name.lexeme) := rfl
  rw [hagrees.value hmirrors hP] at hx
  cases hvalue : named? c.reference locals name.lexeme with
  | some value =>
    rw [hvalue] at hx hy
    exact Sim.ok value value hx hy hagrees (Step.refl none c) rfl
  | none =>
    rw [hvalue] at hx hy
    exact Sim.error _ hx hy hagrees (Step.refl none c)

/-- The states after a variable that has a slot got a value. -/
theorem Agrees.write {frame location : Nat} {name : String} (hagrees : Agrees P c)
    (hslot : c.slots frame name = some location) (value : Value) :
    Agrees P ⟨c.slots, { c.machine with store := c.machine.store.define frame name value },
      { c.reference with store := c.reference.store.write location value }⟩ :=
  ⟨hagrees.cells.write hslot, hagrees.heap.grow (Grown.define ..) ⟨rfl, rfl, rfl, rfl⟩
    ⟨rfl, rfl, rfl, rfl⟩, hagrees.addressed, hagrees.depth, hagrees.sink, hagrees.clock,
    hagrees.readings⟩

/-- The states after a global variable got a value. -/
theorem Agrees.defineGlobal (hagrees : Agrees P c) (name : String) (value : Value) :
    Agrees P ⟨c.slots,
      { c.machine with store := c.machine.store.define c.machine.globals name value },
      { c.reference with store := c.reference.store.defineGlobal name value }⟩ :=
  ⟨hagrees.cells.defineGlobal, hagrees.heap.grow (Grown.define ..) ⟨rfl, rfl, rfl, rfl⟩
    ⟨rfl, rfl, rfl, rfl⟩, hagrees.addressed, hagrees.depth, hagrees.sink, hagrees.clock,
    hagrees.readings⟩

/-- A value for a variable makes no new variables of frames that have slots. -/
theorem Step.define (current : Option Nat) (frame : Nat) (name : String) (value : Value)
    (reference : Machine) :
    Step current c ⟨c.slots, { c.machine with store := c.machine.store.define frame name value },
      reference⟩ where
  grown := Grown.define ..
  size := by simp
  others _ _ _ _ := rfl
  frame := rfl
  globals := rfl
  hops := rfl

theorem sim_writeVariable {S : List Scope} {locals : Locals} {role : MentionRole} {id : Nat}
    {name : Token} (hagrees : Agrees P c) (hmirrors : c.Mirrors S locals)
    (hP : P S ⟨role, id, name⟩) (value : Value) :
    Sim P none c (ScriptLang.Exec.writeVariable id name value)
      (Exec.writeVariable locals name value) fun _ _ _ => True := by
  have haddress : c.machine.hops.get? id = S.findIdx? (·.contains name.lexeme) :=
    hagrees.addressed S _ hP
  cases hidx : S.findIdx? (·.contains name.lexeme) with
  | some hops =>
    obtain ⟨target, location, scope, hancestor, hslot, hlocal, -, -⟩ := hmirrors.found hidx
    refine Sim.ok () () ?_ ?_ (hagrees.write hslot value)
      (Step.define none target name.lexeme value _) trivial
    · simp only [ScriptLang.Exec.writeVariable, haddress, hidx, hancestor]
    · simp only [Exec.writeVariable, hlocal]
  | none =>
    have hlocal := hmirrors.absent hidx
    have hglobal := hagrees.cells.global name.lexeme
    cases hdefined : c.machine.store.getHere? c.machine.globals name.lexeme with
    | some old =>
      have hfind := c.machine.store.find?_here (by simp [hdefined] :
        (c.machine.store.getHere? c.machine.globals name.lexeme).isSome = true)
      refine Sim.ok () () ?_ ?_ (hagrees.defineGlobal name.lexeme value)
        (Step.define none c.machine.globals name.lexeme value _) trivial
      · simp only [ScriptLang.Exec.writeVariable, haddress, hidx, hfind]
      · rw [hdefined] at hglobal
        simp [Exec.writeVariable, hlocal, NameMap.contains, ← hglobal]
    | none =>
      have hfind := c.machine.store.find?_root hagrees.cells.root (by simp [hdefined] :
        (c.machine.store.getHere? c.machine.globals name.lexeme).isSome = false)
      refine Sim.error (.fault (.runtime name.line (.undefinedVariable name.lexeme))) ?_ ?_ hagrees
        (Step.refl none c)
      · simp only [ScriptLang.Exec.writeVariable, haddress, hidx, hfind]
        rfl
      · rw [hdefined] at hglobal
        simp only [Exec.writeVariable, hlocal, NameMap.contains, ← hglobal, Option.isSome_none,
          Bool.false_eq_true, if_false]
        rfl

/-! ## 4. Declarations -/

/-- A declaration makes a location where the frame has no variable yet. -/
theorem sim_declare {S : List Scope} {env : Env} {name : String} (hagrees : Agrees P c)
    (hstands : c.Stands S env) (hexact : c.Exact S) (hfresh : Fresh S name) :
    Sim P (some c.machine.frame) c (Pure.pure ()) (Exec.declare env name) fun c' _ env' =>
      c'.Stands (declared S name false) env' ∧ c'.Exact (declared S name false) := by
  obtain ⟨hmirrors, hplace⟩ := hstands
  cases env with
  | top =>
    subst hplace
    exact Sim.pure hagrees ⟨⟨hmirrors, rfl⟩, hexact⟩
  | inside locals =>
    cases S with
    | nil => exact absurd rfl hplace
    | cons scope outer =>
      have hnot : scope.contains name = false := hfresh scope rfl
      have hfree : c.slots c.machine.frame name = none := by
        cases hslot : c.slots c.machine.frame name with
        | none => rfl
        | some location =>
          have := hexact scope rfl name (by simp [hslot])
          rw [hnot] at this
          exact absurd this (by simp)
      have hgrown : Grown c.machine.store c.slots c.machine.store
          (c.slots.set c.machine.frame name c.reference.store.cells.size) := Grown.set hfree _
      have hagrees' : Agrees P
          ⟨c.slots.set c.machine.frame name c.reference.store.cells.size, c.machine,
            { c.reference with store := c.reference.store.addCell.2 }⟩ :=
        ⟨hagrees.cells.addCell (hagrees.frame_ne hmirrors) (hagrees.frame_lt hmirrors) hfree,
          hagrees.heap.grow hgrown ⟨rfl, rfl, rfl, rfl⟩ ⟨rfl, rfl, rfl, rfl⟩, hagrees.addressed,
          hagrees.depth, hagrees.sink, hagrees.clock, hagrees.readings⟩
      refine Sim.ok () (.inside (locals.insert name c.reference.store.cells.size)) ?_ ?_ hagrees'
        ⟨hgrown, Nat.le_refl _, ?_, rfl, rfl, rfl⟩ ⟨⟨?_, by simp [declared]⟩, ?_⟩
      · rfl
      · rfl
      · intro frame _ hne other
        have hother : ¬ (frame = c.machine.frame ∧ other = name) := fun h => hne (by rw [h.1])
        exact if_neg hother
      · exact Reference.Mirrors.declare hmirrors hfree
      · intro scope' hscope' other hother
        obtain rfl : scope.insert name false = scope' := by simpa [declared] using hscope'
        rw [NameMap.contains_insert]
        by_cases hname : other = name
        · simp [hname]
        · have hold : (c.slots c.machine.frame other).isSome := by
            simpa [Slots.set, hname] using hother
          simp [hexact scope rfl other hold]

/-- A declared variable gets its value. -/
theorem sim_define {S : List Scope} {env : Env} {name : String} {before : Bool}
    (hagrees : Agrees P c) (hstands : c.Stands (declared S name before) env)
    (hexact : c.Exact (declared S name before)) (value : Value) :
    Sim P (some c.machine.frame) c (ScriptLang.Exec.defineHere name value)
      (Exec.define env name value) fun c' _ _ =>
        c'.Stands (declared S name true) env ∧ c'.Exact (declared S name true) ∧
          (c'.machine.store.getHere? c'.machine.frame name).isSome := by
  obtain ⟨hmirrors, hplace⟩ := hstands
  have hlt := hagrees.frame_lt hmirrors
  have hvalue : ((c.machine.store.define c.machine.frame name value).getHere?
      c.machine.frame name).isSome := by
    rw [c.machine.store.getHere?_define hlt, if_pos ⟨rfl, rfl⟩]
    rfl
  cases S with
  | nil =>
    cases env with
    | inside locals => exact absurd rfl hplace
    | top =>
      have hframe : c.machine.frame = c.machine.globals := by
        unfold Config.Mirrors at hmirrors
        generalize c.machine.frame = frame at hmirrors
        cases hmirrors with
        | top => rfl
      have hagrees' := hagrees.defineGlobal name value
      rw [← hframe] at hagrees'
      have hstep : Step (some c.machine.frame) c _ :=
        Step.define (some c.machine.frame) c.machine.frame name value
          { c.reference with store := c.reference.store.defineGlobal name value }
      exact Sim.ok () () rfl rfl hagrees' hstep ⟨⟨hstep.mirrors hmirrors, rfl⟩, hexact, hvalue⟩
  | cons scope outer =>
    cases env with
    | top => exact absurd hplace (by simp [declared])
    | inside locals =>
      obtain ⟨location, hslot, hlocal⟩ : ∃ location,
          c.slots c.machine.frame name = some location ∧ locals.get? name = some location := by
        cases hmirrors with
        | inside _ _ hslots _ hlocals =>
          have hcontains : (scope.insert name before).contains name = true := by
            simp [NameMap.contains_insert]
          obtain ⟨location, hslot⟩ := Option.isSome_iff_exists.mp (hslots name hcontains)
          have hlocal := hlocals name
          rw [if_pos hcontains, hslot] at hlocal
          exact ⟨location, hslot, hlocal⟩
      have hstep : Step (some c.machine.frame) c _ :=
        Step.define (some c.machine.frame) c.machine.frame name value
          { c.reference with store := c.reference.store.write location value }
      refine Sim.ok () () rfl ?_ (hagrees.write hslot value) hstep ⟨⟨?_, by simp [declared]⟩, ?_, hvalue⟩
      · simp only [Exec.define, hlocal]
        rfl
      · exact Reference.Mirrors.ready (hstep.mirrors hmirrors) hvalue
      · intro scope' hscope' other hother
        obtain rfl : scope.insert name true = scope' := by simpa [declared] using hscope'
        have hold := hexact (scope.insert name before) rfl other hother
        simpa [NameMap.contains_insert] using hold

/-- A function is declared: its name is in scope in its own body. -/
theorem sim_declareFunction {S : List Scope} {env : Env} {routine : Routine}
    (hagrees : Agrees P c) (hstands : c.Stands (declared S routine.name.lexeme false) env)
    (hexact : c.Exact (declared S routine.name.lexeme false))
    (hplaced : PlacedRoutine P (declared S routine.name.lexeme true) routine) :
    Sim P (some c.machine.frame) c (ScriptLang.Exec.declareFunction routine)
      (do
        let value ← Exec.onStore (·.addFunction ⟨routine, env.locals, false⟩)
        Exec.define env routine.name.lexeme value)
      fun c' _ _ => c'.Stands (declared S routine.name.lexeme true) env ∧
        c'.Exact (declared S routine.name.lexeme true) := by
  have hcount := hagrees.heap.functionCount
  -- the function is made before its name gets a value; the other order leads to the same states
  refine Sim.congr (do
      ScriptLang.Exec.defineHere routine.name.lexeme (.function c.machine.store.functions.size)
      let _ ← ScriptLang.Exec.onStore (·.addFunction ⟨routine, c.machine.frame, false⟩)
      Pure.pure ())
    (do
      Exec.define env routine.name.lexeme (.function c.machine.store.functions.size)
      let _ ← Exec.onStore (·.addFunction ⟨routine, env.locals, false⟩)
      Pure.pure ()) ?_ rfl ?_
  · refine (sim_define hagrees hstands hexact _).bind ?_
    rintro c₁ - - hagrees₁ hstep₁ ⟨hstands₁, hexact₁, -⟩
    have hclosure : ClosureAgrees P c₁.machine.globals c₁.slots c₁.machine.store []
        ⟨routine, c.machine.frame, false⟩ ⟨routine, env.locals, false⟩ := by
      refine ⟨rfl, rfl, declared S routine.name.lexeme true, ?_, hplaced, fun _ h => absurd h (by simp)⟩
      rw [← hstep₁.frame]
      exact hstands₁.1
    have hlt := hagrees₁.frame_lt hstands₁.1
    refine (sim_addFunction hagrees₁ hclosure).weaken.bind ?_
    rintro c₂ - - hagrees₂ - ⟨hstep₂, -⟩
    exact Sim.pure hagrees₂ ⟨hstep₂.stands hstands₁, hstep₂.exact hlt hexact₁⟩
  · cases env with
    | top => simp only [← hcount]; rfl
    | inside locals =>
      simp only [Exec.define, ← hcount]
      cases locals.get? routine.name.lexeme <;> rfl

/-- The methods of a class, by name. -/
theorem rel_insertAll {α β γ : Type} {R : α → β → Prop} (key : γ → String) (f : γ → α) (g : γ → β)
    (items : List γ) (h : ∀ item ∈ items, R (f item) (g item)) (name : String) :
    Option.Rel R ((NameMap.empty.insertAll (items.map fun item => (key item, f item))).get? name)
      ((NameMap.empty.insertAll (items.map fun item => (key item, g item))).get? name) := by
  suffices hall : ∀ (m : NameMap α) (n : NameMap β), Option.Rel R (m.get? name) (n.get? name) →
      Option.Rel R ((m.insertAll (items.map fun item => (key item, f item))).get? name)
        ((n.insertAll (items.map fun item => (key item, g item))).get? name) by
    exact hall .empty .empty .none
  induction items with
  | nil => exact fun _ _ hrel => hrel
  | cons item rest ih =>
    intro m n hrel
    refine ih (fun item' hmem => h item' (List.mem_cons_of_mem _ hmem)) _ _ ?_
    rw [NameMap.get?_insert, NameMap.get?_insert]
    split
    · exact .some (h item (List.mem_cons_self ..))
    · exact hrel

/-- Gives the nearest variable of a name a value. -/
def defineFound (frame : Nat) (name : Token) (value : Value) : ScriptLang.Exec Unit := do
  match (← get).store.find? frame name.lexeme with
  | some frame => ScriptLang.Exec.onStore fun store => ((), store.define frame name.lexeme value)
  | none => ScriptLang.Exec.undefined name

/-- A class is declared: its name is in scope in its own methods. -/
theorem sim_declareClass {S : List Scope} {env : Env} {name : Token} {methods : List Routine}
    (hagrees : Agrees P c) (hstands : c.Stands (declared S name.lexeme false) env)
    (hexact : c.Exact (declared S name.lexeme false))
    (hplaced : PlacedMethods P (thisScope :: declared S name.lexeme true) methods) :
    Sim P (some c.machine.frame) c (ScriptLang.Exec.declareClass name methods)
      (do
        Exec.define env name.lexeme .nil
        let closures := methods.map fun method =>
          (method.name.lexeme, Closure.mk method env.locals method.isInitializer)
        let value ← Exec.onStore (·.addClass ⟨name.lexeme, NameMap.empty.insertAll closures⟩)
        Exec.define env name.lexeme value)
      fun c' _ _ => c'.Stands (declared S name.lexeme true) env ∧
        c'.Exact (declared S name.lexeme true) := by
  refine (sim_define hagrees hstands hexact .nil).bind ?_
  rintro c₁ - - hagrees₁ hstep₁ ⟨hstands₁, hexact₁, hbound₁⟩
  have hlt := hagrees₁.frame_lt hstands₁.1
  have hclass : ClassAgrees P c₁.machine.globals c₁.slots c₁.machine.store
      ⟨name.lexeme, NameMap.empty.insertAll (methods.map fun method =>
        (method.name.lexeme, ScriptLang.Closure.mk method c₁.machine.frame method.isInitializer))⟩
      ⟨name.lexeme, NameMap.empty.insertAll (methods.map fun method =>
        (method.name.lexeme, Closure.mk method env.locals method.isInitializer))⟩ := by
    refine ⟨rfl, fun other => rel_insertAll (fun method : Routine => method.name.lexeme)
      (fun method => ScriptLang.Closure.mk method c₁.machine.frame method.isInitializer)
      (fun method => Closure.mk method env.locals method.isInitializer) methods ?_ other⟩
    intro method hmem
    exact ⟨rfl, rfl, _, hstands₁.1, hplaced.routine hmem, fun h => absurd h (by simp)⟩
  rw [← hstep₁.frame]
  refine Sim.congr (do
      let value ← ScriptLang.Exec.onStore (·.addClass ⟨name.lexeme,
        NameMap.empty.insertAll (methods.map fun method => (method.name.lexeme,
          ScriptLang.Closure.mk method c₁.machine.frame method.isInitializer))⟩)
      defineFound c₁.machine.frame name value) _ ?_ rfl rfl
  refine (sim_addClass hagrees₁ hclass).weaken.bind ?_
  rintro c₂ _ value hagrees₂ - ⟨hstep₂, rfl⟩
  have hbound₂ := hstep₂.grown.bound hbound₁
  have hfind := c₂.machine.store.find?_here hbound₂
  refine Sim.congr (ScriptLang.Exec.defineHere name.lexeme value) (Exec.define env name.lexeme value)
    ?_ ?_ rfl
  · rw [← hstep₂.frame]
    refine (sim_define hagrees₂ (hstep₂.stands hstands₁) (hstep₂.exact hlt hexact₁) value).mono ?_
    rintro c₃ - - - ⟨hstands₃, hexact₃, -⟩
    exact ⟨hstands₃, hexact₃⟩
  · show (match c₂.machine.store.find? c₁.machine.frame name.lexeme with
      | some frame => ScriptLang.Exec.onStore fun store => ((), store.define frame name.lexeme value)
      | none => ScriptLang.Exec.undefined name : ScriptLang.Exec Unit) c₂.machine = _
    rw [hfind, ← hstep₂.frame]
    rfl

/-! ## 5. New frames -/

/-- The states after a frame without variables was made. -/
theorem Agrees.addFrame (hagrees : Agrees P c) (enclosing : Option Nat) (frame : Nat) :
    Agrees P ⟨c.slots,
      { c.machine with store := (c.machine.store.addFrame enclosing).2, frame := frame },
      c.reference⟩ :=
  ⟨hagrees.cells.addFrame enclosing, hagrees.heap.grow (Grown.addFrame ..) ⟨rfl, rfl, rfl, rfl⟩
    ⟨rfl, rfl, rfl, rfl⟩, hagrees.addressed, hagrees.depth, hagrees.sink, hagrees.clock,
    hagrees.readings⟩

/-- The states after a frame got a variable that has a value. -/
theorem Agrees.introduce {frame : Nat} {name : String} (hagrees : Agrees P c)
    (hne : frame ≠ c.machine.globals) (hlt : frame < c.machine.store.frames.size)
    (hfree : c.slots frame name = none) (value : Value) :
    Agrees P ⟨c.slots.set frame name c.reference.store.cells.size,
      { c.machine with store := c.machine.store.define frame name value },
      { c.reference with store := (c.reference.store.addValue value).2 }⟩ :=
  ⟨hagrees.cells.addValue hne hlt hfree,
    hagrees.heap.grow ((Grown.define ..).trans (Grown.set hfree _)) ⟨rfl, rfl, rfl, rfl⟩
      ⟨rfl, rfl, rfl, rfl⟩, hagrees.addressed, hagrees.depth, hagrees.sink, hagrees.clock,
    hagrees.readings⟩

/-- A frame that does not exist has no slots. -/
theorem Agrees.free {frame : Nat} (hagrees : Agrees P c)
    (hle : c.machine.store.frames.size ≤ frame) (name : String) : c.slots frame name = none := by
  cases hslot : c.slots frame name with
  | none => rfl
  | some location =>
    have := (hagrees.cells.slot hslot).2.1
    omega

/-- A new frame has no variables. -/
theorem Agrees.exact_newFrame (hagrees : Agrees P c) (outer : Nat) (S : List Scope) :
    Config.Exact ⟨c.slots, { c.machine with
      store := (c.machine.store.addFrame (some outer)).2
      frame := c.machine.store.frames.size }, c.reference⟩ (.empty :: S) := by
  intro scope _ name hname
  rw [hagrees.free (Nat.le_refl _) name] at hname
  exact absurd hname (by simp)

/-- Does something in a new frame inside another one. -/
def inNewFrame {α : Type} (outer : Nat) (body : ScriptLang.Exec α) : ScriptLang.Exec α := fun m =>
  ScriptLang.Exec.inFrame m.store.frames.size body
    { m with store := (m.store.addFrame (some outer)).2 }

/-- Something that happens in a new frame leaves the frames that were there before alone. -/
theorem sim_inNewFrame {α β : Type} {outer : Nat} {S : List Scope} {locals : Locals}
    {x : ScriptLang.Exec α} {y : Exec β} {R : α → β → Prop} (hagrees : Agrees P c)
    (hmirrors : Reference.Mirrors c.machine.store c.slots c.machine.globals S outer locals)
    (hbody : ∀ c', Agrees P c' → c'.Mirrors (.empty :: S) locals → c'.Exact (.empty :: S) →
      Sim P (some c'.machine.frame) c' x y fun _ a b => R a b) :
    Sim P none c (inNewFrame outer x) y fun _ a b => R a b := by
  have hagrees' := hagrees.addFrame (some outer) c.machine.store.frames.size
  have h := hbody _ hagrees' hmirrors.enter (hagrees.exact_newFrame outer S)
  have hback : ∀ {slots m r}, Step (some c.machine.store.frames.size)
      ⟨c.slots, { c.machine with
        store := (c.machine.store.addFrame (some outer)).2
        frame := c.machine.store.frames.size }, c.reference⟩ ⟨slots, m, r⟩ →
      Step none c ⟨slots, { m with frame := c.machine.frame }, r⟩ := by
    intro slots m r hstep
    have hsize := hstep.size
    rw [ScriptLang.Store.size_addFrame] at hsize
    refine ⟨(Grown.addFrame ..).trans hstep.grown, Nat.le_trans (Nat.le_succ _) hsize, ?_, rfl, hstep.globals,
      hstep.hops⟩
    intro frame hlt _ name
    refine hstep.others frame ?_ ?_ name
    · simp only [ScriptLang.Store.size_addFrame]
      omega
    · intro heq
      have := Option.some.inj heq
      omega
  have hkeep : ∀ {slots m r}, Agrees P ⟨slots, m, r⟩ →
      Agrees P ⟨slots, { m with frame := c.machine.frame }, r⟩ :=
    fun h => ⟨h.cells, h.heap, h.addressed, h.depth, h.sink, h.clock, h.readings⟩
  unfold Sim at h ⊢
  unfold inNewFrame ScriptLang.Exec.inFrame
  dsimp only at h ⊢
  cases hx : x { c.machine with
      store := (c.machine.store.addFrame (some outer)).2
      frame := c.machine.store.frames.size } with
  | ok a m =>
    cases hy : y c.reference with
    | ok b r =>
      rw [hx, hy] at h
      obtain ⟨slots, h', hstep, hR⟩ := h
      exact ⟨slots, hkeep h', hback hstep, hR⟩
    | error halt' r => rw [hx, hy] at h; exact h.elim
  | error halt m =>
    cases hy : y c.reference with
    | ok b r => rw [hx, hy] at h; exact h.elim
    | error halt' r =>
      rw [hx, hy] at h
      obtain ⟨hhalt, slots, h', hstep⟩ := h
      exact ⟨hhalt, slots, hkeep h', hback hstep⟩

/-- A new variable of the current frame. -/
theorem sim_introduce {scope : Scope} {outer : List Scope} {locals : Locals} {name : String}
    (hagrees : Agrees P c) (hmirrors : c.Mirrors (scope :: outer) locals)
    (hexact : c.Exact (scope :: outer)) (hnot : scope.contains name = false) (value : Value) :
    Sim P (some c.machine.frame) c (ScriptLang.Exec.defineHere name value)
      (Exec.onStore (·.addValue value)) fun c' _ location =>
        c'.Mirrors (scope.insert name true :: outer) (locals.insert name location) ∧
          c'.Exact (scope.insert name true :: outer) := by
  have hlt := hagrees.frame_lt hmirrors
  have hfree : c.slots c.machine.frame name = none := by
    cases hslot : c.slots c.machine.frame name with
    | none => rfl
    | some location =>
      have := hexact scope rfl name (by simp [hslot])
      rw [hnot] at this
      exact absurd this (by simp)
  have hagrees' := hagrees.introduce (hagrees.frame_ne hmirrors) hlt hfree value
  refine Sim.ok () c.reference.store.cells.size ?_ ?_ hagrees'
    ⟨(Grown.define ..).trans (Grown.set hfree _), by simp, ?_, rfl, rfl, rfl⟩ ⟨?_, ?_⟩
  · rfl
  · rfl
  · intro frame _ hne other
    have hother : ¬ (frame = c.machine.frame ∧ other = name) := fun h => hne (by rw [h.1])
    exact if_neg hother
  · exact Reference.Mirrors.introduce value hmirrors hlt hfree
  · intro scope' hscope' other hother
    obtain rfl : scope.insert name true = scope' := by simpa using hscope'
    rw [NameMap.contains_insert]
    by_cases hname : other = name
    · simp [hname]
    · have hold : (c.slots c.machine.frame other).isSome := by
        simpa [Slots.set, hname] using hother
      simp [hexact scope rfl other hold]

/-- Gives some variables of the current frame values, one after the other. -/
def defineAllHere : List (String × Value) → ScriptLang.Exec Unit
  | [] => Pure.pure ()
  | (name, value) :: rest => do
    ScriptLang.Exec.defineHere name value
    defineAllHere rest

theorem defineAllHere_eq (pairs : List (String × Value)) (m : ScriptLang.Machine) :
    defineAllHere pairs m = .ok () { m with store := m.store.defineAll m.frame pairs } := by
  induction pairs generalizing m with
  | nil => rfl
  | cons pair rest ih =>
    show defineAllHere rest { m with store := m.store.define m.frame pair.1 pair.2 } = _
    rw [ih]
    rfl

/-- What comes after all variables got their values. -/
theorem defineAllHere_bind {α : Type} (pairs : List (String × Value)) (body : ScriptLang.Exec α)
    (m : ScriptLang.Machine) :
    (defineAllHere pairs >>= fun _ => body) m
      = body { m with store := m.store.defineAll m.frame pairs } := by
  show EStateM.bind (defineAllHere pairs) _ m = _
  unfold EStateM.bind
  rw [defineAllHere_eq]

theorem sim_bindParameters {outer : List Scope} (parameters : List Token) (arguments : List Value)
    (scope : Scope) (locals : Locals) (hagrees : Agrees P c)
    (hmirrors : c.Mirrors (scope :: outer) locals) (hexact : c.Exact (scope :: outer))
    (hnodup : (parameters.map Token.lexeme).Nodup)
    (hnew : ∀ t ∈ parameters, scope.contains t.lexeme = false)
    (hlength : arguments.length = parameters.length) :
    Sim P (some c.machine.frame) c (defineAllHere ((parameters.map Token.lexeme).zip arguments))
      (Exec.bindParameters locals ((parameters.map Token.lexeme).zip arguments))
      fun c' _ locals' =>
        c'.Mirrors (parameters.foldl (fun scope t => scope.insert t.lexeme true) scope :: outer)
          locals' ∧
        c'.Exact (parameters.foldl (fun scope t => scope.insert t.lexeme true) scope :: outer) := by
  induction parameters generalizing arguments c scope locals with
  | nil => exact Sim.pure hagrees ⟨hmirrors, hexact⟩
  | cons t parameters ih =>
    cases arguments with
    | nil => simp at hlength
    | cons value arguments =>
      rw [List.map_cons, List.nodup_cons] at hnodup
      refine (sim_introduce hagrees hmirrors hexact (hnew t (List.mem_cons_self ..)) value).bind ?_
      rintro c₁ - location hagrees₁ hstep₁ ⟨hmirrors₁, hexact₁⟩
      rw [← hstep₁.frame]
      refine ih arguments _ _ hagrees₁ hmirrors₁ hexact₁ hnodup.2 ?_ (by simpa using hlength)
      intro t' ht'
      have hne : t'.lexeme ≠ t.lexeme := fun heq => hnodup.1 (heq ▸ List.mem_map_of_mem ht')
      rw [NameMap.contains_insert, hnew t' (List.mem_cons_of_mem _ ht')]
      simp [hne]

/-- A method is bound to an instance. -/
theorem sim_bindMethod {method : ScriptLang.Closure} {method' : Closure} (hagrees : Agrees P c)
    (hmethod : ClosureAgrees P c.machine.globals c.slots c.machine.store [thisScope] method method')
    (object : Nat) :
    Sim P none c (ScriptLang.Exec.onStore (·.bindMethod method object))
      (Exec.onStore (·.bindMethod method' object)) fun c' bound bound' =>
        bound.routine = method.routine ∧
        ClosureAgrees P c'.machine.globals c'.slots c'.machine.store [] bound bound' := by
  obtain ⟨hroutine, hinit, S, hmirrors, hplaced, -⟩ := hmethod
  have hfree := hagrees.free (Nat.le_refl _) selfName
  have hne : c.machine.store.frames.size ≠ c.machine.globals := by
    have := hagrees.cells.globalFrame
    omega
  have hframe := hagrees.addFrame (some method.frame) c.machine.frame
  have hagrees' := hframe.introduce hne (by simp) hfree (.object object)
  have hgrown : Grown c.machine.store c.slots _ _ :=
    ((Grown.addFrame c.machine.store c.slots (some method.frame)).trans
      (Grown.define _ _ c.machine.store.frames.size selfName (.object object))).trans
      (Grown.set hfree c.reference.store.cells.size)
  refine Sim.ok { method with frame := c.machine.store.frames.size }
    { method' with locals := method'.locals.insert selfName c.reference.store.cells.size }
    ?_ ?_ hagrees' ⟨hgrown, by simp, ?_, rfl, rfl, rfl⟩
    ⟨rfl, hroutine, hinit, thisScope :: S, ?_, hplaced, fun _ _ => rfl⟩
  · rfl
  · rfl
  · intro frame hlt _ name
    have hother : ¬ (frame = c.machine.store.frames.size ∧ name = selfName) := by
      rintro ⟨rfl, -⟩
      omega
    exact if_neg hother
  · exact hmirrors.enter.introduce (.object object) (by simp) hfree

/-- A property of an instance is read. -/
theorem sim_readProperty (hagrees : Agrees P c) (object : Nat) (name : Token) :
    Sim P none c (ScriptLang.Exec.readProperty object name) (Exec.readProperty object name)
      fun _ a b => b = a := by
  have hfield : c.reference.store.field? object name.lexeme
      = c.machine.store.field? object name.lexeme := by
    rw [Store.field?, ScriptLang.Store.field?, hagrees.heap.objects]
  have hmethod : Option.Rel
      (ClosureAgrees P c.machine.globals c.slots c.machine.store [thisScope])
      (c.machine.store.methodOf? object name.lexeme)
      (c.reference.store.methodOf? object name.lexeme) := by
    unfold Store.methodOf? ScriptLang.Store.methodOf?
    rw [hagrees.heap.objects]
    cases c.machine.store.objects[object]? with
    | none => exact .none
    | some instance' =>
      show Option.Rel _ (c.machine.store.classes[instance'.classId]? >>= _)
        (c.reference.store.classes[instance'.classId]? >>= _)
      generalize hinfo : c.machine.store.classes[instance'.classId]? = info
      generalize hinfo' : c.reference.store.classes[instance'.classId]? = info'
      have hclass := hagrees.heap.classInfo instance'.classId
      rw [hinfo, hinfo'] at hclass
      cases hclass with
      | none => exact .none
      | some hclass => exact hclass.2 name.lexeme
  cases hvalue : c.machine.store.field? object name.lexeme with
  | some value =>
    refine Sim.ok value value ?_ ?_ hagrees (Step.refl none c) rfl
    · simp only [ScriptLang.Exec.readProperty, hvalue]
    · simp only [Exec.readProperty, hfield, hvalue]
  | none =>
    generalize hfound : c.machine.store.methodOf? object name.lexeme = found at hmethod
    generalize hfound' : c.reference.store.methodOf? object name.lexeme = found' at hmethod
    cases hmethod with
    | none =>
      refine Sim.error (.fault (.runtime name.line (.undefinedProperty name.lexeme))) ?_ ?_ hagrees
        (Step.refl none c)
      · simp only [ScriptLang.Exec.readProperty, hvalue, hfound]
        rfl
      · simp only [Exec.readProperty, hfield, hvalue, hfound']
        rfl
    | @some method method' hagreesMethod =>
      refine Sim.congr (do
          let bound ← ScriptLang.Exec.onStore (·.bindMethod method object)
          ScriptLang.Exec.onStore (·.addFunction bound))
        (do
          let bound ← Exec.onStore (·.bindMethod method' object)
          Exec.onStore (·.addFunction bound)) ?_ ?_ ?_
      · refine (sim_bindMethod hagrees hagreesMethod object).bind ?_
        rintro c₁ bound bound' hagrees₁ - ⟨-, hbound⟩
        exact sim_addFunction hagrees₁ hbound
      · simp only [ScriptLang.Exec.readProperty, hvalue, hfound]
        rfl
      · simp only [Exec.readProperty, hfield, hvalue, hfound']
        rfl

/-- A call gives its result. -/
theorem sim_resultOfCall {closure : ScriptLang.Closure} {closure' : Closure} (hagrees : Agrees P c)
    (hclosure : ClosureAgrees P c.machine.globals c.slots c.machine.store [] closure closure')
    (flow : Flow) :
    Sim P none c (ScriptLang.Exec.resultOfCall closure flow) (Exec.resultOfCall closure' flow)
      fun _ a b => b = a := by
  obtain ⟨-, hinit, S, hmirrors, -, hhead⟩ := hclosure
  cases hkind : closure.isInitializer with
  | false =>
    rw [hkind] at hinit
    cases flow with
    | normal =>
      refine Sim.ok .nil .nil ?_ ?_ hagrees (Step.refl none c) rfl
      · simp only [ScriptLang.Exec.resultOfCall, hkind, Bool.false_eq_true, if_false]
        rfl
      · simp only [Exec.resultOfCall, hinit, Bool.false_eq_true, if_false]
    | returned value =>
      refine Sim.ok value value ?_ ?_ hagrees (Step.refl none c) rfl
      · simp only [ScriptLang.Exec.resultOfCall, hkind, Bool.false_eq_true, if_false]
        rfl
      · simp only [Exec.resultOfCall, hinit, Bool.false_eq_true, if_false]
  | true =>
    rw [hkind] at hinit
    have hscope := hhead rfl hkind
    generalize hframe : closure.frame = frame at hmirrors
    cases hmirrors with
    | top => exact absurd hscope (by simp)
    | inside henclosing houter hslots hbound hlocals =>
      obtain rfl := Option.some.inj hscope
      have hcontains : thisScope.contains selfName = true := by
        simp [thisScope, NameMap.contains_insert]
      obtain ⟨location, hslot⟩ := Option.isSome_iff_exists.mp (hslots selfName hcontains)
      have hlocal := hlocals selfName
      rw [if_pos hcontains, hslot] at hlocal
      have hvalue := (hagrees.cells.slot hslot).2.2.2
      refine Sim.ok ((c.machine.store.getHere? frame selfName).getD .nil)
        ((c.machine.store.getHere? frame selfName).getD .nil) ?_ ?_ hagrees
        (Step.refl none c) rfl
      · simp only [ScriptLang.Exec.resultOfCall, hkind, if_true, hframe]
        rfl
      · simp only [Exec.resultOfCall, hinit, if_true, hlocal, Option.bind_some, hvalue]

end Sim

end ScriptLang.Reference
