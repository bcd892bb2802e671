/-
ScriptLang.Proofs.Session.HeapShape — the shape of the heap of a session.

Values point at objects and functions, and these at values again, so the heap
of a session has cycles. The frames do not take part in them: from the current
frame, and from the frame of every function and every method, links lead
outward to the frame of the globals and past no frame twice (`Shaped`). That
links lead to the globals is known from the scopes that frames mirror, except
for the current frame of a call, which is followed from task to task. That they
pass no frame twice is because nothing is around the globals.

The heap only grows: links and the classes of objects stay, and no name and no
field disappears.
-/
import ScriptLang.Proofs.Machine.Discipline
import ScriptLang.Proofs.Session.Control

namespace ScriptLang

open Binding (Scope)
open Reference (Agrees Begins Sim Slots)

/-! ## 1. Links outward -/

namespace Store

variable {s s' : Store} {root frame outer links : Nat}

theorem ancestor?_add (s : Store) (i j frame : Nat) :
    s.ancestor? (i + j) frame = (s.ancestor? i frame).bind (s.ancestor? j) := by
  induction i generalizing frame with
  | zero => simp [ancestor?]
  | succ i ih =>
    rw [Nat.add_right_comm, ancestor?, ancestor?, Option.bind_assoc]
    congr 1
    funext outer
    exact ih outer

/-- Links lead outward from a frame to the root, and past no frame twice. -/
structure Rooted (s : Store) (root frame : Nat) : Prop where
  exists_root : root < s.frames.size
  outermost : s.enclosing? root = none
  leads : ∃ links, s.ancestor? links frame = some root ∧
    ∀ i j, i < j → j ≤ links → s.ancestor? i frame ≠ s.ancestor? j frame

theorem Rooted.of_ancestor (hlt : root < s.frames.size) (hroot : s.enclosing? root = none)
    (h : s.ancestor? links frame = some root) : s.Rooted root frame := by
  refine ⟨hlt, hroot, links, h, fun i j hij hle heq => ?_⟩
  -- a frame that is passed twice would let the root be reached early, with links left over
  obtain ⟨rest, rfl⟩ := Nat.exists_eq_add_of_le hle
  obtain ⟨extra, rfl⟩ := Nat.exists_eq_add_of_lt hij
  have hearly : s.ancestor? (i + rest) frame = some root := by
    rw [ancestor?_add, heq, ← ancestor?_add]
    exact h
  have hlate : s.ancestor? (i + extra + 1 + rest) frame = none := by
    rw [show i + extra + 1 + rest = i + rest + (extra + 1) by omega, ancestor?_add, hearly,
      Option.bind_some, ancestor?, hroot, Option.bind_none]
  rw [hlate] at h
  cases h

theorem Rooted.lt (h : s.Rooted root frame) : frame < s.frames.size := by
  obtain ⟨links, hlinks, -⟩ := h.leads
  cases links with
  | zero =>
    cases hlinks
    exact h.exists_root
  | succ links =>
    rw [ancestor?, Option.bind_eq_some_iff] at hlinks
    obtain ⟨outer, hlink, -⟩ := hlinks
    exact s.lt_of_enclosing? hlink

theorem Rooted.link (h : s.Rooted root outer) (hlink : s.enclosing? frame = some outer) :
    s.Rooted root frame := by
  obtain ⟨links, hlinks, -⟩ := h.leads
  have hfrom : s.ancestor? (links + 1) frame = some root := by
    rw [ancestor?, hlink, Option.bind_some, hlinks]
  exact .of_ancestor h.exists_root h.outermost hfrom

theorem Grows.ancestor (h : s.Grows s') (hlinks : s.ancestor? links frame = some root) :
    s'.ancestor? links frame = some root := by
  induction links generalizing frame with
  | zero => exact hlinks
  | succ links ih =>
    rw [ancestor?, Option.bind_eq_some_iff] at hlinks
    obtain ⟨outer, houter, hrest⟩ := hlinks
    rw [ancestor?, h.enclosing (s.lt_of_enclosing? houter), houter, Option.bind_some, ih hrest]

theorem Rooted.grows (h : s.Rooted root frame) (hgrows : s.Grows s') : s'.Rooted root frame := by
  obtain ⟨links, hlinks, -⟩ := h.leads
  refine .of_ancestor (Nat.lt_of_lt_of_le h.exists_root hgrows.size) ?_ (hgrows.ancestor hlinks)
  rw [hgrows.enclosing h.exists_root, h.outermost]

end Store

/-! ## 2. Machines -/

/-- From the current frame, and from the frame of every function, bound method and method of a
class, links lead outward to the globals and past no frame twice. -/
structure Machine.Shaped (m : Machine) : Prop where
  current : m.store.Rooted m.globals m.frame
  function : ∀ {id : Nat} {closure}, m.store.functions[id]? = some closure →
    m.store.Rooted m.globals closure.frame
  method : ∀ {id : Nat} {info name method}, m.store.classes[id]? = some info →
    info.methods.get? name = some method → m.store.Rooted m.globals method.frame

section Machines

variable {P : List Scope → Mention → Prop} {m m' : ScriptLang.Machine} {slots : Slots} {r : Reference.Machine}
variable {fuel rest : Nat} {task task' : Task}

/-- A frame that mirrors scopes has as many links around it as there are scopes. -/
theorem Reference.Mirrors.leads {s : ScriptLang.Store} {globals frame : Nat} {S : List Scope}
    {locals : Reference.Locals} (h : Mirrors s slots globals S frame locals) :
    s.ancestor? S.length frame = some globals := by
  induction h with
  | top => rfl
  | inside hlink _ _ _ _ ih => 
    rw [List.length_cons, ScriptLang.Store.ancestor?, hlink, Option.bind_some, ih]

theorem Reference.ClosureAgrees.rooted {extra : List Scope} {closure : ScriptLang.Closure}
    {closure' : Closure} (hagrees : Agrees P ⟨slots, m, r⟩)
    (h : ClosureAgrees P m.globals slots m.store extra closure closure') :
    m.store.Rooted m.globals closure.frame := by
  obtain ⟨-, -, S, hmirrors, -, -⟩ := h
  exact .of_ancestor hagrees.cells.globalFrame hagrees.cells.root hmirrors.leads

/-- A machine that agrees with one of the reference evaluator is shaped if its current frame is
rooted. -/
theorem Reference.Agrees.shaped (h : Agrees P ⟨slots, m, r⟩)
    (hcurrent : m.store.Rooted m.globals m.frame) : m.Shaped := by
  refine ⟨hcurrent, fun {id closure} hid => ?_, fun {id info name method} hid hget => ?_⟩
  · have hrel := h.heap.function id
    rw [hid] at hrel
    generalize r.store.functions[id]? = closure'? at hrel
    cases hrel with
    | some hclosure => exact hclosure.rooted h
  · have hrel := h.heap.classInfo id
    rw [hid] at hrel
    generalize r.store.classes[id]? = info'? at hrel
    cases hrel with
    | some hclass =>
      have hmethod := hclass.2 name
      rw [hget] at hmethod
      generalize NameMap.get? _ name = method'? at hmethod
      cases hmethod with
      | some hclosure => exact hclosure.rooted h

/-- What a comparison says about the machine that is left behind. -/
theorem Reference.Sim.left {α β : Type} {current : Option Nat} {c : Config} {x : ScriptLang.Exec α}
    {y : Exec β} {Q : Config → α → β → Prop} (h : Sim P current c x y Q) :
    ∃ slots r, Agrees P ⟨slots, x.left c.machine, r⟩ := by
  unfold Sim at h
  unfold ScriptLang.Exec.left
  cases hx : x c.machine <;> cases hy : y c.reference <;> rw [hx, hy] at h
  · obtain ⟨slots, hagrees, -⟩ := h
    exact ⟨slots, _, hagrees⟩
  · exact h.elim
  · exact h.elim
  · obtain ⟨-, slots, hagrees, -⟩ := h
    exact ⟨slots, _, hagrees⟩

/-- A sound task leaves a machine behind that agrees with one of the reference evaluator. -/
theorem Reference.Begins.left (h : Begins P task m) (fuel : Nat) :
    ∃ slots r, Agrees P ⟨slots, (task.run fuel).left m, r⟩ := by
  obtain ⟨slots, r, hagrees, hsound⟩ := h
  have hsim := simulates P fuel
  cases task with
  | execute =>
    obtain ⟨S, env, hstands, hexact, hplaced⟩ := hsound
    exact (hsim.statement hagrees hstands hexact hplaced).left
  | executeAll =>
    obtain ⟨S, env, hstands, hexact, hplaced⟩ := hsound
    exact (hsim.statements hagrees hstands hexact hplaced).left
  | executeLoop =>
    obtain ⟨S, env, hstands, hexact, hP, hname, hplaced⟩ := hsound
    exact (hsim.loop hagrees hstands hexact hP hname hplaced).left
  | evaluate =>
    obtain ⟨S, locals, hmirrors, hP⟩ := hsound
    exact (hsim.expression hagrees hmirrors hP).left
  | evaluateOption =>
    obtain ⟨S, locals, hmirrors, hP⟩ := hsound
    exact (hsim.option hagrees hmirrors hP).left
  | evaluateAll =>
    obtain ⟨S, locals, hmirrors, hP⟩ := hsound
    exact (hsim.expressions hagrees hmirrors hP).left
  | call value paren arguments => exact (hsim.call hagrees value paren arguments).left
  | enter callee paren arguments =>
    obtain ⟨callee', hcallee, harity⟩ := hsound
    exact (hsim.enter hagrees hcallee paren harity).left
  | invoke =>
    obtain ⟨closure', hclosure, harity⟩ := hsound
    exact (hsim.invoke hagrees hclosure harity).left

/-! ## 3. The current frame -/

theorem Moves.globals_eq (h : Moves task m task' m') : m'.globals = m.globals := by
  cases h with
  | stays hrestored => exact hrestored.globals_eq
  | call | block | body => rfl

/-- If the current frame is rooted, so is the one in which a task is done that is asked for. -/
theorem Asks.rooted (hask : Asks fuel task m task' m') (hbegins : Begins P task m)
    (hrooted : m.store.Rooted m.globals m.frame) : m'.store.Rooted m'.globals m'.frame := by
  have hgrows := (Undertakes.step hask .here).grows.1
  rw [hask.moves.globals_eq]
  cases hask.moves with
  | stays hrestored =>
    rw [hrestored.frame_eq]
    exact hrooted.grows hgrows
  | call => exact hrooted
  | block =>
    refine (hrooted.grows hgrows).link ?_
    rw [Machine.inNewFrame, Store.enclosing?_addFrame, if_pos rfl]
  | @body closure arguments =>
    obtain ⟨slots, r, hagrees, closure', hclosure, -⟩ := hbegins
    exact ((hclosure.rooted hagrees).grows hgrows).link (enclosing?_forBody m closure arguments)

theorem Undertakes.rooted (h : Undertakes fuel task m rest task' m') (hbegins : Begins P task m)
    (hrooted : m.store.Rooted m.globals m.frame) :
    m'.globals = m.globals ∧ m'.store.Rooted m'.globals m'.frame := by
  induction h with
  | here => exact ⟨rfl, hrooted⟩
  | step hask _ ih =>
    obtain ⟨hglobals, hrooted'⟩ := ih (hbegins.asks hask) (hask.rooted hbegins hrooted)
    exact ⟨hglobals.trans hask.moves.globals_eq, hrooted'⟩

theorem ScriptUndertakes.rooted {statements : List Stmt}
    (h : ScriptUndertakes fuel statements m rest task m')
    (hbegins : ∀ task m', ScriptVisits fuel statements m task m' → Begins P task m')
    (hrooted : m.store.Rooted m.globals m.frame) :
    m'.globals = m.globals ∧ m'.store.Rooted m'.globals m'.frame := by
  induction h with
  | now hundertakes => exact hundertakes.rooted (hbegins _ _ (.now .here)) hrooted
  | @later s more m flow m₁ _ _ _ hdone _ ih =>
    have hrestored := (restores fuel (.execute s)).ok hdone
    have hgrows := grows_task fuel (.execute s) m
    rw [Exec.left_of_ok (x := Task.run fuel (.execute s)) hdone] at hgrows
    obtain ⟨hglobals, hrooted'⟩ := ih (fun _ _ hvisits => hbegins _ _ (.later hdone hvisits)) <| by
      rw [hrestored.globals_eq, hrestored.frame_eq]
      exact hrooted.grows hgrows
    exact ⟨hglobals.trans hrestored.globals_eq, hrooted'⟩

end Machines

/-! ## 4. Sessions -/

namespace Session

variable {session later : Session} {source : List UInt8} {fuel rest : Nat} {task : Task} {m : Machine}

/-- Running a unit, the evaluator begins a task with the fuel that is left. -/
def Undertaken (fuel : Nat) (session : Session) (source : List UInt8) : Events :=
  fun rest task m => session.ledger.hadStatic = false ∧ session.Faultless source ∧
    ScriptUndertakes fuel (session.script source).statements (session.bound source) rest task m

/-- What is begun while the script of a unit runs, with the hop counts of the script, is begun while
the unit runs. -/
theorem Undertaken.of_script {statements : List Stmt} {nextId : Nat} {hops : HopTable}
    (hstatic : session.ledger.hadStatic = false) (hfaultless : session.Faultless source)
    (hscript : session.script source = ⟨statements, [], nextId⟩)
    (hhops : (Binding.resolve statements session.machine.hops).1 = hops)
    (h : ScriptUndertakes fuel statements { session.machine with hops := hops } rest task m) :
    session.Undertaken fuel source rest task m := by
  refine ⟨hstatic, hfaultless, ?_⟩
  rw [bound, binding, hscript, hhops]
  exact h

/-- The machine of a new session, with hop counts for the mentions of a unit. -/
def startWith (hops : HopTable) : Machine :=
  { Machine.start .unbounded (steadyClock 0) with hops := hops }

/-- What units of source and any handling of the ledger make of a session. -/
inductive Onward (session : Session) : Session → Prop where
  | refl : Onward session session
  | ledger {later : Session} (ledger : Ledger) : Onward session later →
      Onward session { later with ledger := ledger }
  | parse {later : Session} (source : List UInt8) : Onward session later →
      Onward session (later.parse source).2
  | run {later : Session} (fuel : Nat) (source : List UInt8) : Onward session later →
      Onward session (later.run fuel source).2

theorem grows_run (fuel : Nat) (session : Session) (source : List UInt8) :
    (session.run fuel source).2.machine.globals = session.machine.globals ∧
      session.machine.store.Grows (session.run fuel source).2.machine.store := by
  rcases machine_run fuel session source with ⟨hops, hmachine⟩ | ⟨-, -, hmachine⟩
  · rw [hmachine]
    exact ⟨rfl, .refl _⟩
  · rw [hmachine]
    exact ⟨(restores_interpret fuel _ _).globals_eq, grows_interpret fuel _ (session.bound source)⟩

theorem Onward.grows (h : Onward session later) :
    later.machine.globals = session.machine.globals ∧
      session.machine.store.Grows later.machine.store := by
  induction h with
  | refl => exact ⟨rfl, .refl _⟩
  | ledger ledger _ ih => exact ih
  | parse source _ ih => exact ih
  | @run later fuel source _ ih =>
    obtain ⟨hglobals, hgrows⟩ := grows_run fuel later source
    exact ⟨hglobals.trans ih.1, ih.2.trans hgrows⟩

/-- Between two units the globals are current. -/
theorem Settled.shaped (h : Settled session) : session.machine.Shaped := by
  obtain ⟨slots, r, hagrees⟩ := h.agrees
  have hhere : session.machine.store.ancestor? 0 session.machine.frame =
      some session.machine.globals := by
    rw [Store.ancestor?, h.top]
  exact hagrees.shaped (.of_ancestor hagrees.cells.globalFrame hagrees.cells.root hhere)

/-- Everything that is begun while a unit runs is begun on a shaped machine, and leaves one behind. -/
theorem Settled.shaped_undertaken (h : Settled session)
    (hundertaken : session.Undertaken fuel source rest task m) :
    m.globals = session.machine.globals ∧ m.Shaped ∧ ((task.run rest).left m).Shaped := by
  obtain ⟨-, hfaultless, hundertakes⟩ := hundertaken
  have hbegins := h.begins hfaultless hundertakes.visits
  obtain ⟨hglobals, hrooted⟩ := hundertakes.rooted
    (fun _ _ hvisits => h.begins hfaultless hvisits) h.shaped.current
  refine ⟨hglobals, ?_, ?_⟩
  · obtain ⟨slots, r, hagrees, -⟩ := hbegins
    exact hagrees.shaped hrooted
  · obtain ⟨slots, r, hagrees⟩ := hbegins.left rest
    have hrestored := restores rest task m
    refine hagrees.shaped ?_
    rw [hrestored.globals_eq, hrestored.frame_eq]
    exact hrooted.grows (grows_task rest task m)

/-- In every session the heap keeps its shape. Between two units, and before and after everything
that the evaluator does while a unit runs, links lead outward from the current frame and from the
frames of all functions, bound methods and methods of classes, past no frame twice, to one and the
same frame of globals. And whatever is done, however it ends, the heap only grows: links outward and
the classes of objects stay as they are, and neither names of frames nor fields of objects
disappear. So a global variable, once defined, is defined in every session that follows. -/
theorem heap_shape (h : Reachable session) (fuel : Nat) (source : List UInt8) :
    session.machine.Shaped ∧
    (∀ rest task m, session.Undertaken fuel source rest task m →
      m.globals = session.machine.globals ∧ m.Shaped ∧ ((task.run rest).left m).Shaped ∧
      session.machine.store.Grows m.store ∧
      ((task.run rest).left m).store.Grows (session.run fuel source).2.machine.store) ∧
    (∀ rest task m, m.store.Grows ((task.run rest).left m).store ∧
      ∀ rest' task' m', Undertakes rest task m rest' task' m' → m.store.Grows m'.store ∧
        ((task'.run rest').left m').store.Grows ((task.run rest).left m).store) ∧
    (∀ later, session.Onward later → later.machine.globals = session.machine.globals ∧
      session.machine.store.Grows later.machine.store ∧
      ∀ name, (session.machine.store.get? session.machine.globals name).isSome →
        (later.machine.store.get? later.machine.globals name).isSome) := by
  have hsettled := h.settled
  have hshaped := hsettled.shaped
  refine ⟨hshaped, ?_, ?_, ?_⟩
  · rintro rest task m hundertaken
    obtain ⟨hglobals, hbefore, hafter⟩ := hsettled.shaped_undertaken hundertaken
    obtain ⟨hstatic, hfaultless, hundertakes⟩ := hundertaken
    obtain ⟨hfirst, hlast⟩ := hundertakes.grows
    refine ⟨hglobals, hbefore, hafter, hfirst, ?_⟩
    rw [machine_of_faultless fuel hstatic hfaultless]
    exact hlast
  · exact fun rest task m => ⟨grows_task rest task m, fun _ _ _ hundertakes => hundertakes.grows⟩
  · intro later honward
    obtain ⟨hglobals, hgrows⟩ := honward.grows
    refine ⟨hglobals, hgrows, fun name hname => ?_⟩
    have hroot := hshaped.current.outermost
    have hroot' := (hshaped.current.grows hgrows).outermost
    rw [Store.get?_root _ hroot] at hname
    rw [hglobals, Store.get?_root _ hroot']
    exact hgrows.bound hname

/-- A unit that declares a function in a block. -/
def localFunction : List UInt8 := spelling "\x7bfun f()\x7b\x7d\x7d"

theorem heap_shape_localFunction :
    let session := Session.start .unbounded (steadyClock 0)
    let after := (session.run 4 localFunction).2
    (∃ closure, after.machine.store.functions[0]? = some closure ∧ closure.frame = 1 ∧
      after.machine.store.Rooted after.machine.globals closure.frame) ∧
    (after.machine.store.get? after.machine.globals "clock").isSome ∧
    ∃ rest task m, session.Undertaken 4 localFunction rest task m ∧ m.frame = 1 ∧ m.Shaped := by
  intro session after
  have hfunction : after.machine.store.functions[0]?.map Closure.frame = some 1 := by decide +kernel
  have hclock : (session.machine.store.get? session.machine.globals "clock").isSome := by
    decide +kernel
  have hfaultless : session.Faultless localFunction :=
    ⟨by decide +kernel, by decide +kernel, by decide +kernel⟩
  have hreachable : Reachable session := .start .unbounded (steadyClock 0)
  have hafter : Reachable after := hreachable.run 4 localFunction
  have honward : session.Onward after := .run 4 localFunction .refl
  have hblock : ∃ rest task m, ScriptUndertakes 4 (session.script localFunction).statements
      (session.bound localFunction) rest task m ∧ m.frame = 1 := by
    have hstatements : (session.script localFunction).statements =
        [.block [.function ⟨⟨.identifier, "f", none, 1⟩, [], []⟩]] := by decide +kernel
    rw [hstatements]
    exact ⟨_, _, _, .now (.step .block .here), rfl⟩
  clear_value after
  obtain ⟨closure, hclosure, hframe⟩ := Option.map_eq_some_iff.mp hfunction
  obtain ⟨rest, task, m, hundertakes, hcurrent⟩ := hblock
  have hundertaken : session.Undertaken 4 localFunction rest task m := ⟨rfl, hfaultless, hundertakes⟩
  refine ⟨⟨closure, hclosure, hframe, (heap_shape hafter 0 []).1.function hclosure⟩, ?_, ?_⟩
  · exact ((heap_shape hreachable 0 []).2.2.2 after honward).2.2 "clock" hclock
  · exact ⟨rest, task, m, hundertaken, hcurrent,
      ((heap_shape hreachable 4 localFunction).2.1 rest task m hundertaken).2.1⟩

end Session

end ScriptLang
