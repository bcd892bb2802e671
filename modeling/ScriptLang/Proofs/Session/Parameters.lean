/-
ScriptLang.Proofs.Session.Parameters — every parameter gets its own argument.

The body of a closure starts in one way only: a call expression evaluates its
callee, then its arguments from left to right, and what the callee stands for
is a closure of the store or the initializer of a class
(`Undertaken.called`). So the checks that a call makes before it enters
anything hold of every body that starts.

The parameters of a body are bound one after the other, in a frame that is new.
Two parameters of one name would overwrite each other, and more names than
arguments would leave some unbound: `Store.getHere?_defineAll_zip` needs that
the names differ and that the lengths agree. Both come from the place of the
routine in its script, which the correspondence with the reference evaluator
keeps for every closure (`Begins`).
-/
import ScriptLang.Proofs.Machine.Fuel
import ScriptLang.Proofs.Session.Returns

namespace ScriptLang

/-! ## 1. Variables of a new frame -/

namespace Store

variable (s : Store) {frame : Nat}

/-- Definitions in a frame leave the other frames alone, and the links outward. -/
theorem frames_defineAll_of_ne {other : Nat} (hne : frame ≠ other) (pairs : List (String × Value)) :
    (s.defineAll frame pairs).frames[other]? = s.frames[other]? := by
  induction pairs generalizing s with
  | nil => rfl
  | cons pair rest ih =>
    show ((s.define frame pair.1 pair.2).defineAll frame rest).frames[other]? = _
    rw [ih, define, Array.getElem?_modify, if_neg hne]

theorem enclosing?_defineAll (pairs : List (String × Value)) (other : Nat) :
    (s.defineAll frame pairs).enclosing? other = s.enclosing? other := by
  induction pairs generalizing s with
  | nil => rfl
  | cons pair rest ih =>
    exact (ih (s.define frame pair.1 pair.2)).trans (s.enclosing?_define ..)

/-- A name that is not among those that are defined keeps its value. -/
theorem getHere?_defineAll_of_notMem (hframe : frame < s.frames.size)
    {pairs : List (String × Value)} {name : String} (hname : name ∉ pairs.map Prod.fst) :
    (s.defineAll frame pairs).getHere? frame name = s.getHere? frame name := by
  induction pairs generalizing s with
  | nil => rfl
  | cons pair rest ih =>
    rw [List.map_cons, List.mem_cons, not_or] at hname
    refine (ih (s.define frame pair.1 pair.2) (by rwa [size_define]) hname.2).trans ?_
    rw [getHere?_define s hframe, if_neg fun h => hname.1 h.2]

/-- Of names that differ, each gets the value at its own position. -/
theorem getHere?_defineAll_zip (hframe : frame < s.frames.size) {names : List String}
    {values : List Value} (hnodup : names.Nodup) (hlength : values.length = names.length)
    {i : Nat} {name : String} (hname : names[i]? = some name) :
    (s.defineAll frame (names.zip values)).getHere? frame name = values[i]? := by
  induction names generalizing s values i with
  | nil => simp at hname
  | cons first names ih =>
    cases values with
    | nil => simp at hlength
    | cons value values =>
      obtain ⟨hfirst, hrest⟩ := List.nodup_cons.mp hnodup
      have hlengths : values.length = names.length := by simpa using hlength
      have hinside : frame < (s.define frame first value).frames.size := by rwa [size_define]
      show ((s.define frame first value).defineAll frame (names.zip values)).getHere? frame name = _
      cases i with
      | zero =>
        obtain rfl : first = name := by simpa using hname
        have hnot : first ∉ (names.zip values).map Prod.fst := by
          rwa [List.map_fst_zip (Nat.le_of_eq hlengths.symm)]
        rw [getHere?_defineAll_of_notMem _ hinside hnot, getHere?_define s hframe]
        simp
      | succ i => exact ih _ hinside hrest hlengths (by simpa using hname)

end Store

/-! ## 2. How a body starts -/

/-- Expressions are evaluated one after the other, each on the machine that the one before it
left. -/
inductive EvaluatesInOrder (fuel : Nat) : List Expr → Machine → List Value → Machine → Prop where
  | nil {m} : EvaluatesInOrder fuel [] m [] m
  | cons {e es m value m₁ values m₂} : evaluate fuel e m = .ok value m₁ →
      EvaluatesInOrder fuel es m₁ values m₂ → EvaluatesInOrder fuel (e :: es) m (value :: values) m₂

/-- Calling a value leads to the body of a closure: of a function, a bound method or an initializer
that was bound before, or of the initializer of a class, bound to a new instance. -/
inductive Machine.LeadsTo (m : Machine) : Value → Closure → Machine → Prop where
  | function {id : Nat} {closure : Closure} : m.store.functions[id]? = some closure →
      m.LeadsTo (.function id) closure { m with depth := m.depth + 1 }
  | classRef {id : Nat} {info : ClassInfo} {initializer : Closure} {object : Nat} {s : Store}
      {bound : Closure} {s' : Store} : m.store.classes[id]? = some info →
      info.methods.get? initializerName = some initializer →
      m.store.addObject id = (object, s) → s.bindMethod initializer object = (bound, s') →
      m.LeadsTo (.classRef id) bound { m with store := s', depth := m.depth + 1 }

/-- The body of a closure starts on a machine: in a frame that is new, inside the frame of the
closure, and that holds the parameters, each with its own argument, and nothing else. -/
structure Closure.StartsOn (closure : Closure) (arguments : List Value) (m m' : Machine) :
    Prop where
  prepared : Exec.frameForCall closure arguments m = .ok m'.frame { m' with frame := m.frame }
  new : ∀ frame < m.store.frames.size, m'.frame ≠ frame
  around : m'.store.enclosing? m'.frame = some closure.frame
  existed : closure.frame < m.store.frames.size
  parameter : ∀ (i : Nat) (parameter : Token), closure.routine.parameters[i]? = some parameter →
    ∃ value, arguments[i]? = some value ∧
      m'.store.getHere? m'.frame parameter.lexeme = some value
  only : ∀ name, (m'.store.getHere? m'.frame name).isSome →
    name ∈ closure.routine.parameters.map Token.lexeme
  others : ∀ frame < m.store.frames.size, m'.store.frames[frame]? = m.store.frames[frame]?

section Starting

variable {fuel rest : Nat} {m m' m₁ : Machine} {task task' : Task} {closure : Closure}
variable {arguments values : List Value} {value : Value} {es : List Expr}

/-- The parameters are bound in order where their names differ and there is an argument for each. -/
theorem Closure.startsOn (hframe : closure.frame < m.store.frames.size)
    (hnodup : (closure.routine.parameters.map Token.lexeme).Nodup)
    (hlength : arguments.length = closure.routine.parameters.length) :
    closure.StartsOn arguments m (m.forBody closure arguments) := by
  have hnew : m.store.frames.size < (m.store.addFrame (some closure.frame)).2.frames.size := by
    simp
  have hlengths : arguments.length = (closure.routine.parameters.map Token.lexeme).length := by
    rw [hlength, List.length_map]
  refine ⟨rfl, fun frame hlt => Nat.ne_of_gt hlt, ?_, hframe, ?_, ?_, ?_⟩
  · refine ((m.store.addFrame (some closure.frame)).2.enclosing?_defineAll _ _).trans ?_
    rw [Store.enclosing?_addFrame]
    exact if_pos rfl
  · intro i parameter hparameter
    have hlt : i < arguments.length := hlength ▸ (List.getElem?_eq_some_iff.mp hparameter).1
    have hname : (closure.routine.parameters.map Token.lexeme)[i]? = some parameter.lexeme := by
      rw [List.getElem?_map, hparameter]
      rfl
    refine ⟨arguments[i], List.getElem?_eq_getElem hlt, ?_⟩
    exact (Store.getHere?_defineAll_zip _ hnew hnodup hlengths hname).trans
      (List.getElem?_eq_getElem hlt)
  · intro name hsome
    by_contra hname
    have hnot :
        name ∉ ((closure.routine.parameters.map Token.lexeme).zip arguments).map Prod.fst := by
      rwa [List.map_fst_zip (Nat.le_of_eq hlengths.symm)]
    have hnone := (Store.getHere?_defineAll_of_notMem _ hnew hnot).trans
      (m.store.getHere?_addFrame (some closure.frame) m.store.frames.size name)
    rw [m.store.getHere?_of_le (Nat.le_refl _)] at hnone
    exact absurd (hnone ▸ hsome : (none : Option Value).isSome = true) (by simp)
  · intro frame hlt
    refine (Store.frames_defineAll_of_ne _ (Nat.ne_of_gt hlt) _).trans ?_
    exact Array.getElem?_push_lt hlt |>.trans (Array.getElem?_eq_getElem hlt).symm

theorem EvaluatesInOrder.succ (h : EvaluatesInOrder fuel es m values m') :
    EvaluatesInOrder (fuel + 1) es m values m' := by
  induction h with
  | nil => exact .nil
  | cons hfirst _ ih => exact .cons (((fuelRefines fuel).expression _).ok hfirst) ih

theorem Closure.StartsOn.binds (h : closure.StartsOn arguments m m') (i : Nat) {parameter : Token}
    (hparameter : closure.routine.parameters[i]? = some parameter) :
    m'.store.getHere? m'.frame parameter.lexeme = arguments[i]? := by
  obtain ⟨value, hargument, hvalue⟩ := h.parameter i parameter hparameter
  exact hvalue.trans hargument.symm

/-- The arguments of a call are evaluated in order. -/
theorem evaluatesInOrder_of_evaluateAll (h : evaluateAll fuel es m = .ok values m') :
    EvaluatesInOrder fuel es m values m' := by
  induction fuel generalizing es m values with
  | zero => cases h
  | succ fuel ih =>
    cases es with
    | nil =>
      cases h
      exact .nil
    | cons e es =>
      rw [evaluateAll] at h
      obtain ⟨value, m₁, hfirst, h⟩ := Exec.ok_of_bind h
      obtain ⟨others, m₂, hrest, h⟩ := Exec.ok_of_bind h
      cases h
      exact .cons (((fuelRefines fuel).expression e).ok hfirst) (ih hrest).succ

/-- Whatever is begun while a task is done, other than the task itself, is asked for by something
that was begun before. -/
theorem Undertakes.asked (h : Undertakes fuel task m rest task' m') :
    (rest = fuel ∧ task' = task ∧ m' = m) ∨ ∃ task₁ m₁,
      Undertakes fuel task m (rest + 1) task₁ m₁ ∧ Asks rest task₁ m₁ task' m' := by
  induction h with
  | here => exact .inl ⟨rfl, rfl, rfl⟩
  | step hask hmore ih =>
    rcases ih with ⟨rfl, rfl, rfl⟩ | ⟨task₂, m₂, hbefore, hlast⟩
    · exact .inr ⟨_, _, .here, hask⟩
    · exact .inr ⟨task₂, m₂, .step hask hbefore, hlast⟩

/-- Whatever is begun while a script runs, other than its statements, is asked for. -/
theorem ScriptUndertakes.asked {statements : List Stmt}
    (h : ScriptUndertakes fuel statements m rest task m') (hother : ∀ s, task ≠ .execute s) :
    ∃ task₁ m₁, ScriptUndertakes fuel statements m (rest + 1) task₁ m₁ ∧
      Asks rest task₁ m₁ task m' := by
  induction h with
  | now hundertakes =>
    rcases hundertakes.asked with ⟨-, rfl, -⟩ | ⟨task₁, m₁, hbefore, hlast⟩
    · exact absurd rfl (hother _)
    · exact ⟨task₁, m₁, .now hbefore, hlast⟩
  | later hdone _ ih =>
    obtain ⟨task₁, m₁, hbefore, hlast⟩ := ih hother
    exact ⟨task₁, m₁, .later hdone hbefore, hlast⟩

/-- The expression whose evaluation calls a value has evaluated it, and then the arguments. -/
theorem Asks.called {e : Expr} {paren : Token}
    (h : Asks fuel (.evaluate e) m (.call value paren arguments) m') :
    ∃ id callee es m₁, e = .call id callee paren es ∧ evaluate fuel callee m = .ok value m₁ ∧
      EvaluatesInOrder fuel es m₁ arguments m' := by
  cases h with
  | call hcallee harguments =>
    exact ⟨_, _, _, _, rfl, hcallee, evaluatesInOrder_of_evaluateAll harguments⟩

/-- A call that comes to a body leads to it. -/
theorem Asks.leadsTo {callee : Store.Callee} {paren : Token} {m₂ : Machine}
    (hcall : Asks fuel (.call value paren arguments) m (.enter callee paren arguments) m₁)
    (henter : Asks rest (.enter callee paren arguments) m₁ (.invoke closure arguments) m₂) :
    m.LeadsTo value closure m₂ := by
  obtain ⟨hcallee, rfl, -⟩ := call_of_asks hcall
  cases henter with
  | function =>
    cases value with
    | function id =>
      refine .function ?_
      simpa [Store.callee?] using hcallee
    | nil | bool | number | text | host | classRef | object => simp [Store.callee?] at hcallee
  | classInitializer hmethod hobject hbound =>
    cases value with
    | classRef id =>
      obtain ⟨hinfo, rfl⟩ : m.store.classes[id]? = some _ ∧ id = _ := by
        simpa [Store.callee?] using hcallee
      exact .classRef hinfo hmethod hobject hbound
    | nil | bool | number | text | host | function | object => simp [Store.callee?] at hcallee

end Starting

/-! ## 3. Sessions -/

namespace Session

section Bodies

variable {session : Session} {source : List UInt8} {fuel rest : Nat} {m : Machine}
variable {task : Task} {closure : Closure} {arguments : List Value}

theorem Undertaken.asked (h : session.Undertaken fuel source rest task m)
    (hother : ∀ s, task ≠ .execute s) : ∃ task₁ m₁,
      session.Undertaken fuel source (rest + 1) task₁ m₁ ∧ Asks rest task₁ m₁ task m := by
  obtain ⟨task₁, m₁, hbefore, hlast⟩ := h.2.2.asked hother
  exact ⟨task₁, m₁, ⟨h.1, h.2.1, hbefore⟩, hlast⟩

/-- A body that starts is one to which a call expression leads, after its callee and then its
arguments were evaluated. -/
theorem Undertaken.called
    (h : session.Undertaken fuel source (rest + 1) (.invoke closure arguments) m) :
    ∃ id callee paren es m₀ value m₁ m₂,
      session.Undertaken fuel source (rest + 4) (.evaluate (.call id callee paren es)) m₀ ∧
      evaluate (rest + 3) callee m₀ = .ok value m₁ ∧
      EvaluatesInOrder (rest + 3) es m₁ arguments m₂ ∧ m₂.LeadsTo value closure m := by
  obtain ⟨task₁, m₁, hentered, henter⟩ := h.asked (by simp)
  obtain ⟨callee, paren, rfl⟩ : ∃ callee paren, task₁ = .enter callee paren arguments := by
    cases henter <;> exact ⟨_, _, rfl⟩
  obtain ⟨task₂, m₂, hcalled, hcall⟩ := hentered.asked (by simp)
  obtain ⟨value, rfl⟩ : ∃ value, task₂ = .call value paren arguments := by
    cases hcall
    exact ⟨_, rfl⟩
  obtain ⟨task₃, m₃, hevaluated, hevaluate⟩ := hcalled.asked (by simp)
  obtain ⟨e, rfl⟩ : ∃ e, task₃ = .evaluate e := by
    cases hevaluate
    exact ⟨_, rfl⟩
  obtain ⟨id, calleeExpr, es, m₄, rfl, hvalue, harguments⟩ := hevaluate.called
  exact ⟨id, calleeExpr, paren, es, m₃, value, m₄, m₂, hevaluated, hvalue, harguments,
    hcall.leadsTo henter⟩

/-- A closure that is run on arguments has a parameter for each, and no two of one name. -/
theorem Settled.hasArguments (h : Settled session)
    (hundertaken : session.Undertaken fuel source rest (.invoke closure arguments) m) :
    closure.frame < m.store.frames.size ∧
      (closure.routine.parameters.map Token.lexeme).Nodup ∧
      arguments.length = closure.routine.parameters.length := by
  obtain ⟨-, hfaultless, hundertakes⟩ := hundertaken
  obtain ⟨slots, r, hagrees, closure', hclosure, hlength⟩ := h.begins hfaultless hundertakes.visits
  obtain ⟨-, -, S, -, hplaced, -⟩ := id hclosure
  exact ⟨(hclosure.rooted hagrees).lt, hplaced.nodup, hlength⟩

end Bodies

/-- Every parameter gets its own argument. Whenever the body of a function, a bound method or an
initializer starts in a session, a call expression has evaluated its callee and then its arguments
from left to right, and the callee led to the closure. There are as many arguments as parameters,
and no two parameters of one name. The body runs in a frame that is none of those before, inside the
frame of the closure, and that holds the parameters, each with the argument at its position, and
nothing else. -/
theorem every_parameter_gets_its_argument {session : Session} (h : Reachable session) {fuel : Nat}
    {source : List UInt8} {rest : Nat} {closure : Closure} {arguments : List Value} {m : Machine}
    (hstarts : session.Undertaken fuel source (rest + 1) (.invoke closure arguments) m) :
    (∃ id callee paren es m₀ value m₁ m₂,
      session.Undertaken fuel source (rest + 4) (.evaluate (.call id callee paren es)) m₀ ∧
      evaluate (rest + 3) callee m₀ = .ok value m₁ ∧
      EvaluatesInOrder (rest + 3) es m₁ arguments m₂ ∧ m₂.LeadsTo value closure m) ∧
    arguments.length = closure.routine.parameters.length ∧
    (closure.routine.parameters.map Token.lexeme).Nodup ∧
    ∃ m', session.Undertaken fuel source rest (.executeAll closure.routine.body) m' ∧
      closure.StartsOn arguments m m' := by
  obtain ⟨hframe, hnodup, hlength⟩ := h.settled.hasArguments hstarts
  exact ⟨hstarts.called, hlength, hnodup, m.forBody closure arguments,
    hstarts.trans (.step .body .here), closure.startsOn hframe hnodup hlength⟩

/-- A unit in which a class is called, and the initializer of the instance is called again with the
values the other way round. -/
def initializedTwice : List UInt8 :=
  spelling "class A\x7binit(a,b)\x7b\x7d\x7dA(nil,true).init(true,nil);"

def twiceClass : Token := ⟨.identifier, "A", none, 1⟩

def twiceInit : Token := ⟨.identifier, "init", none, 1⟩

def twiceParen : Token := ⟨.rightParen, ")", none, 1⟩

/-- The initializer and its parameters. -/
def twiceRoutine : Routine :=
  ⟨twiceInit, [⟨.identifier, "a", none, 1⟩, ⟨.identifier, "b", none, 1⟩], []⟩

/-- The expression `A(nil,true)`. -/
def twiceInstance : Expr :=
  .call 3 (.read 0 twiceClass) twiceParen [.literal 1 .nil, .literal 2 (.bool true)]

/-- The expression `A(nil,true).init(true,nil)`. -/
def twiceAgain : Expr :=
  .call 7 (.property 4 twiceInstance twiceInit) twiceParen
    [.literal 5 (.bool true), .literal 6 .nil]

def twiceStatements : List Stmt :=
  [.classDecl twiceClass [twiceRoutine], .expression twiceAgain]

theorem script_initializedTwice :
    (Session.start .unbounded (steadyClock 0)).script initializedTwice =
      ⟨twiceStatements, [], 8⟩ := by
  decide +kernel

/-- The machine after the class was declared. -/
def twiceDeclared : Machine :=
  (execute 20 (.classDecl twiceClass [twiceRoutine])).left (startWith .empty)

/-- The initializer starts when the class is called, and when it is called itself. -/
theorem twiceStatements_starts : ∃ first m second m',
    (ScriptUndertakes 20 twiceStatements (startWith .empty) 14 (.invoke first [.nil, .bool true]) m ∧
      first.routine.parameters = twiceRoutine.parameters) ∧
    ScriptUndertakes 20 twiceStatements (startWith .empty) 16 (.invoke second [.bool true, .nil]) m' ∧
      second.routine.parameters = twiceRoutine.parameters := by
  have hdeclared : execute 20 (.classDecl twiceClass [twiceRoutine]) (startWith .empty) =
      .ok .normal twiceDeclared := Exec.ok_of_gives? (by decide +kernel)
  have hworth : evaluate 18 (.property 4 twiceInstance twiceInit) twiceDeclared =
      .ok (.function 0) _ := Exec.ok_of_gives? (by decide +kernel)
  obtain ⟨second, hsecond, hparameters⟩ := Option.map_eq_some_iff.mp (show
    (((evaluate 18 (.property 4 twiceInstance twiceInit)).left twiceDeclared).store.functions[0]?.map
      (·.routine.parameters)) = some twiceRoutine.parameters by decide +kernel)
  have hcallee : ((evaluate 18 (.property 4 twiceInstance twiceInit)).left
      twiceDeclared).store.callee? (.function 0) = some (.function second) := by
    rw [Store.callee?, hsecond]
    rfl
  refine ⟨_, _, second, _, ⟨.later hdeclared (.now (.step .expression (.step .callee
    (.step .propertyObject (.step (.call rfl rfl) (.step (.enter rfl rfl (by decide))
      (.step (.classInitializer rfl rfl rfl) .here))))))), rfl⟩,
    .later hdeclared (.now (.step .expression (.step (.call hworth rfl)
      (.step (.enter hcallee ?_ (by decide +kernel)) (.step .function .here))))), hparameters⟩
  rw [Store.Callee.arity, hparameters]
  rfl

/-- Both times each parameter gets the argument at its position. -/
theorem every_parameter_gets_its_argument_initializedTwice :
    let session := Session.start .unbounded (steadyClock 0)
    Reachable session ∧
    (∃ first m m', session.Undertaken 20 initializedTwice 14 (.invoke first [.nil, .bool true]) m ∧
      first.StartsOn [.nil, .bool true] m m' ∧
      m'.store.getHere? m'.frame "a" = some .nil ∧
      m'.store.getHere? m'.frame "b" = some (.bool true)) ∧
    ∃ second m m', session.Undertaken 20 initializedTwice 16 (.invoke second [.bool true, .nil]) m ∧
      second.StartsOn [.bool true, .nil] m m' ∧
      m'.store.getHere? m'.frame "a" = some (.bool true) ∧
      m'.store.getHere? m'.frame "b" = some .nil := by
  intro session
  have hreachable : Reachable session := .start .unbounded (steadyClock 0)
  have hfaultless : session.Faultless initializedTwice :=
    ⟨by decide +kernel, by decide +kernel, by decide +kernel⟩
  have hundertaken : ∀ {rest task m},
      ScriptUndertakes 20 twiceStatements (startWith .empty) rest task m →
      session.Undertaken 20 initializedTwice rest task m :=
    .of_script rfl hfaultless script_initializedTwice (by decide +kernel)
  obtain ⟨first, m, second, m', ⟨hfirst, hparameters⟩, hsecond, hparameters'⟩ :=
    twiceStatements_starts
  obtain ⟨-, -, -, inside, -, hstarts⟩ :=
    every_parameter_gets_its_argument hreachable (hundertaken hfirst)
  obtain ⟨-, -, -, inside', -, hstarts'⟩ :=
    every_parameter_gets_its_argument hreachable (hundertaken hsecond)
  exact ⟨hreachable,
    ⟨first, m, inside, hundertaken hfirst, hstarts, hstarts.binds 0 (by rw [hparameters]; rfl),
      hstarts.binds 1 (by rw [hparameters]; rfl)⟩,
    second, m', inside', hundertaken hsecond, hstarts',
    hstarts'.binds 0 (by rw [hparameters']; rfl), hstarts'.binds 1 (by rw [hparameters']; rfl)⟩

end Session

end ScriptLang
