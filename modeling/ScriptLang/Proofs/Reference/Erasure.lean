/-
ScriptLang.Proofs.Reference.Erasure — runs do not depend on places.

The reference evaluator looks at no identity at all, and at the line of a token
only to say where a fault is. So it commutes with erasing both: running an
erased script on an erased machine is running the script on the machine and
erasing the result (`erases_interpret`). Erasing a machine erases the routines
in its closures and nothing else, and erasing a fault its line. Hence scripts
that are the same at different places print the same, and end for the same
cause.

`Erases` is the statement for everything that happens on a machine. There is
one lemma for each step, and one for each function of the evaluator, by
induction on the fuel.
-/
import ScriptLang.Proofs.Reference.Evaluate
import ScriptLang.Proofs.Tree.Relabel

namespace ScriptLang

/-! ## 1. Erasing machines -/

/-- What names stand for, changed by a function. -/
def NameMap.map {α β : Type} (f : α → β) (m : NameMap α) : NameMap β :=
  ⟨m.entries.map fun entry => (entry.1, f entry.2)⟩

namespace NameMap

variable {α β : Type} (f : α → β)

theorem get?_map (m : NameMap α) (name : String) : (m.map f).get? name = (m.get? name).map f := by
  obtain ⟨entries⟩ := m
  unfold map get?
  induction entries with
  | nil => rfl
  | cons entry rest ih =>
    obtain ⟨key, value⟩ := entry
    simp only [List.map_cons, List.lookup_cons]
    cases name == key with
    | true => rfl
    | false => exact ih

theorem insertEntry_map (name : String) (value : α) (entries : List (String × α)) :
    insertEntry name (f value) (entries.map fun entry => (entry.1, f entry.2)) =
      (insertEntry name value entries).map fun entry => (entry.1, f entry.2) := by
  induction entries with
  | nil => rfl
  | cons entry rest ih =>
    simp only [List.map_cons, insertEntry]
    split
    · rfl
    · rw [ih, List.map_cons]

theorem map_insert (m : NameMap α) (name : String) (value : α) :
    (m.insert name value).map f = (m.map f).insert name (f value) :=
  congrArg NameMap.mk (insertEntry_map f name value m.entries).symm

theorem map_insertAll (m : NameMap α) (pairs : List (String × α)) :
    (m.insertAll pairs).map f = (m.map f).insertAll (pairs.map fun pair => (pair.1, f pair.2)) := by
  unfold insertAll
  induction pairs generalizing m with
  | nil => rfl
  | cons pair rest ih => rw [List.foldl_cons, List.map_cons, List.foldl_cons, ih, map_insert]

end NameMap

/-- A fault without its place in a running script. -/
def Fault.erased : Fault → Fault
  | .runtime _ cause => .runtime 0 cause
  | other => other

/-- A reason to halt without its place. -/
def Halt.erased : Halt → Halt
  | .fault cause => .fault cause.erased
  | .outOfFuel => .outOfFuel

namespace Reference

/-- A closure without places. -/
def Closure.erased (closure : Closure) : Closure :=
  { closure with routine := closure.routine.relabel .erase }

/-- A class without places. -/
def ClassInfo.erased (info : ClassInfo) : ClassInfo :=
  { info with methods := info.methods.map Closure.erased }

/-- A store without places. -/
def Store.erased (s : Store) : Store :=
  { s with
    functions := s.functions.map Closure.erased
    classes := s.classes.map ClassInfo.erased }

/-- A machine without places. -/
def Machine.erased (m : Machine) : Machine :=
  { m with store := m.store.erased }

/-- A callee without places. -/
def Store.Callee.erased : Store.Callee → Store.Callee
  | .host provided => .host provided
  | .function closure => .function closure.erased
  | .classRef id info => .classRef id info.erased

namespace Store

variable (s : Store)

theorem addFunction_erased (closure : Closure) :
    s.erased.addFunction closure.erased =
      ((s.addFunction closure).1, (s.addFunction closure).2.erased) := by
  simp [addFunction, erased]

theorem addClass_erased (info : ClassInfo) :
    s.erased.addClass info.erased = ((s.addClass info).1, (s.addClass info).2.erased) := by
  simp [addClass, erased]

theorem bindMethod_erased (method : Closure) (object : Nat) :
    s.erased.bindMethod method.erased object =
      ((s.bindMethod method object).1.erased, (s.bindMethod method object).2.erased) := by
  rfl

theorem addBoundMethod_erased (method : Closure) (object : Nat) :
    s.erased.addBoundMethod method.erased object =
      ((s.addBoundMethod method object).1, (s.addBoundMethod method object).2.erased) := by
  unfold addBoundMethod
  rw [bindMethod_erased]
  exact addFunction_erased _ _

theorem methodOf?_erased (object : Nat) (name : String) :
    s.erased.methodOf? object name = (s.methodOf? object name).map Closure.erased := by
  unfold methodOf?
  simp only [erased, Array.getElem?_map]
  cases s.objects[object]? with
  | none => rfl
  | some object =>
    cases hclass : s.classes[object.classId]? with
    | none => simp [hclass]
    | some info =>
      simp only [Option.bind_eq_bind, Option.bind_some, hclass, Option.map_some]
      exact NameMap.get?_map _ info.methods name

theorem callee?_erased (value : Value) :
    s.erased.callee? value = (s.callee? value).map Callee.erased := by
  cases value with
  | host id => simp [callee?, erased, Callee.erased, Function.comp_def]
  | function id => simp [callee?, erased, Callee.erased, Function.comp_def]
  | classRef id => simp [callee?, erased, Callee.erased, Function.comp_def]
  | nil | bool | number | text | object => rfl

theorem arity_erased (callee : Callee) : callee.erased.arity = callee.arity := by
  cases callee with
  | host provided => rfl
  | function closure => simp [Callee.erased, Callee.arity, Closure.erased]
  | classRef id info =>
    simp only [Callee.erased, Callee.arity, ClassInfo.erased, NameMap.get?_map, Option.map_map]
    congr 2
    funext method
    simp [Closure.erased]

theorem className_erased (id : Nat) : s.erased.className id = s.className id := by
  simp [className, erased, ClassInfo.erased, Function.comp_def]

theorem display_erased (value : Value) : s.erased.display value = s.display value := by
  cases value with
  | function id => simp [display, erased, Closure.erased, Function.comp_def]
  | classRef id => exact s.className_erased id
  | object id => simp only [display, className_erased]; rfl
  | nil | bool | number | text | host => rfl

end Store

/-! ## 2. Steps -/

/-- A result without places. -/
def erasedResult {α β : Type} (φ : α → β) :
    EStateM.Result Halt Machine α → EStateM.Result Halt Machine β
  | .ok a m => .ok (φ a) m.erased
  | .error halt m => .error halt.erased m.erased

/-- The second is what the first is without places. -/
def Erases {α β : Type} (φ : α → β) (x : Exec α) (y : Exec β) : Prop :=
  ∀ m : Machine, y m.erased = erasedResult φ (x m)

namespace Erases

variable {α β γ δ : Type} {φ : α → β} {ψ : γ → δ}

theorem pure (a : α) : Erases φ (Pure.pure a) (Pure.pure (φ a)) := fun _ => rfl

theorem bind {x : Exec α} {y : Exec β} {f : α → Exec γ} {g : β → Exec δ} (h : Erases φ x y)
    (hrest : ∀ a, Erases ψ (f a) (g (φ a))) : Erases ψ (x >>= f) (y >>= g) := by
  intro m
  change EStateM.bind y g m.erased = erasedResult ψ (EStateM.bind x f m)
  unfold EStateM.bind
  rw [h m]
  cases x m with
  | ok a m' => exact hrest a m'
  | error halt m' => rfl

theorem throw (halt : Halt) : Erases φ (throw halt : Exec α) (MonadExcept.throw halt.erased) :=
  fun _ => rfl

theorem raise (token token' : Token) (cause : RuntimeCause) (htoken : token'.line = 0) :
    Erases φ (Exec.raise token cause) (Exec.raise token' cause) := by
  intro m
  change EStateM.Result.error (Halt.fault (.runtime token'.line cause)) m.erased = _
  rw [htoken]
  rfl

theorem onStore {change : Store → α × Store} {change' : Store → β × Store}
    (h : ∀ s, change' s.erased = (φ (change s).1, (change s).2.erased)) :
    Erases φ (Exec.onStore change) (Exec.onStore change') := by
  intro m
  rw [Exec.onStore_eq, Exec.onStore_eq]
  change EStateM.Result.ok (change' m.store.erased).1
    { m.erased with store := (change' m.store.erased).2 } = _
  rw [h]
  rfl

theorem get : Erases Machine.erased MonadState.get MonadState.get := fun _ => rfl

theorem asCall {x : Exec α} {y : Exec β} (h : Erases φ x y) :
    Erases φ (Exec.asCall x) (Exec.asCall y) := by
  intro m
  have hbody : y { m.erased with depth := m.erased.depth + 1 }
      = erasedResult φ (x { m with depth := m.depth + 1 }) := h { m with depth := m.depth + 1 }
  unfold Exec.asCall
  rw [hbody]
  cases x { m with depth := m.depth + 1 } <;> rfl

section Steps

variable (token : Token)

theorem raiseErased (cause : RuntimeCause) :
    Erases φ (Exec.raise token cause) (Exec.raise (Relabelling.erase.token token) cause) :=
  raise _ _ cause rfl

theorem ofExcept (result : Except RuntimeCause α) :
    Erases id (Exec.ofExcept token result)
      (Exec.ofExcept (Relabelling.erase.token token) result) := by
  cases result with
  | ok a => exact pure a
  | error cause => exact raiseErased token cause

theorem printLine (value : Value) : Erases id (Exec.printLine value) (Exec.printLine value) := by
  intro m
  have hdisplay : m.erased.store.display value = m.store.display value :=
    m.store.display_erased value
  have hsink : m.erased.sink = m.sink := rfl
  unfold Exec.printLine
  rw [hdisplay, hsink]
  rcases m.sink.write (Text.Utf8.encode (m.store.display value ++ "\n")) with ⟨fault?, sink⟩
  cases fault? <;> rfl

theorem flush : Erases id Exec.flush Exec.flush := by
  intro m
  have hsink : m.erased.sink = m.sink := rfl
  unfold Exec.flush
  rw [hsink]
  cases m.sink.flushFault <;> rfl

theorem declare (env : Env) (name : String) :
    Erases id (Exec.declare env name) (Exec.declare env name) := by
  cases env with
  | top => exact pure _
  | inside locals => exact (onStore (φ := id) fun _ => rfl).bind fun _ => pure _

theorem define (env : Env) (name : String) (value : Value) :
    Erases id (Exec.define env name value) (Exec.define env name value) := by
  unfold Exec.define
  cases env with
  | top => exact onStore fun _ => rfl
  | inside locals =>
    dsimp only
    cases locals.get? name with
    | none => exact pure _
    | some location => exact onStore fun _ => rfl

theorem readVariable (locals : Locals) :
    Erases id (Exec.readVariable locals token)
      (Exec.readVariable locals (Relabelling.erase.token token)) := by
  intro m
  unfold Exec.readVariable
  rw [Relabelling.lexeme]
  have hcells : m.erased.store.cells = m.store.cells := rfl
  have hglobals : m.erased.store.globals = m.store.globals := rfl
  rw [hcells, hglobals]
  dsimp only
  split
  · rfl
  · exact raiseErased token _ m

theorem writeVariable (locals : Locals) (value : Value) :
    Erases id (Exec.writeVariable locals token value)
      (Exec.writeVariable locals (Relabelling.erase.token token) value) := by
  intro m
  unfold Exec.writeVariable
  rw [Relabelling.lexeme]
  have hglobals : m.erased.store.globals = m.store.globals := rfl
  rw [hglobals]
  cases locals.get? token.lexeme with
  | some location => rfl
  | none =>
    dsimp only
    split
    · rfl
    · exact raiseErased token _ m

theorem readProperty (object : Nat) :
    Erases id (Exec.readProperty object token)
      (Exec.readProperty object (Relabelling.erase.token token)) := by
  intro m
  unfold Exec.readProperty
  rw [Relabelling.lexeme]
  have hfield : m.erased.store.field? object token.lexeme = m.store.field? object token.lexeme :=
    rfl
  have hmethod : m.erased.store.methodOf? object token.lexeme =
      (m.store.methodOf? object token.lexeme).map Closure.erased :=
    m.store.methodOf?_erased object token.lexeme
  rw [hfield, hmethod]
  cases m.store.field? object token.lexeme with
  | some value => rfl
  | none =>
    cases m.store.methodOf? object token.lexeme with
    | some method => exact onStore (fun s => s.addBoundMethod_erased method object) m
    | none => exact raiseErased token _ m

theorem callHost (provided : HostFunction) (arguments : List Value) :
    Erases id (Exec.callHost provided token arguments)
      (Exec.callHost provided (Relabelling.erase.token token) arguments) := by
  intro m
  have hshown : (arguments.map fun value => (value, m.erased.store.display value)) =
      arguments.map fun value => (value, m.store.display value) :=
    List.map_congr_left fun value _ => congrArg (Prod.mk value) (m.store.display_erased value)
  have hclock : m.erased.clock m.erased.readings = m.clock m.readings := rfl
  unfold Exec.callHost
  rw [hshown, hclock]
  dsimp only
  cases provided.run (m.clock m.readings)
      (arguments.map fun value => (value, m.store.display value)) with
  | ok value => rfl
  | error message => exact raiseErased token _ { m with readings := m.readings + 1 }

theorem bindParameters (locals : Locals) (pairs : List (String × Value)) :
    Erases id (Exec.bindParameters locals pairs) (Exec.bindParameters locals pairs) := by
  induction pairs generalizing locals with
  | nil => exact pure _
  | cons pair rest ih => exact (onStore (φ := id) fun _ => rfl).bind fun location => ih _

theorem resultOfCall (closure : Closure) (flow : Flow) :
    Erases id (Exec.resultOfCall closure flow) (Exec.resultOfCall closure.erased flow) := by
  intro m
  unfold Exec.resultOfCall
  have hinit : closure.erased.isInitializer = closure.isInitializer := rfl
  rw [hinit]
  split
  · rfl
  · cases flow <;> rfl

end Steps

end Erases

/-! ## 3. The evaluator -/

/-- With the given fuel, every function of the evaluator commutes with erasing. -/
structure Placeless (fuel : Nat) : Prop where
  statement : ∀ env s, Erases id (execute fuel env s) (execute fuel env (s.relabel .erase))
  statements : ∀ env body,
    Erases id (executeAll fuel env body) (executeAll fuel env (Stmt.relabelAll .erase body))
  loop : ∀ env condition body, Erases id (executeLoop fuel env condition body)
    (executeLoop fuel env (condition.relabel .erase) (body.relabel .erase))
  expression : ∀ locals e,
    Erases id (evaluate fuel locals e) (evaluate fuel locals (e.relabel .erase))
  option : ∀ locals e, Erases id (evaluateOption fuel locals e)
    (evaluateOption fuel locals (e.map (·.relabel .erase)))
  expressions : ∀ locals es,
    Erases id (evaluateAll fuel locals es) (evaluateAll fuel locals (Expr.relabelAll .erase es))
  call : ∀ value paren arguments, Erases id (call fuel value paren arguments)
    (call fuel value (Relabelling.erase.token paren) arguments)
  enter : ∀ callee paren arguments, Erases id (enter fuel callee paren arguments)
    (enter fuel callee.erased (Relabelling.erase.token paren) arguments)
  invoke : ∀ closure arguments,
    Erases id (invoke fuel closure arguments) (invoke fuel closure.erased arguments)

namespace Placeless

variable {fuel : Nat}

/-- The class that a declaration makes. -/
theorem classInfo_erased (name : String) (locals : Locals) (methods : List Routine) :
    ClassInfo.erased ⟨name, NameMap.empty.insertAll (methods.map fun method =>
        (method.name.lexeme, Closure.mk method locals method.isInitializer))⟩ =
      ⟨name, NameMap.empty.insertAll ((Routine.relabelAll .erase methods).map fun method =>
        (method.name.lexeme, Closure.mk method locals method.isInitializer))⟩ := by
  rw [ClassInfo.erased, NameMap.map_insertAll, Routine.relabelAll_eq_map, List.map_map,
    List.map_map]
  congr 2
  refine List.map_congr_left fun method _ => ?_
  simp [Closure.erased]

theorem statement_succ (ih : Placeless fuel) (env : Env) (s : Stmt) :
    Erases id (execute (fuel + 1) env s) (execute (fuel + 1) env (s.relabel .erase)) := by
  cases s with
  | expression value =>
    rw [Stmt.relabel, execute, execute]
    exact (ih.expression _ _).bind fun _ => .pure _
  | print value =>
    rw [Stmt.relabel, execute, execute]
    exact (ih.expression _ _).bind fun value => (Erases.printLine value).bind fun _ => .pure _
  | var name initializer =>
    rw [Stmt.relabel, execute, execute, Relabelling.lexeme]
    exact (Erases.declare env _).bind fun env => (ih.option _ _).bind fun value =>
      (Erases.define env _ value).bind fun _ => .pure _
  | block body =>
    rw [Stmt.relabel, execute, execute]
    exact (ih.statements _ _).bind fun _ => .pure _
  | ifThen condition thenBranch =>
    rw [Stmt.relabel, execute, execute]
    refine (ih.expression _ _).bind fun value => ?_
    dsimp only [id]
    split
    · exact ih.statement _ _
    · exact .pure _
  | ifElse condition thenBranch elseBranch =>
    rw [Stmt.relabel, execute, execute]
    refine (ih.expression _ _).bind fun value => ?_
    dsimp only [id]
    split
    · exact ih.statement _ _
    · exact ih.statement _ _
  | loop condition body =>
    rw [Stmt.relabel, execute, execute]
    exact (ih.loop _ _ _).bind fun _ => .pure _
  | function routine =>
    rw [Stmt.relabel, execute, execute, Routine.name_relabel, Relabelling.lexeme]
    exact (Erases.declare env _).bind fun env =>
      (Erases.onStore fun s => s.addFunction_erased ⟨routine, env.locals, false⟩).bind fun value =>
        (Erases.define env _ value).bind fun _ => .pure _
  | ret keyword value =>
    rw [Stmt.relabel, execute, execute]
    exact (ih.option _ _).bind fun _ => .pure _
  | classDecl name methods =>
    rw [Stmt.relabel, execute, execute]
    simp only [Relabelling.lexeme]
    refine (Erases.declare env _).bind fun env => (Erases.define env _ .nil).bind fun _ => ?_
    dsimp only [id]
    rw [← classInfo_erased]
    exact (Erases.onStore fun s => s.addClass_erased _).bind fun value =>
      (Erases.define env _ value).bind fun _ => .pure _

theorem statements_succ (ih : Placeless fuel) (env : Env) (body : List Stmt) :
    Erases id (executeAll (fuel + 1) env body)
      (executeAll (fuel + 1) env (Stmt.relabelAll .erase body)) := by
  cases body with
  | nil =>
    rw [Stmt.relabelAll, executeAll]
    exact .pure _
  | cons s rest =>
    rw [Stmt.relabelAll, executeAll, executeAll]
    refine (ih.statement _ _).bind ?_
    rintro ⟨flow, env⟩
    cases flow with
    | normal => exact ih.statements _ _
    | returned value => exact .pure _

theorem loop_succ (ih : Placeless fuel) (env : Env) (condition : Expr) (body : Stmt) :
    Erases id (executeLoop (fuel + 1) env condition body)
      (executeLoop (fuel + 1) env (condition.relabel .erase) (body.relabel .erase)) := by
  rw [executeLoop, executeLoop]
  refine (ih.expression _ _).bind fun value => ?_
  dsimp only [id]
  split
  · refine (ih.statement _ _).bind ?_
    rintro ⟨flow, env'⟩
    cases flow with
    | normal => exact ih.loop _ _ _
    | returned value => exact .pure _
  · exact .pure _

theorem expression_succ (ih : Placeless fuel) (locals : Locals) (e : Expr) :
    Erases id (evaluate (fuel + 1) locals e) (evaluate (fuel + 1) locals (e.relabel .erase)) := by
  cases e with
  | literal _ constant =>
    rw [Expr.relabel, evaluate, evaluate]
    exact .pure _
  | group _ inner =>
    rw [Expr.relabel, evaluate, evaluate]
    exact ih.expression _ _
  | unary _ operator operand =>
    rw [Expr.relabel, evaluate, evaluate]
    exact (ih.expression _ _).bind fun value => Erases.ofExcept operator _
  | binary _ left operator right =>
    rw [Expr.relabel, evaluate, evaluate]
    exact (ih.expression _ _).bind fun a => (ih.expression _ _).bind fun b =>
      Erases.ofExcept operator _
  | logical _ left operator right =>
    rw [Expr.relabel, evaluate, evaluate]
    refine (ih.expression _ _).bind fun value => ?_
    have hdecides : Operator.decides (Relabelling.erase.token operator) value =
        Operator.decides operator value := rfl
    simp only [id, hdecides]
    split
    · exact .pure _
    · exact ih.expression _ _
  | read _ name =>
    rw [Expr.relabel, evaluate, evaluate]
    exact Erases.readVariable name locals
  | assign _ name value =>
    rw [Expr.relabel, evaluate, evaluate]
    exact (ih.expression _ _).bind fun value =>
      (Erases.writeVariable name locals value).bind fun _ => .pure _
  | call _ callee paren arguments =>
    rw [Expr.relabel, evaluate, evaluate]
    exact (ih.expression _ _).bind fun value => (ih.expressions _ _).bind fun values =>
      ih.call value paren values
  | property _ object name =>
    rw [Expr.relabel, evaluate, evaluate]
    refine (ih.expression _ _).bind fun value => ?_
    cases value with
    | object target => exact Erases.readProperty name target
    | nil | bool | number | text | host | function | classRef => exact .raiseErased name _
  | setProperty _ object name value =>
    rw [Expr.relabel, evaluate, evaluate]
    refine (ih.expression _ _).bind fun target => ?_
    cases target with
    | object target =>
      refine (ih.expression _ _).bind fun value => ?_
      exact (Erases.onStore (φ := fun a => a) fun s => rfl).bind fun _ => .pure _
    | nil | bool | number | text | host | function | classRef => exact .raiseErased name _
  | self _ keyword =>
    rw [Expr.relabel, evaluate, evaluate]
    exact Erases.readVariable keyword locals

theorem option_succ (ih : Placeless fuel) (locals : Locals) (e : Option Expr) :
    Erases id (evaluateOption (fuel + 1) locals e)
      (evaluateOption (fuel + 1) locals (e.map (·.relabel .erase))) := by
  cases e with
  | none =>
    rw [Option.map_none, evaluateOption]
    exact .pure _
  | some e =>
    rw [Option.map_some, evaluateOption, evaluateOption]
    exact ih.expression _ _

theorem expressions_succ (ih : Placeless fuel) (locals : Locals) (es : List Expr) :
    Erases id (evaluateAll (fuel + 1) locals es)
      (evaluateAll (fuel + 1) locals (Expr.relabelAll .erase es)) := by
  cases es with
  | nil =>
    rw [Expr.relabelAll, evaluateAll]
    exact .pure _
  | cons e rest =>
    rw [Expr.relabelAll, evaluateAll, evaluateAll]
    exact (ih.expression _ _).bind fun value => (ih.expressions _ _).bind fun values => .pure _

theorem call_succ (ih : Placeless fuel) (value : Value) (paren : Token) (arguments : List Value) :
    Erases id (Reference.call (fuel + 1) value paren arguments)
      (Reference.call (fuel + 1) value (Relabelling.erase.token paren) arguments) := by
  rw [Reference.call, Reference.call]
  refine Erases.get.bind fun m => ?_
  have hcallee : m.erased.store.callee? value = (m.store.callee? value).map Store.Callee.erased :=
    m.store.callee?_erased value
  rw [hcallee]
  cases m.store.callee? value with
  | none => exact .raiseErased paren _
  | some callee =>
    dsimp only [Option.map_some]
    rw [Store.arity_erased]
    split
    · exact .raiseErased paren _
    · refine Erases.get.bind fun m => ?_
      have hdepth : m.erased.depth = m.depth := rfl
      rw [hdepth]
      split
      · exact .raiseErased paren _
      · exact (ih.enter callee paren arguments).asCall

theorem enter_succ (ih : Placeless fuel) (callee : Store.Callee) (paren : Token)
    (arguments : List Value) :
    Erases id (Reference.enter (fuel + 1) callee paren arguments)
      (Reference.enter (fuel + 1) callee.erased (Relabelling.erase.token paren) arguments) := by
  cases callee with
  | host provided =>
    rw [Store.Callee.erased, Reference.enter, Reference.enter]
    exact Erases.callHost paren provided arguments
  | function closure =>
    rw [Store.Callee.erased, Reference.enter, Reference.enter]
    exact ih.invoke closure arguments
  | classRef classId info =>
    rw [Store.Callee.erased, Reference.enter, Reference.enter]
    refine (Erases.onStore (φ := fun a => a) fun s => rfl).bind fun object => ?_
    have hmethod : info.erased.methods.get? initializerName =
        (info.methods.get? initializerName).map Closure.erased :=
      NameMap.get?_map Closure.erased info.methods initializerName
    rw [hmethod]
    cases info.methods.get? initializerName with
    | none => exact .pure _
    | some initializer =>
      exact (Erases.onStore fun s => s.bindMethod_erased initializer object).bind fun bound =>
        (ih.invoke bound arguments).bind fun _ => .pure _

theorem invoke_succ (ih : Placeless fuel) (closure : Closure) (arguments : List Value) :
    Erases id (Reference.invoke (fuel + 1) closure arguments)
      (Reference.invoke (fuel + 1) closure.erased arguments) := by
  rw [Reference.invoke, Reference.invoke]
  have hnames : closure.erased.routine.parameters.map Token.lexeme =
      closure.routine.parameters.map Token.lexeme := by
    rw [Closure.erased, Routine.parameters_relabel, map_lexeme_relabel]
  have hbody : closure.erased.routine.body = Stmt.relabelAll .erase closure.routine.body :=
    closure.routine.body_relabel .erase
  rw [hnames, hbody]
  exact (Erases.bindParameters _ _).bind fun locals => (ih.statements _ _).bind fun flow =>
    Erases.resultOfCall closure flow

end Placeless

/-- Every function of the evaluator commutes with erasing. -/
theorem placeless (fuel : Nat) : Placeless fuel := by
  induction fuel with
  | zero =>
    exact ⟨fun _ _ => .throw _, fun _ _ => .throw _, fun _ _ _ => .throw _, fun _ _ => .throw _,
      fun _ _ => .throw _, fun _ _ => .throw _, fun _ _ _ => .throw _, fun _ _ _ => .throw _,
      fun _ _ => .throw _⟩
  | succ fuel ih =>
    exact ⟨ih.statement_succ, ih.statements_succ, ih.loop_succ, ih.expression_succ, ih.option_succ,
      ih.expressions_succ, ih.call_succ, ih.enter_succ, ih.invoke_succ⟩

/-! ## 4. Scripts -/

theorem erases_executeScript (fuel : Nat) (statements : List Stmt) :
    Erases id (executeScript fuel statements)
      (executeScript fuel (Stmt.relabelAll .erase statements)) := by
  induction statements with
  | nil => exact .pure _
  | cons s rest ih => exact ((placeless fuel).statement .top s).bind fun _ => ih

/-- Running an erased script on an erased machine is running the script and erasing the result. -/
theorem erases_interpret (fuel : Nat) (statements : List Stmt) :
    Erases id (interpret fuel statements)
      (interpret fuel (Stmt.relabelAll .erase statements)) := by
  intro m
  have hrun := erases_executeScript fuel statements m
  unfold interpret
  rw [hrun]
  cases executeScript fuel statements m with
  | ok _ m' => exact Erases.flush m'
  | error halt m' =>
    cases halt with
    | outOfFuel => rfl
    | fault fault =>
      have hflush := Erases.flush m'
      simp only [erasedResult, Halt.erased, hflush]
      cases Exec.flush m' <;> rfl

/-- Scripts that are the same at different places run in the same way. -/
theorem interpret_alike {statements statements' : List Stmt}
    (h : Stmt.relabelAll .erase statements = Stmt.relabelAll .erase statements') (fuel : Nat)
    (m : Machine) :
    erasedResult id (interpret fuel statements m) =
      erasedResult id (interpret fuel statements' m) := by
  rw [← erases_interpret fuel statements m, ← erases_interpret fuel statements' m, h]

theorem executeScript_append (fuel : Nat) (ss ss' : List Stmt) :
    executeScript fuel (ss ++ ss') = (executeScript fuel ss >>= fun _ => executeScript fuel ss') := by
  induction ss with
  | nil => rfl
  | cons s ss ih =>
    rw [List.cons_append, executeScript, ih, executeScript, bind_assoc]

theorem flush_eq_ok {m m' : Machine} {a : Unit} (h : Exec.flush m = .ok a m') : m' = m := by
  unfold Exec.flush at h
  split at h <;> cases h
  rfl

/-- A script after one that ended well goes on where that one has ended. -/
theorem interpret_append {fuel : Nat} {ss : List Stmt} {m m' : Machine}
    (h : interpret fuel ss m = .ok () m') (ss' : List Stmt) :
    interpret fuel (ss ++ ss') m = interpret fuel ss' m' := by
  have hrun : executeScript fuel ss m = .ok () m' := by
    unfold interpret at h
    cases hrun : executeScript fuel ss m with
    | ok _ m₁ =>
      rw [hrun] at h
      rw [flush_eq_ok h]
    | error halt m₁ =>
      rw [hrun] at h
      cases halt with
      | outOfFuel => cases h
      | fault fault => cases hflush : Exec.flush m₁ <;> simp [hflush] at h
  have hboth : executeScript fuel (ss ++ ss') m = executeScript fuel ss' m' := by
    rw [executeScript_append]
    change EStateM.bind _ _ m = _
    unfold EStateM.bind
    rw [hrun]
  unfold interpret
  rw [hboth]

end Reference

end ScriptLang
