/-
ScriptLang.Proofs.Reference.ForLoop — what `for` means.

Reading makes a `while` loop of a `for` loop, in up to three nested scopes
(`ForLoop.tree`). Here is the meaning that a `for` loop has without it
(`executeFor`): in one new scope, in which a variable of the first clause gets
one location, there are rounds. Before each of them the condition is evaluated,
and after each of them the increment, unless the body has returned or failed.

The tree does what the loop means (`tree_refines`, `executeFor_refines`).
The two use up fuel at different places, so each needs some more fuel than the
other. What makes the scopes of the tree immaterial is that the body of a loop
declares nothing: such a statement does the same wherever the same local
variables are in force (`execute_of_undeclaring`).
-/
import ScriptLang.Proofs.Binding.Placed
import ScriptLang.Proofs.Grammar.Trees
import ScriptLang.Proofs.Reference.Fuel

namespace ScriptLang

/-! ## 1. Loops as they are written -/

/-- The first clause of a `for` loop. -/
inductive ForLoop.First where
  | none
  | var (name : Token) (initializer : Option Expr)
  | expression (value : Expr)

/-- A `for` loop with its clauses, of which each may be missing. The body is no declaration. -/
structure ForLoop where
  first : ForLoop.First
  condition : Option Expr
  increment : Option Expr
  body : Stmt
  undeclaring : Binding.declaredName? body = none

namespace ForLoop

/-- The statement that the first clause is. -/
def First.stmt? : First → Option Stmt
  | .none => .none
  | .var name initializer => some (.var name initializer)
  | .expression value => some (.expression value)

/-- The condition in the tree of a loop: `true`, under the given identity, if it is missing. -/
def test (loop : ForLoop) (id : Nat) : Expr :=
  loop.condition.getD (.literal id (.bool true))

/-- The statement that reading makes of a loop. -/
def tree (loop : ForLoop) (id : Nat) : Stmt :=
  Grammar.forLoop loop.first.stmt? (loop.test id) loop.increment loop.body

/-- What the tree of a loop repeats. -/
def round (loop : ForLoop) : Stmt :=
  Grammar.Phrase.forRound loop.body loop.increment

/-- Without a first clause the tree is a `while` loop. -/
theorem tree_of_none {loop : ForLoop} (h : loop.first.stmt? = .none) (id : Nat) :
    loop.tree id = .loop (loop.test id) loop.round := by
  rw [tree, round, h]
  cases loop.increment <;> rfl

/-- With a first clause it is a block around a `while` loop. -/
theorem tree_of_some {loop : ForLoop} {s : Stmt} (h : loop.first.stmt? = some s) (id : Nat) :
    loop.tree id = .block [s, .loop (loop.test id) loop.round] := by
  rw [tree, round, h]
  cases loop.increment <;> rfl

end ForLoop

namespace Reference

open Binding (Scope Placed PlacedAll declaredName?)
open Reference.Exec

/-! ## 2. The meaning of a loop -/

/-- The first clause. A variable gets one location, which all rounds share. -/
def executeFirst (fuel : Nat) (env : Env) : ForLoop.First → Exec Env
  | .none => pure env
  | .var name initializer => do
    let env ← declare env name.lexeme
    let value ← evaluateOption fuel env.locals initializer
    define env name.lexeme value
    pure env
  | .expression value => do
    let _ ← evaluate fuel env.locals value
    pure env

/-- Whether there is another round: always, if there is no condition. -/
def goesOn (fuel : Nat) (locals : Locals) : Option Expr → Exec Bool
  | none => pure true
  | some condition => do
    let value ← evaluate fuel locals condition
    pure value.isTruthy

/-- The increment, if there is one. -/
def advance (fuel : Nat) (locals : Locals) : Option Expr → Exec Unit
  | none => pure ()
  | some increment => do
    let _ ← evaluate fuel locals increment
    pure ()

/-- Goes on after a statement, unless it has returned. -/
def unlessReturned (next : Exec Flow) : Flow → Exec Flow
  | .normal => next
  | .returned value => pure (.returned value)

/-- One round: the body, and then the increment, unless the body has returned. -/
def executeRound (fuel : Nat) (env : Env) (loop : ForLoop) : Exec Flow := do
  let out ← execute fuel env loop.body
  unlessReturned (do advance fuel env.locals loop.increment; pure .normal) out.1

/-- The rounds of a loop, from before a condition up to the first `return`. -/
def executeRounds : Nat → Env → ForLoop → Exec Flow
  | 0, _, _ => throw .outOfFuel
  | fuel + 1, env, loop => do
    if ← goesOn fuel env.locals loop.condition then
      let flow ← executeRound fuel env loop
      unlessReturned (executeRounds fuel env loop) flow
    else pure .normal

/-- Runs a `for` loop: in one new scope the first clause, and then the rounds. -/
def executeFor (fuel : Nat) (env : Env) (loop : ForLoop) : Exec Flow := do
  let inner ← executeFirst fuel (.inside env.locals) loop.first
  executeRounds fuel inner loop

/-! ## 3. Statements that declare nothing -/

/-- How a statement ends that declares nothing. -/
def flowOf (fuel : Nat) (locals : Locals) (s : Stmt) : Exec Flow := do
  let out ← execute fuel (.inside locals) s
  pure out.1

section Undeclaring

variable {P : List Scope → Mention → Prop} {S : List Scope} {fuel : Nat} {env : Env}

/-- For a statement or a loop body that declares nothing only the local variables in force matter,
and they stay in force. The induction is on the fuel, for both at once, since a statement may be a
loop. -/
theorem execute_of_undeclaring (fuel : Nat) :
    (∀ (env : Env) (s : Stmt), Placed P S s → declaredName? s = none →
      execute fuel env s = do
        let flow ← flowOf fuel env.locals s
        pure (flow, env)) ∧
    ∀ (env : Env) (condition : Expr) (body : Stmt), Placed P S body → declaredName? body = none →
      executeLoop fuel env condition body =
        executeLoop fuel (.inside env.locals) condition body := by
  induction fuel with
  | zero => exact ⟨fun _ _ _ _ => rfl, fun _ _ _ _ _ => rfl⟩
  | succ fuel ih =>
    obtain ⟨ihstatement, ihloop⟩ := ih
    constructor
    · intro env s hplaced hname
      cases hplaced with
      | expression | print | block | ret => simp [flowOf, execute, Env.locals]
      | var | function | classDecl => cases hname
      -- the condition is evaluated alike, and the branch declares nothing either
      | ifThen _ hthen hbranch =>
        rw [flowOf, execute, execute]
        simp only [bind_assoc]
        congr 1
        funext value
        split
        · rw [ihstatement _ _ hbranch hthen, ihstatement (.inside _) _ hbranch hthen]
          simp [Env.locals]
        · simp
      | ifElse _ hthen hbranch helse hbranch' =>
        rw [flowOf, execute, execute]
        simp only [bind_assoc]
        congr 1
        funext value
        split
        · rw [ihstatement _ _ hbranch hthen, ihstatement (.inside _) _ hbranch hthen]
          simp [Env.locals]
        · rw [ihstatement _ _ hbranch' helse, ihstatement (.inside _) _ hbranch' helse]
          simp [Env.locals]
      | loop _ hbody hplaced =>
        rw [flowOf, execute, execute, ihloop env _ _ hplaced hbody]
        simp
    · intro env condition body hplaced hname
      rw [executeLoop, executeLoop]
      congr 1
      funext value
      split
      · rw [ihstatement _ _ hplaced hname, ihstatement (.inside _) _ hplaced hname]
        simp only [bind_assoc, pure_bind]
        congr 1
        funext flow
        cases flow with
        | normal => exact ihloop env _ _ hplaced hname
        | returned value => rfl
      · rfl

theorem execute_eq_flowOf {s : Stmt} (hplaced : Placed P S s) (hname : declaredName? s = none) :
    execute fuel env s = (do
      let flow ← flowOf fuel env.locals s
      pure (flow, env)) :=
  (execute_of_undeclaring fuel).1 env s hplaced hname

end Undeclaring

theorem flowOf_fuel {fuel fuel' : Nat} (hle : fuel ≤ fuel') (locals : Locals) (s : Stmt) :
    Refines (flowOf fuel locals s) (flowOf fuel' locals s) :=
  (statement_fuel hle _ _).bind fun _ => .refl _

/-! ## 4. Rounds -/

section Rounds

variable {P : List Scope → Mention → Prop} {S : List Scope} {fuel fuel' : Nat} {env : Env}
variable {loop : ForLoop}

theorem unlessReturned_refines {next next' : Exec Flow} (h : Refines next next') (flow : Flow) :
    Refines (unlessReturned next flow) (unlessReturned next' flow) := by
  cases flow with
  | normal => exact h
  | returned value => exact .refl _

/-- What follows the body in a round. -/
def afterBody (fuel : Nat) (locals : Locals) (increment : Option Expr) (flow : Flow) : Exec Flow :=
  unlessReturned (do advance fuel locals increment; pure .normal) flow

theorem afterBody_fuel (hle : fuel ≤ fuel') (locals : Locals) (increment : Option Expr)
    (flow : Flow) :
    Refines (afterBody fuel locals increment flow) (afterBody fuel' locals increment flow) := by
  refine unlessReturned_refines ?_ flow
  cases increment with
  | none => exact .refl _
  | some increment =>
    exact ((expression_fuel hle _ _).bind fun _ => .refl _).bind fun _ => .refl _

/-- The condition of the tree is the condition of the loop. -/
theorem test_refines (fuel : Nat) (locals : Locals) (id : Nat) :
    Refines (do
        let value ← evaluate fuel locals (loop.test id)
        pure value.isTruthy)
      (goesOn fuel locals loop.condition) := by
  unfold ForLoop.test
  cases loop.condition with
  | some condition => exact .refl _
  | none =>
    cases fuel with
    | zero => exact .outOfFuel _
    | succ fuel => exact .refl _

theorem goesOn_refines (hlt : fuel < fuel') (locals : Locals) (id : Nat) :
    Refines (goesOn fuel locals loop.condition) (do
      let value ← evaluate fuel' locals (loop.test id)
      pure value.isTruthy) := by
  unfold ForLoop.test
  cases loop.condition with
  | some condition => exact (expression_fuel (Nat.le_of_lt hlt) _ _).bind fun _ => .refl _
  | none =>
    obtain ⟨k, rfl⟩ := Nat.exists_eq_add_of_lt hlt
    exact .refl _

/-- A round of the tree with the increment in it: first the body, then the increment, two calls
further down. -/
theorem execute_block_increment (fuel : Nat) {body : Stmt} (increment : Expr)
    (hplaced : Placed P S body) (hname : declaredName? body = none) :
    execute (fuel + 4) env (.block [body, .expression increment]) = (do
      let flow ← flowOf (fuel + 2) env.locals body
      let flow ← afterBody fuel env.locals (some increment) flow
      pure (flow, env)) := by
  rw [execute, executeAll, execute_eq_flowOf hplaced hname]
  simp only [bind_assoc, pure_bind]
  congr 1
  funext flow
  cases flow with
  | normal => simp [executeAll, execute, afterBody, unlessReturned, advance, Env.locals]
  | returned value => rfl

theorem executeRound_eq (fuel : Nat) (env : Env) (hplaced : Placed P S loop.body) :
    executeRound fuel env loop = (do
      let flow ← flowOf fuel env.locals loop.body
      afterBody fuel env.locals loop.increment flow) := by
  rw [executeRound, execute_eq_flowOf hplaced loop.undeclaring]
  simp only [bind_assoc, pure_bind]
  rfl

/-- A round of the tree is the body alone, or the body and the increment. -/
theorem execute_round (fuel : Nat) (env : Env) (hplaced : Placed P S loop.body) :
    ∃ inner, fuel ≤ inner ∧ inner ≤ fuel + 4 ∧ execute (fuel + 4) env loop.round = (do
      let flow ← flowOf inner env.locals loop.body
      let flow ← afterBody fuel env.locals loop.increment flow
      pure (flow, env)) := by
  unfold ForLoop.round
  cases loop.increment with
  | none =>
    refine ⟨fuel + 4, Nat.le_add_right _ _, Nat.le_refl _, ?_⟩
    rw [Grammar.Phrase.forRound, execute_eq_flowOf hplaced loop.undeclaring]
    congr 1
    funext flow
    cases flow <;> rfl
  | some increment =>
    exact ⟨fuel + 2, Nat.le_add_right _ _, by omega,
      execute_block_increment fuel increment hplaced loop.undeclaring⟩

/-- Bodies and increments with more fuel. -/
theorem bodies_fuel {inner inner' : Nat} (hinner : inner ≤ inner') (hle : fuel ≤ fuel')
    (env : Env) (loop : ForLoop) :
    Refines (do
        let flow ← flowOf inner env.locals loop.body
        let flow ← afterBody fuel env.locals loop.increment flow
        pure (flow, env))
      (do
        let flow ← flowOf inner' env.locals loop.body
        let flow ← afterBody fuel' env.locals loop.increment flow
        pure (flow, env)) :=
  (flowOf_fuel hinner _ _).bind fun flow => (afterBody_fuel hle _ _ flow).bind fun _ => .refl _

/-- A round of the tree does what a round of the loop does. -/
theorem round_refines (fuel : Nat) (env : Env) (hplaced : Placed P S loop.body) :
    Refines (execute fuel env loop.round) (do
      let flow ← executeRound (fuel + 4) env loop
      pure (flow, env)) := by
  obtain ⟨inner, -, hinner, hround⟩ := execute_round fuel env hplaced
  refine (statement_fuel (Nat.le_add_right fuel 4) env loop.round).trans ?_
  rw [hround, executeRound_eq (fuel + 4) env hplaced, bind_assoc]
  exact bodies_fuel hinner (Nat.le_add_right fuel 4) env loop

theorem executeRound_refines (fuel : Nat) (env : Env) (hplaced : Placed P S loop.body) :
    Refines (do
        let flow ← executeRound fuel env loop
        pure (flow, env))
      (execute (fuel + 4) env loop.round) := by
  obtain ⟨inner, hinner, -, hround⟩ := execute_round fuel env hplaced
  rw [hround, executeRound_eq fuel env hplaced, bind_assoc]
  exact bodies_fuel hinner (Nat.le_refl fuel) env loop

/-- One round of `while`, with the question whether there is a round apart. -/
theorem executeLoop_succ (fuel : Nat) (env : Env) (condition : Expr) (body : Stmt) :
    executeLoop (fuel + 1) env condition body = (do
      let more ← (do
        let value ← evaluate fuel env.locals condition
        pure value.isTruthy)
      if more then
        let out ← execute fuel env body
        unlessReturned (executeLoop fuel env condition body) out.1
      else pure .normal) := by
  rw [executeLoop]
  simp only [bind_assoc, pure_bind]
  congr 1
  funext value
  split
  · congr 1
    funext out
    obtain ⟨flow, inner⟩ := out
    cases flow <;> rfl
  · rfl

/-- The way a statement ends, with the place of the next statement and without it. -/
theorem bind_flow (x : Exec Flow) (env : Env) (f : Flow → Exec Flow) :
    (x >>= f) = ((do let flow ← x; pure (flow, env)) >>= fun out : Flow × Env => f out.1) := by
  simp only [bind_assoc, pure_bind]

/-- The rounds of the tree are the rounds of the loop. The four more units of fuel make up for the
calls by which the increment is further down in the tree, and they are left over for every round. -/
theorem rounds_refine (id fuel : Nat) (env : Env) (hplaced : Placed P S loop.body) :
    Refines (executeLoop fuel env (loop.test id) loop.round)
      (executeRounds (fuel + 4) env loop) := by
  induction fuel with
  | zero => exact .outOfFuel _
  | succ fuel ih =>
    rw [executeLoop_succ, show fuel + 1 + 4 = fuel + 4 + 1 by omega, executeRounds]
    refine Refines.bind ?_ fun more => ?_
    · refine Refines.trans ?_ (test_refines (fuel + 4) env.locals id)
      exact (expression_fuel (Nat.le_add_right fuel 4) _ _).bind fun _ => .refl _
    · split
      · rw [bind_flow (executeRound (fuel + 4) env loop) env]
        exact (round_refines fuel env hplaced).bind fun out => unlessReturned_refines ih out.1
      · exact .refl _

theorem executeRounds_refines (id fuel : Nat) (env : Env) (hplaced : Placed P S loop.body) :
    Refines (executeRounds fuel env loop)
      (executeLoop (fuel + 4) env (loop.test id) loop.round) := by
  induction fuel with
  | zero => exact .outOfFuel _
  | succ fuel ih =>
    rw [executeRounds, show fuel + 1 + 4 = fuel + 4 + 1 by omega, executeLoop_succ]
    refine (goesOn_refines (by omega) env.locals id).bind fun more => ?_
    split
    · rw [bind_flow (executeRound fuel env loop) env]
      exact (executeRound_refines fuel env hplaced).bind fun out => unlessReturned_refines ih out.1
    · exact .refl _

end Rounds

/-! ## 5. Loops -/

section Loops

variable {P : List Scope → Mention → Prop} {S : List Scope} {fuel fuel' : Nat} {env : Env}
variable {loop : ForLoop}

theorem executeFirst_fuel (hle : fuel ≤ fuel') (env : Env) (first : ForLoop.First) :
    Refines (executeFirst fuel env first) (executeFirst fuel' env first) := by
  cases first with
  | none => exact .refl _
  | var name initializer =>
    exact .after _ fun inner => (option_fuel hle _ _).bind fun _ => .refl _
  | expression value => exact (expression_fuel hle _ _).bind fun _ => .refl _

/-- The first clause as a statement. -/
theorem execute_first {first : ForLoop.First} {s : Stmt} (h : first.stmt? = some s) (fuel : Nat)
    (env : Env) :
    execute (fuel + 1) env s = (do
      let inner ← executeFirst fuel env first
      pure (.normal, inner)) := by
  cases first with
  | none => cases h
  | var name initializer =>
    obtain rfl := Option.some.inj h
    simp [execute, executeFirst]
  | expression value =>
    obtain rfl := Option.some.inj h
    simp [execute, executeFirst]

/-- The tree of a loop: the first clause, and then the rounds of the tree. -/
theorem execute_tree (id fuel : Nat) (env : Env) (hplaced : Placed P S loop.round)
    (hname : declaredName? loop.round = none) :
    ∃ inner rounds, fuel ≤ inner ∧ inner ≤ fuel + 4 ∧ fuel ≤ rounds ∧ rounds ≤ fuel + 4 ∧
      execute (fuel + 4) env (loop.tree id) = (do
        let start ← executeFirst inner (.inside env.locals) loop.first
        let flow ← executeLoop rounds start (loop.test id) loop.round
        pure (flow, env)) := by
  cases hfirst : loop.first.stmt? with
  | none =>
    refine ⟨fuel, fuel + 3, by omega, by omega, by omega, by omega, ?_⟩
    have hnone : loop.first = .none := by
      cases h : loop.first <;> rw [h] at hfirst <;> first | rfl | cases hfirst
    rw [ForLoop.tree_of_none hfirst, execute, (execute_of_undeclaring _).2 env _ _ hplaced hname,
      hnone]
    rfl
  | some s =>
    refine ⟨fuel + 1, fuel, by omega, by omega, by omega, by omega, ?_⟩
    rw [ForLoop.tree_of_some hfirst, execute, executeAll, execute_first hfirst]
    simp only [bind_assoc, pure_bind]
    congr 1
    funext start
    simp only [executeAll, execute, bind_assoc, pure_bind]
    congr 1
    funext flow
    cases flow <;> rfl

theorem declaredName?_round (loop : ForLoop) : declaredName? loop.round = none := by
  rw [ForLoop.round]
  cases loop.increment with
  | none => exact loop.undeclaring
  | some increment => rfl

/-- What the tree repeats is in order, wherever the tree is. -/
theorem placed_round {id : Nat} (h : Placed P S (loop.tree id)) : ∃ S', Placed P S' loop.round := by
  cases hfirst : loop.first.stmt? with
  | none =>
    rw [ForLoop.tree_of_none hfirst] at h
    cases h with
    | loop _ _ hround => exact ⟨_, hround⟩
  | some s =>
    rw [ForLoop.tree_of_some hfirst] at h
    cases h with
    | block hall =>
      cases hall with
      | cons _ hrest =>
        cases hrest with
        | cons hloop _ =>
          cases hloop with
          | loop _ _ hround => exact ⟨_, hround⟩

theorem placed_body (h : Placed P S loop.round) : ∃ S', Placed P S' loop.body := by
  unfold ForLoop.round at h
  cases hincrement : loop.increment with
  | none =>
    rw [hincrement] at h
    exact ⟨_, h⟩
  | some increment =>
    rw [hincrement] at h
    cases h with
    | block hall =>
      cases hall with
      | cons hbody _ => exact ⟨_, hbody⟩

/-- The tree of a loop does what the loop means. -/
theorem tree_refines (id fuel : Nat) (env : Env) (hplaced : Placed P S (loop.tree id)) :
    Refines (execute fuel env (loop.tree id)) (do
      let flow ← executeFor (fuel + 8) env loop
      pure (flow, env)) := by
  obtain ⟨S₁, hround⟩ := placed_round hplaced
  obtain ⟨S₂, hbody⟩ := placed_body hround
  obtain ⟨inner, rounds, -, hinner, -, hrounds, htree⟩ :=
    execute_tree id fuel env hround (declaredName?_round loop)
  refine (statement_fuel (Nat.le_add_right fuel 4) env (loop.tree id)).trans ?_
  rw [htree, executeFor, bind_assoc]
  refine (executeFirst_fuel (by omega) _ _).bind fun start => ?_
  refine Refines.bind ?_ fun _ => .refl _
  exact (loop_fuel hrounds _ _ _).trans (rounds_refine id (fuel + 4) start hbody)

/-- And the loop means what its tree does. -/
theorem executeFor_refines (id fuel : Nat) (env : Env) (hplaced : Placed P S (loop.tree id)) :
    Refines (do
        let flow ← executeFor fuel env loop
        pure (flow, env))
      (execute (fuel + 8) env (loop.tree id)) := by
  obtain ⟨S₁, hround⟩ := placed_round hplaced
  obtain ⟨S₂, hbody⟩ := placed_body hround
  obtain ⟨inner, rounds, hinner, -, hrounds, -, htree⟩ :=
    execute_tree id (fuel + 4) env hround (declaredName?_round loop)
  rw [htree, executeFor, bind_assoc]
  refine (executeFirst_fuel (by omega) _ _).bind fun start => ?_
  refine Refines.bind ?_ fun _ => .refl _
  exact (executeRounds_refines id fuel start hbody).trans (loop_fuel hrounds _ _ _)

end Loops

/-! ## 6. The variable of a loop -/

theorem Exec.ok_of_bind {α β : Type} {x : Exec α} {f : α → Exec β} {b : β} {r r' : Machine}
    (h : (x >>= f) r = .ok b r') : ∃ a r₁, x r = .ok a r₁ ∧ f a r₁ = .ok b r' := by
  change EStateM.bind x f r = .ok b r' at h
  unfold EStateM.bind at h
  cases hx : x r with
  | ok a r₁ =>
    rw [hx] at h
    exact ⟨a, r₁, rfl, h⟩
  | error halt r₁ =>
    rw [hx] at h
    cases h

/-- A variable of the first clause is at one new location. -/
theorem inner_of_executeFirst {fuel : Nat} {locals : Locals} {name : Token}
    {initializer : Option Expr} {inner : Env} {r r' : Machine}
    (h : executeFirst fuel (.inside locals) (.var name initializer) r = .ok inner r') :
    inner = .inside (locals.insert name.lexeme r.store.cells.size) := by
  obtain ⟨start, r₁, hdeclare, h⟩ := Exec.ok_of_bind h
  obtain ⟨value, r₂, -, h⟩ := Exec.ok_of_bind h
  obtain ⟨-, r₃, -, hdone⟩ := Exec.ok_of_bind h
  cases hdeclare
  cases hdone
  rfl

end Reference

/-! ## 7. Reading a loop -/

open Grammar.Phrase (ForFirst Optional Statement Good)

/-- The clauses and the body of a loop, as they are read after the word `for`. -/
inductive ForLoop.Reads (d : Bool) : List Token → Nat → ForLoop → List Token → Nat → Prop where
  | mk {loop : ForLoop} {opening semicolon closing : Token} {ts n ts₁ n₁ ts₂ n₂ ts₃ n₃ rest n'} :
      opening.kind = .leftParen → ForFirst ts n loop.first.stmt? ts₁ n₁ →
      Optional ts₁ n₁ loop.condition (semicolon :: ts₂) n₂ → semicolon.kind = .semicolon →
      Optional ts₂ n₂ loop.increment (closing :: ts₃) n₃ → closing.kind = .rightParen →
      Statement d ts₃ n₃ loop.body rest n' → Reads d (opening :: ts) n loop rest n'

theorem exists_first {ts n first rest n'} (h : ForFirst ts n first rest n') :
    ∃ clause : ForLoop.First, first = clause.stmt? := by
  cases h with
  | none => exact ⟨.none, rfl⟩
  | var h =>
    cases h with
    | bare => exact ⟨.var _ none, rfl⟩
    | initialized => exact ⟨.var _ (some _), rfl⟩
  | expr h =>
    cases h with
    | mk => exact ⟨.expression _, rfl⟩

/-- A statement that begins with `for` is the tree of the loop that is read after the word. -/
theorem exists_loop_of_for {d : Bool} {word : Token} {ts : List Token} {n : Nat} {s : Stmt}
    {rest : List Token} {last : Nat} (h : Statement d (word :: ts) n s rest last)
    (hword : word.kind = .forWord) : ∃ loop n', ForLoop.Reads d ts n loop rest n' ∧
      s = loop.tree n' := by
  cases h with
  | @forLoop _ _ _ _ _ _ _ first _ _ condition _ _ increment ts₃ _ body _ n' _ hopening hfirst
      hcondition hsemicolon hincrement hclosing hbody =>
    have hgood : Good (fun _ => True) ts₃ := fun _ _ => trivial
    obtain ⟨-, -, hname⟩ := hbody.built hgood
    obtain ⟨clause, rfl⟩ := exists_first hfirst
    refine ⟨⟨clause, condition, increment, body, hname⟩, n',
      .mk hopening hfirst hcondition hsemicolon hincrement hclosing hbody, ?_⟩
    rw [ForLoop.tree, ForLoop.test]
    cases condition <;> rfl
  | expr h =>
    obtain ⟨t, ts', heq, hkind⟩ := h.begins
    cases heq
    rw [hword] at hkind
    exact absurd hkind (by decide)
  | print hkind | ret hkind | block hkind | loop hkind | ifThen hkind | ifElse hkind =>
    rw [hword] at hkind
    cases hkind

end ScriptLang
