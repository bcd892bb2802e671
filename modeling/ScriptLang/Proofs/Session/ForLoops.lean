/-
ScriptLang.Proofs.Session.ForLoops — `for` means what it says.

Wherever the evaluator comes by the tree of a `for` loop, running it does what
the loop means (`for_means_what_it_says`). The meaning is given over states in
which names stand for locations (`Proofs.Reference.ForLoop`), so this is about
states of the evaluator with frames together with such a state in which every
variable has the same value (`Mirrored`). From there either both runs end or
neither does, and they end alike: in the same way, with the same output, the
same values in all variables that were there before and the same instances,
and with the names meaning again what they meant before the loop (`Leaves`).

So it is with every `for` of a source (`for_statements_mean_loops`): a loop is
read there, its tree stands in the script, and whenever a run comes to it, it
does what the loop does.
-/
import ScriptLang.Proofs.Grammar.Loops
import ScriptLang.Proofs.Reference.ForLoop
import ScriptLang.Proofs.Session.HeapShape
import ScriptLang.Proofs.Session.Joining

namespace ScriptLang

namespace Reference

open Binding (Scope Placed)

variable {P : List Scope → Mention → Prop} {S : List Scope} {env : Env} {c c' : Config}
variable {m : ScriptLang.Machine} {s : Stmt}

/-! ## 1. States before and after -/

/-- A statement is to be run on a machine, and a state in which names stand for locations has the
same variables. -/
structure Mirrored (P : List Scope → Mention → Prop) (s : Stmt) (m : ScriptLang.Machine)
    (c : Config) (S : List Scope) (env : Env) : Prop where
  machine : c.machine = m
  agrees : Agrees P c
  stands : c.Stands S env
  exact : c.Exact S
  placed : Placed P S s

/-- What the two states have in common after a run, and what the run has left as it was. -/
structure Leaves (P : List Scope → Mention → Prop) (c : Config) (S : List Scope) (env : Env)
    (m : ScriptLang.Machine) (r : Machine) : Prop where
  output : m.sink = r.sink
  instances : m.store.objects = r.store.objects
  globals : ∀ name, m.store.getHere? m.globals name = r.store.globals.get? name
  locals : ∀ {frame name location}, c.slots frame name = some location →
    m.store.getHere? frame name = r.store.cells[location]?.join
  frame : m.frame = c.machine.frame
  names : ∃ slots, Agrees P ⟨slots, m, r⟩ ∧ Config.Stands ⟨slots, m, r⟩ S env

/-- Two runs end in the same way. -/
def FinishAlike (P : List Scope → Mention → Prop) (c : Config) (S : List Scope) (env : Env) :
    EStateM.Result Halt ScriptLang.Machine Flow → EStateM.Result Halt Machine Flow → Prop
  | .ok flow m, .ok flow' r => flow' = flow ∧ Leaves P c S env m r
  | .error halt m, .error halt' r => halt' = halt ∧ Leaves P c S env m r
  | _, _ => False

/-- What a run gives if it is given enough fuel. -/
structure Finishes {σ : Type} (run : Nat → EStateM.Result Halt σ Flow)
    (result : EStateM.Result Halt σ Flow) : Prop where
  enough : ∃ fuel, run fuel = result
  fuelled : ∀ s, result ≠ .error .outOfFuel s

theorem Step.leaves {current : Option Nat} (hstep : Step current c c') (hagrees : Agrees P c')
    (hstands : c.Stands S env) : Leaves P c S env c'.machine c'.reference where
  output := hagrees.sink.symm
  instances := hagrees.heap.objects.symm
  globals := hagrees.cells.global
  locals hslot := (hagrees.cells.slot (hstep.grown.slot hslot)).2.2.2
  frame := hstep.frame
  names := ⟨c'.slots, hagrees, hstep.stands hstands⟩

/-! ## 2. Loops -/

/-- The result of a statement, without the place of the next one. -/
def flowResult : EStateM.Result Halt Machine (Flow × Env) → EStateM.Result Halt Machine Flow
  | .ok out r => .ok out.1 r
  | .error halt r => .error halt r

theorem flowResult_bind (x : Exec Flow) (env : Env) (r : Machine) :
    flowResult ((do let flow ← x; pure (flow, env) : Exec (Flow × Env)) r) = x r := by
  change flowResult (EStateM.bind x _ r) = x r
  unfold EStateM.bind
  cases x r <;> rfl

theorem flowResult_eq_outOfFuel {result : EStateM.Result Halt Machine (Flow × Env)} {r : Machine}
    (h : result = .error .outOfFuel r) : flowResult result = .error .outOfFuel r := by
  rw [h]
  rfl

/-- Where a statement meets a state, it finishes alike on both sides with the same fuel. -/
theorem Mirrored.finishAlike (h : Mirrored P s m c S env) (fuel : Nat) :
    FinishAlike P c S env (ScriptLang.execute fuel s m)
      (flowResult (execute fuel env s c.reference)) := by
  obtain ⟨rfl, hagrees, hstands, hexact, hplaced⟩ := h
  have hsim := (simulates P fuel).statement hagrees hstands hexact hplaced
  unfold Sim at hsim
  cases hx : ScriptLang.execute fuel s c.machine with
  | ok flow m =>
    cases hy : execute fuel env s c.reference with
    | ok out r =>
      rw [hx, hy] at hsim
      obtain ⟨slots, hagrees', hstep, hflow, -⟩ := hsim
      exact ⟨hflow, hstep.leaves hagrees' hstands⟩
    | error halt r => rw [hx, hy] at hsim; exact hsim.elim
  | error halt m =>
    cases hy : execute fuel env s c.reference with
    | ok out r => rw [hx, hy] at hsim; exact hsim.elim
    | error halt' r =>
      rw [hx, hy] at hsim
      obtain ⟨hhalt, slots, hagrees', hstep⟩ := hsim
      exact ⟨hhalt, hstep.leaves hagrees' hstands⟩

theorem FinishAlike.fuelled {result : EStateM.Result Halt ScriptLang.Machine Flow}
    {result' : EStateM.Result Halt Machine Flow} (h : FinishAlike P c S env result result') :
    (∀ m, result ≠ .error .outOfFuel m) ↔ ∀ r, result' ≠ .error .outOfFuel r := by
  cases result with
  | ok flow m =>
    cases result' with
    | ok flow' r => simp
    | error halt' r => exact h.elim
  | error halt m =>
    cases result' with
    | ok flow' r => exact h.elim
    | error halt' r =>
      obtain ⟨rfl, -⟩ := h
      simp

section Loops

variable {loop : ForLoop} {id : Nat}

/-- If the tree of a loop finishes on the machine, the loop finishes alike. -/
theorem Mirrored.loop_of_tree (h : Mirrored P (loop.tree id) m c S env)
    {result : EStateM.Result Halt ScriptLang.Machine Flow}
    (hfinishes : Finishes (fun fuel => ScriptLang.execute fuel (loop.tree id) m) result) :
    ∃ result', Finishes (fun fuel => executeFor fuel env loop c.reference) result' ∧
      FinishAlike P c S env result result' := by
  obtain ⟨⟨fuel, rfl⟩, hfuelled⟩ := hfinishes
  have halike := h.finishAlike fuel
  have hends := halike.fuelled.mp hfuelled
  have hrun := tree_refines id fuel env h.placed c.reference fun r hout =>
    hends r (flowResult_eq_outOfFuel hout)
  refine ⟨_, ⟨⟨fuel + 8, ?_⟩, hends⟩, halike⟩
  rw [← hrun, flowResult_bind]

/-- If a loop finishes, its tree finishes alike on the machine. -/
theorem Mirrored.tree_of_loop (h : Mirrored P (loop.tree id) m c S env)
    {result' : EStateM.Result Halt Machine Flow}
    (hfinishes : Finishes (fun fuel => executeFor fuel env loop c.reference) result') :
    ∃ result, Finishes (fun fuel => ScriptLang.execute fuel (loop.tree id) m) result ∧
      FinishAlike P c S env result result' := by
  obtain ⟨⟨fuel, rfl⟩, hfuelled⟩ := hfinishes
  have hrun := executeFor_refines id fuel env h.placed c.reference fun r hout => by
    have hflow := flowResult_eq_outOfFuel hout
    rw [flowResult_bind] at hflow
    exact hfuelled r hflow
  have halike := h.finishAlike (fuel + 8)
  rw [hrun, flowResult_bind] at halike
  exact ⟨_, ⟨⟨fuel + 8, rfl⟩, halike.fuelled.mpr hfuelled⟩, halike⟩

end Loops

/-! ## 3. Names -/

/-- A name in force stands for a location that there is. -/
theorem Mirrors.exists_slot {s : ScriptLang.Store} {slots : Slots} {globals frame location : Nat}
    {locals : Locals} {name : String} (h : Mirrors s slots globals S frame locals)
    (hget : locals.get? name = some location) : ∃ frame, slots frame name = some location := by
  induction h with
  | top hlocals =>
    rw [hlocals name] at hget
    cases hget
  | inside _ _ _ _ hlocals ih =>
    rw [hlocals name] at hget
    split at hget
    · exact ⟨_, hget⟩
    · exact ih hget

theorem Mirrored.location_lt (h : Mirrored P s m c S env) {name : String} {location : Nat}
    (hget : env.locals.get? name = some location) : location < c.reference.store.cells.size := by
  obtain ⟨frame, hslot⟩ := h.stands.1.exists_slot hget
  exact (h.agrees.cells.slot hslot).2.2.1

end Reference

/-! ## 4. Sessions -/

namespace Session

open Binding (Addressed)
open Grammar.Phrase (Statement)
open Reference (Mirrored Finishes FinishAlike executeFor executeFirst)

variable {session : Session} {source : List UInt8}

/-- A statement that is begun while a unit runs is mirrored by a state in which names stand for
locations. -/
theorem Undertaken.mirrored (hreachable : Reachable session) {fuel rest : Nat} {s : Stmt}
    {m : Machine} (h : session.Undertaken fuel source rest (.execute s) m) :
    ∃ c S env, Mirrored (Addressed (session.binding source).1 (session.script source).nextId)
      s m c S env := by
  obtain ⟨-, hfaultless, hundertakes⟩ := h
  obtain ⟨slots, r, hagrees, S, env, hstands, hexact, hplaced⟩ :=
    hreachable.settled.begins hfaultless hundertakes.visits
  exact ⟨⟨slots, m, r⟩, S, env, rfl, hagrees, hstands, hexact, hplaced⟩

/-- Every statement that begins with `for` is read as the tree of a loop, with the clauses and the
body that are read after the word. On every machine, and in every state with the same variables in
which names stand for locations, the run of the tree and the run of the loop either both end or
neither does, and they end alike. A variable of the first clause has one location for all of the
loop, and no name in force around the loop stands for it. And whenever such a statement is begun
while a unit runs, in any session, there is such a state for the machine on which it is begun. -/
theorem for_means_what_it_says {d : Bool} {word : Token} {ts after : List Token} {n last : Nat}
    {s : Stmt} (hread : Statement d (word :: ts) n s after last) (hword : word.kind = .forWord) :
    ∃ loop id, ForLoop.Reads d ts n loop after id ∧ s = loop.tree id ∧
      (∀ P m c S env, Mirrored P s m c S env →
        (∀ result, Finishes (fun fuel => execute fuel s m) result →
          ∃ result', Finishes (fun fuel => executeFor fuel env loop c.reference) result' ∧
            FinishAlike P c S env result result') ∧
        (∀ result', Finishes (fun fuel => executeFor fuel env loop c.reference) result' →
          ∃ result, Finishes (fun fuel => execute fuel s m) result ∧
            FinishAlike P c S env result result') ∧
        ∀ name initializer fuel inner r, loop.first = .var name initializer →
          executeFirst fuel (.inside env.locals) loop.first c.reference = .ok inner r →
          ∃ location, inner = .inside (env.locals.insert name.lexeme location) ∧
            ∀ other, env.locals.get? other ≠ some location) ∧
      ∀ session, Reachable session → ∀ fuel source rest m,
        session.Undertaken fuel source rest (.execute s) m →
        ∃ c S env, Mirrored (Addressed (session.binding source).1 (session.script source).nextId)
          s m c S env := by
  obtain ⟨loop, id, hreads, rfl⟩ := exists_loop_of_for hread hword
  refine ⟨loop, id, hreads, rfl, fun P m c S env h => ⟨fun _ => h.loop_of_tree,
    fun _ => h.tree_of_loop, ?_⟩, ?_⟩
  · intro name initializer fuel inner r hfirst hrun
    rw [hfirst] at hrun
    refine ⟨_, Reference.inner_of_executeFirst hrun, fun other hother => ?_⟩
    exact absurd (h.location_lt hother) (Nat.lt_irrefl _)
  · intro session hreachable fuel source rest m hundertaken
    exact hundertaken.mirrored hreachable

/-- A loop with a variable of its own. -/
def singleRound : List UInt8 := spelling "for(var i=true;i;i=false)print i;"

/-- The variable of the loop. -/
def roundName : Token := ⟨.identifier, "i", none, 1⟩

/-- The statement that is read. -/
def roundTree : Stmt :=
  .block [.var roundName (some (.literal 0 (.bool true))),
    .loop (.read 1 roundName) (.block [.print (.read 5 roundName),
      .expression (.assign 4 roundName (.literal 3 (.bool false)))])]

theorem script_singleRound :
    (start .unbounded (steadyClock 0)).script singleRound = ⟨[roundTree], [], 6⟩ := by
  decide +kernel

theorem read_singleRound : ∃ d word ts after last,
    Statement d (word :: ts) 0 roundTree after last ∧ word.kind = .forWord := by
  have hfaultless : (start .unbounded (steadyClock 0)).Faultless singleRound :=
    ⟨by decide +kernel, by decide +kernel, by decide +kernel⟩
  have hhead : (wordsOf singleRound).head?.map Token.kind = some .forWord := by decide +kernel
  have hscript := hfaultless.script
  rw [script_singleRound] at hscript
  generalize wordsOf singleRound = words at hscript hhead
  unfold roundTree at hscript
  cases hscript with
  | cons hdeclaration _ =>
    cases hdeclaration with
    | var h => cases h
    | statement h =>
      cases words with
      | nil => cases hhead
      | cons word ts => exact ⟨_, word, ts, _, _, h, Option.some.inj hhead⟩

/-- The loop prints its variable once. -/
theorem for_means_what_it_says_singleRound :
    let session := start .unbounded (steadyClock 0)
    (∃ d word ts after last, Statement d (word :: ts) 0 roundTree after last ∧
      word.kind = .forWord) ∧ Reachable session ∧
    session.Undertaken 20 singleRound 20 (.execute roundTree) (session.bound singleRound) ∧
    ∃ loop id, roundTree = ForLoop.tree loop id ∧ ∃ c S env r,
      Mirrored (Addressed (session.binding singleRound).1 (session.script singleRound).nextId)
        roundTree (session.bound singleRound) c S env ∧
      Finishes (fun fuel => executeFor fuel env loop c.reference) (.ok .normal r) ∧
      r.sink.text = "true\n" := by
  intro session
  have hreachable : Reachable session := .start .unbounded (steadyClock 0)
  have hundertaken : session.Undertaken 20 singleRound 20 (.execute roundTree)
      (session.bound singleRound) := by
    refine ⟨rfl, ⟨by decide +kernel, by decide +kernel, by decide +kernel⟩, ?_⟩
    rw [script_singleRound]
    exact .now .here
  have hrun : execute 20 roundTree (session.bound singleRound) = .ok .normal _ :=
    Exec.ok_of_gives? (by decide +kernel)
  have hprinted : ((execute 20 roundTree).left (session.bound singleRound)).sink.text =
      "true\n" := by
    decide +kernel
  obtain ⟨d, word, ts, after, last, hread, hword⟩ := read_singleRound
  obtain ⟨loop, id, -, htree, halike, hexists⟩ := for_means_what_it_says hread hword
  obtain ⟨c, S, env, hmirrored⟩ := hexists session hreachable 20 singleRound 20 _ hundertaken
  obtain ⟨result, hfinishes, hsame⟩ := (halike _ _ c S env hmirrored).1 _ ⟨⟨20, hrun⟩, by simp⟩
  refine ⟨⟨d, word, ts, after, last, hread, hword⟩, hreachable, hundertaken, loop, id, htree, c, S,
    env, ?_⟩
  cases result with
  | ok flow r =>
    obtain ⟨rfl, hleaves⟩ := hsame
    exact ⟨r, hmirrored, hfinishes, hleaves.output ▸ hprinted⟩
  | error halt r => exact hsame.elim

/-- Every `for` in a source without static faults begins a statement of its script, which is the
tree of the loop that is read there. Whenever a run begins this statement, it goes on to do what
the loop does. -/
theorem for_statements_mean_loops (hreachable : Reachable session)
    (hfaultless : session.Faultless source) {before ts : List Token} {word : Token}
    (hwords : wordsOf source = before ++ word :: ts) (hword : word.kind = .forWord) :
    let P := Addressed (session.binding source).1 (session.script source).nextId
    ∃ d n loop after id around, ForLoop.Reads d ts n loop after id ∧
      Stands (session.script source).statements around (loop.tree id) ∧
      ∀ fuel rest m, session.Undertaken fuel source rest (.execute (loop.tree id)) m →
        ∃ c S env, Mirrored P (loop.tree id) m c S env ∧
          (∀ result, Finishes (fun fuel => execute fuel (loop.tree id) m) result →
            ∃ result', Finishes (fun fuel => executeFor fuel env loop c.reference) result' ∧
              FinishAlike P c S env result result') ∧
          ∀ result', Finishes (fun fuel => executeFor fuel env loop c.reference) result' →
            ∃ result, Finishes (fun fuel => execute fuel (loop.tree id) m) result ∧
              FinishAlike P c S env result result' := by
  intro P
  have hscript := hfaultless.script
  rw [hwords] at hscript
  obtain ⟨d, n, s, after, last, around, hread, hstands⟩ := hscript.loopAt hword
  obtain ⟨loop, id, hreads, rfl⟩ := exists_loop_of_for hread hword
  refine ⟨d, n, loop, after, id, around, hreads, hstands, fun fuel rest m hundertaken => ?_⟩
  obtain ⟨c, S, env, hmirrored⟩ := hundertaken.mirrored hreachable
  exact ⟨c, S, env, hmirrored, fun _ => hmirrored.loop_of_tree,
    fun _ => hmirrored.tree_of_loop⟩

end Session

end ScriptLang
