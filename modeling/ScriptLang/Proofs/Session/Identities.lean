/-
ScriptLang.Proofs.Session.Identities — identities never collide, and hop counts
stay.

All units of a session draw from one count of identities, and one table holds
the hop counts of all of them. Reading hands out each identity once, whether or
not the unit has faults (`Proofs.Grammar.Outcomes`), so the expressions in all
the statements that are ever returned have different identities. Binding a unit
writes hop counts under the identities of its own mentions only, and running
writes none. So the hop counts of an earlier unit, and the lack of them, last
(`identities_never_collide`).
-/
import ScriptLang.Proofs.Binding.Bound
import ScriptLang.Proofs.Grammar.Outcomes
import ScriptLang.Proofs.Session.Control

namespace ScriptLang

/-! ## 1. Lists of tokens -/

namespace Grammar

/-- Lists of tokens are read one after the other, with one count of identities. -/
def parseAll : List (List Token) → Nat → List Parsed
  | [], _ => []
  | tokens :: later, n => parse tokens n :: parseAll later (parse tokens n).nextId

/-- The next unused identity after some lists of tokens. -/
def nextIdAfter (units : List (List Token)) (n : Nat) : Nat :=
  units.foldl (fun n tokens => (parse tokens n).nextId) n

/-- The identities of all expressions in everything that was returned. -/
def idsOf (units : List Parsed) : List Nat :=
  units.flatMap fun parsed => Stmt.idsAll parsed.statements

/-- Nothing is asked of the tokens. -/
theorem parse_made_any (tokens : List Token) (n : Nat) :
    MakesStmts (fun _ => True) n (parse tokens n).statements (parse tokens n).nextId :=
  (parse_made (fun _ _ => trivial) trivial n).1

theorem distinct_parseAll (units : List (List Token)) (n : Nat) :
    Distinct n (nextIdAfter units n) (idsOf (parseAll units n)) := by
  induction units generalizing n with
  | nil => exact ⟨Nat.le_refl n, List.nodup_nil, by simp [idsOf, parseAll]⟩
  | cons tokens later ih =>
    have hlater : Made _ _ _ True := ⟨ih (parse tokens n).nextId, trivial⟩
    exact (Made.append (parse_made_any tokens n) hlater).distinct

/-- Binding the statements of a list of tokens changes hop counts under their own identities
only. -/
theorem get?_resolve_parse {tokens : List Token} {n id : Nat}
    (hid : id ∉ Stmt.idsAll (parse tokens n).statements) (hops : HopTable) :
    (Binding.resolve (parse tokens n).statements hops).1.get? id = hops.get? id := by
  refine Binding.get?_resolve (tidyAll_of_formed (parse_made_any tokens n).fact) fun m hm heq => ?_
  exact hid (heq ▸ Stmt.id_mem_of_mentionsAll _ m hm)

theorem get?_resolve_of_lt {tokens : List Token} {n id : Nat} (hid : id < n) (hops : HopTable) :
    (Binding.resolve (parse tokens n).statements hops).1.get? id = hops.get? id := by
  refine get?_resolve_parse (fun hmem => ?_) hops
  have := ((parse_made_any tokens n).distinct.bounds id hmem).1
  omega

theorem exists_of_mem_parseAll {units : List (List Token)} {n : Nat} {parsed : Parsed}
    (h : parsed ∈ parseAll units n) : ∃ tokens n', parsed = parse tokens n' := by
  induction units generalizing n with
  | nil => simp [parseAll] at h
  | cons tokens later ih =>
    rcases List.mem_cons.mp h with rfl | h
    · exact ⟨tokens, n, rfl⟩
    · exact ih h

/-- The identities of what was read earlier are not those of what is read later. -/
theorem not_mem_ids_of_earlier {units before after : List Parsed} {parsed : Parsed} {id : Nat}
    (hnodup : (idsOf units).Nodup) (heq : units = before ++ parsed :: after)
    (hid : id ∈ idsOf before) : id ∉ Stmt.idsAll parsed.statements := by
  intro hmem
  rw [heq, idsOf, List.flatMap_append, List.flatMap_cons, List.nodup_append] at hnodup
  exact hnodup.2.2 id hid id (List.mem_append_left _ hmem) rfl

end Grammar

/-! ## 2. Units of a session -/

namespace Session

/-- What is done with a unit of source after it is read: nothing, or its names are bound, or its
statements are also run, whatever faults there were; or it is run as units and lines are. -/
inductive Use where
  | read
  | resolve
  | interpret (fuel : Nat)
  | run (fuel : Nat)
  | runLine (fuel : Nat)

/-- The session after a unit was used. -/
def use (session : Session) (source : List UInt8) : Use → Session
  | .read => (session.parse source).2
  | .resolve => (session.parse source).2.resolve (session.parse source).1
  | .interpret fuel =>
    (((session.parse source).2.resolve (session.parse source).1).interpret fuel
      (session.parse source).1).2
  | .run fuel => (session.run fuel source).2
  | .runLine fuel => (session.runLine fuel source).2

/-- The session after some units were used, one after the other. -/
def useAll (session : Session) (units : List (List UInt8 × Use)) : Session :=
  units.foldl (fun session unit => session.use unit.1 unit.2) session

/-- The identities of all expressions in the statements of some units. -/
def idsOf : List (List UInt8 × Use) → Session → List Nat
  | [], _ => []
  | unit :: later, session =>
    Stmt.idsAll (session.parse unit.1).1 ++ idsOf later (session.use unit.1 unit.2)

/-- From one session to another more identities are handed out, and the hop counts of earlier ones
stay. -/
structure Outlasts (session session' : Session) : Prop where
  nextId : session.nextId ≤ session'.nextId
  hops : ∀ id, id < session.nextId →
    session'.machine.hops.get? id = session.machine.hops.get? id

theorem Outlasts.trans {first second third : Session} (h : first.Outlasts second)
    (h' : second.Outlasts third) : first.Outlasts third where
  nextId := Nat.le_trans h.nextId h'.nextId
  hops id hid := (h'.hops id (Nat.lt_of_lt_of_le hid h.nextId)).trans (h.hops id hid)

variable {session : Session} {source : List UInt8}

theorem nextId_run (fuel : Nat) (session : Session) (source : List UInt8) :
    (session.run fuel source).2.nextId = (session.script source).nextId := by
  by_cases hruns : session.ledger.hadStatic = false ∧ session.Faultless source
  · rw [run_of_faultless fuel hruns.1 hruns.2, interpret_eq]
  · exact (run_of_faulty fuel hruns).2.1

theorem get?_bound {id : Nat} (hid : id < session.nextId) :
    (session.bound source).hops.get? id = session.machine.hops.get? id :=
  Grammar.get?_resolve_of_lt hid _

/-- Running statements changes no hop count. -/
theorem hops_interpret (fuel : Nat) (session : Session) (statements : List Stmt) :
    (session.interpret fuel statements).2.machine.hops = session.machine.hops := by
  rw [interpret_eq]
  dsimp only
  rw [finalState_eq_left]
  obtain ⟨store, written, readings, heq⟩ := restores_interpret fuel statements session.machine
  rw [heq]

theorem outlasts_run (fuel : Nat) (session : Session) (source : List UInt8) :
    session.Outlasts (session.run fuel source).2 := by
  refine ⟨nextId_run fuel session source ▸ (Grammar.parse_made_any _ _).le, fun id hid => ?_⟩
  by_cases hruns : session.ledger.hadStatic = false ∧ session.Faultless source
  · rw [run_of_faultless fuel hruns.1 hruns.2, hops_interpret]
    exact get?_bound hid
  · obtain ⟨-, -, hmachine | ⟨-, hmachine⟩⟩ := run_of_faulty fuel hruns
    · rw [hmachine]
    · rw [hmachine]
      exact get?_bound hid

/-- Whatever is done with a unit, it leaves the hop counts of earlier units alone, and uses up the
identities of its own expressions. -/
theorem outlasts_use (session : Session) (source : List UInt8) (use : Use) :
    session.Outlasts (session.use source use) ∧
      (session.use source use).nextId = (session.script source).nextId := by
  have hle : session.nextId ≤ (session.script source).nextId := (Grammar.parse_made_any _ _).le
  cases use with
  | read => exact ⟨⟨hle, fun _ _ => rfl⟩, rfl⟩
  | resolve => exact ⟨⟨hle, fun id hid => get?_bound hid⟩, rfl⟩
  | interpret fuel =>
    have hnextId : (session.use source (.interpret fuel)).nextId = (session.script source).nextId := by
      rw [Session.use, interpret_eq]
      rfl
    refine ⟨⟨hnextId ▸ hle, fun id hid => ?_⟩, hnextId⟩
    rw [Session.use, hops_interpret]
    exact get?_bound hid
  | run fuel => exact ⟨outlasts_run fuel session source, nextId_run fuel session source⟩
  | runLine fuel =>
    have houtlasts := outlasts_run fuel { session with ledger := session.ledger.resetStatic } source
    exact ⟨⟨houtlasts.nextId, houtlasts.hops⟩, nextId_run fuel _ source⟩

theorem outlasts_useAll (units : List (List UInt8 × Use)) (session : Session) :
    session.Outlasts (session.useAll units) := by
  induction units generalizing session with
  | nil => exact ⟨Nat.le_refl _, fun _ _ => rfl⟩
  | cons unit later ih => exact (outlasts_use session unit.1 unit.2).1.trans (ih _)

theorem distinct_idsOf (units : List (List UInt8 × Use)) (session : Session) :
    Distinct session.nextId (session.useAll units).nextId (idsOf units session) := by
  induction units generalizing session with
  | nil => exact ⟨Nat.le_refl _, List.nodup_nil, by simp [idsOf]⟩
  | cons unit later ih =>
    have hfirst := Grammar.parse_made_any (tokensOf (ScriptLang.scan unit.1)) session.nextId
    have hlater : Made _ _ _ True := ⟨ih (session.use unit.1 unit.2), trivial⟩
    rw [(outlasts_use session unit.1 unit.2).2] at hlater
    exact (Made.append hfirst hlater).distinct

/-! ## 3. Units that come later -/

/-- Of lists of tokens that are read one after the other, with or without faults, all expressions
have different identities, and binding the statements of one of them on any table leaves the hop
counts of the expressions of the earlier ones as they are. And in every session, whatever is done
with the units, all expressions of all units have different identities, and the later units leave
the hop counts of the expressions of the earlier ones as they are. -/
theorem identities_never_collide :
    (∀ (units : List (List Token)) (n : Nat),
      (Grammar.idsOf (Grammar.parseAll units n)).Nodup ∧
      ∀ before parsed after, Grammar.parseAll units n = before ++ parsed :: after →
        ∀ (hops : HopTable), ∀ id ∈ Grammar.idsOf before,
          (Binding.resolve parsed.statements hops).1.get? id = hops.get? id) ∧
    (∀ (session : Session) (earlier later : List (List UInt8 × Use)),
      (idsOf (earlier ++ later) session).Nodup ∧
      ∀ id ∈ idsOf earlier session,
        (session.useAll (earlier ++ later)).machine.hops.get? id =
          (session.useAll earlier).machine.hops.get? id) := by
  constructor
  · intro units n
    have hnodup := (Grammar.distinct_parseAll units n).nodup
    refine ⟨hnodup, fun before parsed after heq hops id hid => ?_⟩
    have hmem : parsed ∈ Grammar.parseAll units n := by simp [heq]
    have hnew := Grammar.not_mem_ids_of_earlier hnodup heq hid
    obtain ⟨tokens, n', rfl⟩ := Grammar.exists_of_mem_parseAll hmem
    exact Grammar.get?_resolve_parse hnew hops
  · intro session earlier later
    refine ⟨(distinct_idsOf (earlier ++ later) session).nodup, fun id hid => ?_⟩
    have hlt := ((distinct_idsOf earlier session).bounds id hid).2
    rw [useAll, List.foldl_append]
    exact (outlasts_useAll later (session.useAll earlier)).hops id hlt

/-- A unit with a loop that has no condition, and with a target that cannot be assigned to. -/
def faultyLoop : List UInt8 := spelling "for(;;)1=a;"

/-- After a local variable was read and bound under identity 0, a unit with faults uses the
identities 1 to 3, and leaves the hop count under 0 as it is even if its statements are bound. -/
theorem identities_never_collide_faultyLoop :
    (let first := Grammar.parse (tokensOf (ScriptLang.scan localReading)) 0
     let second := Grammar.parse (tokensOf (ScriptLang.scan faultyLoop)) first.nextId
     second.faults ≠ [] ∧ ∀ hops : HopTable,
      (Binding.resolve second.statements hops).1.get? 0 = hops.get? 0) ∧
    (let session := Session.start .unbounded (steadyClock 0)
     let earlier := [(localReading, Use.run 9)]
     let later := [(faultyLoop, Use.resolve), (localReading, Use.run 9)]
     idsOf (earlier ++ later) session = [0, 3, 1, 4] ∧
      (session.useAll (earlier ++ later)).machine.hops.get? 0 = some 0) := by
  constructor
  · intro first second
    refine ⟨by decide +kernel, fun hops => ?_⟩
    exact (identities_never_collide.1 [tokensOf (ScriptLang.scan localReading),
      tokensOf (ScriptLang.scan faultyLoop)] 0).2 [first] second [] rfl hops 0 (by decide +kernel)
  · intro session earlier later
    have hid : 0 ∈ idsOf earlier session := by decide +kernel
    have hhops : (session.useAll earlier).machine.hops.get? 0 = some 0 := by decide +kernel
    have hstays := (identities_never_collide.2 session earlier later).2 0 hid
    exact ⟨by decide +kernel, hstays.trans hhops⟩

end Session

end ScriptLang
