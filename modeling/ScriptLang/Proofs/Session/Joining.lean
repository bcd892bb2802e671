/-
ScriptLang.Proofs.Session.Joining — line by line or all at once.

Two sources, one after the other, do the same as the one source in which they
follow each other on separate lines (`run_join`). Each stage can be cut at the
line feed: the tokens of the whole are those of the parts, the second ones
further down; so are its statements; binding leaves nothing open between two
scripts; and a run goes on where the one before it has ended. What is left of
the difference are the lines, and the run does not depend on them.
-/
import ScriptLang.Proofs.Binding.Relabel
import ScriptLang.Proofs.Grammar.Shift
import ScriptLang.Proofs.Machine.Fuel
import ScriptLang.Proofs.Reference.Erasure
import ScriptLang.Proofs.Session.Reachable

namespace ScriptLang

open Grammar.Phrase (Script lowered)
open Binding (Addressed)
open Reference (Agrees Slots halted? finalState)

/-! ## 1. Words -/

theorem words_append_end {ws : List Token} (hws : ∀ t ∈ ws, t.kind ≠ .endOfInput) (line : Nat) :
    Grammar.words (ws ++ [.endOfInput line]) = ws := by
  rw [Grammar.words, List.takeWhile_append_of_pos fun t ht => by simpa using hws t ht]
  simp [Token.endOfInput]

theorem words_scan (source : List UInt8) :
    Grammar.words (tokensOf (scan source)) = wordsOf source := by
  rw [tokensOf_scan]
  exact words_append_end (fun t ht => ne_endOfInput_of_ofWord (ofWord_of_mem_wordsOf ht)) _

theorem words_scan_join (a b : List UInt8) (ha : faultsOf (scan a) = []) :
    Grammar.words (tokensOf (scan (a ++ lineFeed :: b))) =
      wordsOf a ++ (wordsOf b).map (Token.moved (lastLine a)) := by
  rw [(scan_join a b ha).1, tokensOf_scan, List.map_append, ← List.append_assoc]
  refine words_append_end (fun t ht => ?_) _
  rcases List.mem_append.mp ht with ht | ht
  · exact ne_endOfInput_of_ofWord (ofWord_of_mem_wordsOf ht)
  · obtain ⟨t', ht', rfl⟩ := List.mem_map.mp ht
    exact ne_endOfInput_of_ofWord (t := t') (ofWord_of_mem_wordsOf ht')

namespace Session

variable {session : Session} {source a b : List UInt8}

/-! ## 2. Units without static faults -/

/-- The words of a unit without faults are those of a script. -/
theorem Faultless.script (h : session.Faultless source) :
    Script (wordsOf source) session.nextId (session.script source).statements
      (session.script source).nextId := by
  have hscript := Grammar.script_of_parse h.grammar
  rwa [words_scan] at hscript

/-- A source has no static faults of its own. -/
def Clean (source : List UInt8) : Prop :=
  (Session.start .unbounded (steadyClock 0)).Faultless source

/-- A source without static faults of its own has none in any session. -/
theorem Clean.faultless (h : Clean source) (session : Session) : session.Faultless source := by
  have hscript := (Faultless.script h).shifted 0 session.nextId
  rw [map_moved_zero, ← words_scan] at hscript
  have hparse : session.script source = _ := Grammar.parse_of_script hscript
  refine ⟨h.lexical, by rw [hparse], ?_⟩
  rw [binding, hparse, ← List.length_eq_zero_iff, Binding.faults_relabel]
  exact congrArg List.length h.binding

/-- The statements of two sources one after the other, when the identities go on from the one to
the other. -/
theorem script_join {next : Session} (ha : session.Faultless a) (hb : next.Faultless b)
    (hnext : next.nextId = (session.script a).nextId) :
    session.script (a ++ lineFeed :: b) =
      ⟨Stmt.relabelAll (.shift 0 0) (session.script a).statements ++
          Stmt.relabelAll (.shift (lastLine a) 0) (next.script b).statements,
        [], 0 + (next.script b).nextId⟩ := by
  have hsecond := hb.script.shifted (lastLine a) 0
  rw [hnext] at hsecond
  have hboth := ha.script.append 0 0 hsecond
  rw [lowered, map_moved_zero, ← words_scan_join a b ha.lexical, Nat.zero_add] at hboth
  exact Grammar.parse_of_script hboth

/-- Two sources without static faults have none one after the other. -/
theorem faultless_join {next : Session} (ha : session.Faultless a) (hb : next.Faultless b)
    (hnext : next.nextId = (session.script a).nextId) :
    session.Faultless (a ++ lineFeed :: b) := by
  refine ⟨(scan_join a b ha.lexical).2 hb.lexical, ?_, ?_⟩
  · rw [script_join ha hb hnext]
  · rw [binding, script_join ha hb hnext]
    exact Binding.faults_append _ ha.binding hb.binding _ _

/-! ## 3. Runs -/

/-- Running the whole is running the second source where the first one has ended, lines apart. -/
theorem reference_join {next : Session} (ha : session.Faultless a) (hb : next.Faultless b)
    (hnext : next.nextId = (session.script a).nextId) {fuel : Nat} {r r' : Reference.Machine}
    (hrun : Reference.interpret fuel (session.script a).statements r = .ok () r') :
    Reference.erasedResult id
        (Reference.interpret fuel (session.script (a ++ lineFeed :: b)).statements r) =
      Reference.erasedResult id (Reference.interpret fuel (next.script b).statements r') := by
  rw [← Reference.interpret_append hrun]
  refine Reference.interpret_alike ?_ fuel r
  rw [script_join ha hb hnext, Stmt.relabelAll_append, Stmt.relabelAll_append,
    Stmt.erased_relabelAll, Stmt.erased_relabelAll]

section Endings

variable {x y : EStateM.Result Halt Reference.Machine Unit}

theorem eq_ok_of_halted? (h : halted? x = none) : x = .ok () (finalState x) := by
  cases x with
  | ok _ m => rfl
  | error halt m => cases h

/-- What a result without places still tells. -/
theorem ending_of_erased (h : Reference.erasedResult id x = Reference.erasedResult id y) :
    (halted? x).map Halt.erased = (halted? y).map Halt.erased ∧
      (finalState x).sink = (finalState y).sink := by
  have hhalted : ∀ z, (halted? z).map Halt.erased = halted? (Reference.erasedResult id z) := by
    intro z
    cases z <;> rfl
  have hsink : ∀ z, (finalState z).sink = (finalState (Reference.erasedResult id z)).sink := by
    intro z
    cases z <;> rfl
  rw [hhalted, hhalted, hsink, hsink y, h]
  exact ⟨rfl, rfl⟩

variable {halt halt' : Option Halt}

theorem halted?_of_statusOf (h : statusOf halt = .ok) : halt = none := by
  rcases halt with _ | _ | _
  · rfl
  · cases h
  · cases h

theorem statusOf_ne_staticFault (halt : Option Halt) : statusOf halt ≠ .staticFault := by
  rcases halt with _ | _ | _ <;> simp [statusOf]

theorem statusOf_congr (h : halt.map Halt.erased = halt'.map Halt.erased) :
    statusOf halt = statusOf halt' := by
  have herased : ∀ halt : Option Halt, statusOf (halt.map Halt.erased) = statusOf halt := by
    intro halt
    rcases halt with _ | _ | _ <;> rfl
  rw [← herased, h, herased]

/-- The fault that ended a run, if one did. -/
def endingFaults : Option Halt → List Fault
  | some (.fault fault) => [fault]
  | _ => []

theorem ledgerAfter_congr (h : halt.map Halt.erased = halt'.map Halt.erased) (ledger : Ledger) :
    (ledgerAfter ledger halt).faults.map Fault.erased =
      (ledgerAfter ledger halt').faults.map Fault.erased := by
  have herased : ∀ halt : Option Halt, (ledgerAfter ledger halt).faults.map Fault.erased =
      ledger.faults.map Fault.erased ++ endingFaults (halt.map Halt.erased) := by
    intro halt
    rcases halt with _ | fault | _ <;>
      simp [ledgerAfter, endingFaults, Ledger.report, Halt.erased]
  rw [herased, herased, h]

end Endings

/-- A unit that ends with some fuel ends in the same way with more. -/
theorem run_fuel {fuel fuel' : Nat} (hle : fuel ≤ fuel')
    (h : (session.run fuel source).1 ≠ .unfinished) :
    session.run fuel' source = session.run fuel source := by
  rw [run_eq] at h
  rw [run_eq, run_eq]
  dsimp only at h ⊢
  split
  · rfl
  · split
    · rfl
    · rename_i hread hresolved
      rw [if_neg hread, if_neg hresolved, interpret_eq] at h
      rw [interpret_eq, interpret_eq, interpret_fuel hle]
      intro m' hout
      dsimp only at h
      rw [hout] at h
      exact h rfl

/-- Where the first of two sources ends well, the whole prints what the two print one after the
other, ends as the second one does, with the same cause if it fails, and has no static fault.
Nothing needs to be known about the output or the clock: the two ways write the same bytes in the
same order, so a sink refuses both or none, and they read the clock equally often. -/
theorem run_join (h : Reachable session) (hstatic : session.ledger.hadStatic = false)
    (ha : Clean a) (hb : Clean b) {enough fuel : Nat} (hok : (session.run enough a).1 = .ok)
    (hle : enough ≤ fuel) :
    let second := (session.run enough a).2.run fuel b
    let joined := session.run fuel (a ++ lineFeed :: b)
    joined.2.machine.sink = second.2.machine.sink ∧ joined.1 = second.1 ∧
      joined.2.ledger.faults.map Fault.erased = second.2.ledger.faults.map Fault.erased ∧
      joined.1 ≠ .staticFault := by
  have hsame := run_fuel hle (fun hunfinished => by rw [hok] at hunfinished; cases hunfinished)
  rw [← hsame] at hok ⊢
  intro second joined
  have hsettled := h.settled
  obtain ⟨slots, r, hagrees⟩ := hsettled.agrees
  -- The first source leaves a settled session that agrees with the end of the reference run.
  have hfirst := ha.faultless session
  have hrun := hsettled.runsAs hstatic hfirst fuel hagrees
  have hended := eq_ok_of_halted? (halted?_of_statusOf (hrun.status.symm.trans hok))
  have hledger := hrun.ledger
  rw [hended] at hledger
  obtain ⟨slots₁, hagrees₁⟩ := hrun.agrees
  -- From there the second source runs, and from the beginning the whole.
  have hsecond := hb.faultless (session.run fuel a).2
  have hrun₂ := (hsettled.run fuel a).runsAs (hledger ▸ hstatic) hsecond fuel hagrees₁
  have hjoined := faultless_join hfirst hsecond hrun.nextId
  have hrun₃ := hsettled.runsAs hstatic hjoined fuel hagrees
  obtain ⟨hhalted, hsink⟩ := ending_of_erased (reference_join hfirst hsecond hrun.nextId hended)
  obtain ⟨_, hagrees₂⟩ := hrun₂.agrees
  obtain ⟨_, hagrees₃⟩ := hrun₃.agrees
  have hstatus : joined.1 = second.1 :=
    hrun₃.status.trans ((statusOf_congr hhalted).trans hrun₂.status.symm)
  refine ⟨hagrees₃.sink.symm.trans (hsink.trans hagrees₂.sink), hstatus, ?_, ?_⟩
  · rw [hrun₃.ledger, hrun₂.ledger, hledger]
    exact ledgerAfter_congr hhalted session.ledger
  · rw [hrun₃.status]
    exact statusOf_ne_staticFault _

/-- A unit that declares a global variable. -/
def globalDeclaration : List UInt8 := spelling "var b;"

/-- A fault on line 1 of the second source is on line 2 of the whole. -/
theorem run_join_globalDeclaration :
    let session := Session.start .unbounded (steadyClock 0)
    (Reachable session ∧ session.ledger.hadStatic = false ∧ Clean globalDeclaration ∧
      Clean globalReading ∧ (session.run 2 globalDeclaration).1 = .ok) ∧
    (session.run 3 (globalDeclaration ++ lineFeed :: globalReading)).1 =
      ((session.run 2 globalDeclaration).2.run 3 globalReading).1 ∧
    ((session.run 2 globalDeclaration).2.run 3 globalReading).2.ledger.faults =
      [.runtime 1 (.undefinedVariable "a")] ∧
    (session.run 3 (globalDeclaration ++ lineFeed :: globalReading)).2.ledger.faults =
      [.runtime 2 (.undefinedVariable "a")] := by
  intro session
  have hreachable : Reachable session := .start .unbounded (steadyClock 0)
  have hstatic : session.ledger.hadStatic = false := rfl
  have ha : Clean globalDeclaration := ⟨by decide +kernel, by decide +kernel, by decide +kernel⟩
  have hb : Clean globalReading := ⟨by decide +kernel, by decide +kernel, by decide +kernel⟩
  have hok : (session.run 2 globalDeclaration).1 = .ok := by decide +kernel
  have hjoin := run_join hreachable hstatic ha hb hok (Nat.le_succ 2)
  exact ⟨⟨hreachable, hstatic, ha, hb, hok⟩, hjoin.2.1, by decide +kernel, by decide +kernel⟩

end Session

end ScriptLang
