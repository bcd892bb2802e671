/-
ScriptLang.Proofs.Session.Places — every fault points into the source.

In a new session every token that the grammar, the binding and the evaluator
get to see was cut from the one source that is run: the trees keep tokens of
the source (`Proofs.Grammar.Outcomes`), binding complains about tokens of the
trees (`Proofs.Binding.Places`), and running raises faults at tokens of the
trees (`Proofs.Machine.Places`). So every fault of whatever kind is on the line
of something that scanning the source gave, and such a line exists in the
source (`faults_point_into_source`).
-/
import ScriptLang.Proofs.Binding.Places
import ScriptLang.Proofs.Grammar.Outcomes
import ScriptLang.Proofs.Machine.Places
import ScriptLang.Proofs.Session.History
import ScriptLang.Proofs.Token.Tiling

namespace ScriptLang

open Reference (halted?)

/-! ## 1. Lines of a source -/

/-- A line on which something stands that scanning a source gives: a token, the end of the input
included, or a lexical fault. -/
def LineOf (source : List UInt8) (line : Nat) : Prop :=
  ∃ item ∈ scan source, lineOf? item = some line

theorem LineOf.token {source : List UInt8} {t : Token} (h : t ∈ tokensOf (scan source)) :
    LineOf source t.line := by
  obtain ⟨item, hitem, heq⟩ := List.mem_filterMap.mp h
  refine ⟨item, hitem, ?_⟩
  cases item with
  | ok t' => rw [Option.some.inj heq]; rfl
  | error fault => cases heq

theorem LineOf.fault {source : List UInt8} {fault : Fault} (h : fault ∈ faultsOf (scan source)) :
    ∃ line, fault.line? = some line ∧ LineOf source line := by
  obtain ⟨item, hitem, heq⟩ := List.mem_filterMap.mp h
  cases item with
  | ok t => cases heq
  | error fault' =>
    obtain rfl := Option.some.inj heq
    rw [(scan_tiles source).2.1] at hitem
    rcases List.mem_append.mp hitem with hmem | hmem
    · obtain ⟨x, hx, hitem'⟩ := List.mem_filterMap.mp hmem
      have hline := ((scan_tiles source).2.2 x hx _ hitem').1
      exact ⟨_, hline, .error fault', by rw [(scan_tiles source).2.1]; exact hitem, hline⟩
    · cases List.mem_singleton.mp hmem

/-- Lines are counted from one, and there is one more than there are line feeds. -/
theorem LineOf.bounds {source : List UInt8} {line : Nat} (h : LineOf source line) :
    1 ≤ line ∧ line ≤ 1 + lineFeeds source := by
  obtain ⟨item, hitem, hline⟩ := h
  rw [(scan_tiles source).2.1] at hitem
  rcases List.mem_append.mp hitem with hmem | hmem
  · obtain ⟨x, hx, hitem'⟩ := List.mem_filterMap.mp hmem
    rw [((scan_tiles source).2.2 x hx _ hitem').1] at hline
    have hle : lineFeeds (source.take x.stop) ≤ lineFeeds source :=
      (List.take_sublist _ _).count_le _
    obtain rfl := Option.some.inj hline
    omega
  · rw [List.mem_singleton.mp hmem] at hline
    obtain rfl : 1 + lineFeeds source = line := Option.some.inj hline
    omega

/-- The token that ends the input is among those of the source. -/
theorem stopOf_mem_scan (source : List UInt8) :
    Grammar.stopOf (tokensOf (scan source)) ∈ tokensOf (scan source) := by
  have hend : (tokensOf (scan source)).find? (·.kind = .endOfInput) ≠ none := by
    rw [ne_eq, List.find?_eq_none, tokensOf_scan]
    intro h
    exact h _ (List.mem_append_right _ (List.mem_singleton.mpr rfl)) rfl
  obtain ⟨stop, hstop⟩ := Option.ne_none_iff_exists'.mp hend
  rw [Grammar.stopOf, hstop]
  exact List.mem_of_find?_eq_some hstop

theorem Ledger.faults_reportAll (ledger : Ledger) (faults : List Fault) :
    (ledger.reportAll faults).faults = ledger.faults ++ faults := by
  induction faults generalizing ledger with
  | nil => simp [reportAll]
  | cons fault faults ih =>
    rw [reportAll, List.foldl_cons, ← reportAll, ih, report, List.append_assoc]
    rfl

namespace Session

/-! ## 2. Faults of a unit -/

variable {session : Session} {source : List UInt8} {fuel : Nat}

/-- What is read from a unit is made of its tokens, and its faults point at them. -/
theorem made_script (session : Session) (source : List UInt8) :
    Grammar.MakesStmts (· ∈ tokensOf (ScriptLang.scan source)) session.nextId
        (session.script source).statements (session.script source).nextId ∧
      ∀ fault ∈ (session.script source).faults,
        Grammar.PointsAt (· ∈ tokensOf (ScriptLang.scan source)) fault :=
  Grammar.parse_made (fun _ ht => ht) (stopOf_mem_scan source) session.nextId

theorem line_of_readFaults {fault : Fault} (h : fault ∈ session.readFaults source) :
    ∃ line, fault.line? = some line ∧ LineOf source line := by
  rcases List.mem_append.mp h with hlexical | hgrammar
  · exact LineOf.fault hlexical
  · obtain ⟨t, cause, ht, rfl⟩ := (made_script session source).2 fault hgrammar
    exact ⟨t.line, rfl, .token ht⟩

theorem line_of_binding {fault : Fault} (h : fault ∈ (session.binding source).2) :
    ∃ line, fault.line? = some line ∧ LineOf source line := by
  obtain ⟨t, cause, ht, rfl⟩ :=
    Binding.places_resolve (made_script session source).1.fact _ fault h
  exact ⟨t.line, rfl, .token ht⟩

/-- A run in a new session fails at a token of its source: there are no other closures. -/
theorem line_of_runFaults {sink : Sink} {clock : Nat → Float} (hsink : sink.Unfailing) {fault : Fault}
    (h : fault ∈ (Session.start sink clock).runFaults fuel source) :
    ∃ line, fault.line? = some line ∧ LineOf source line := by
  have hfails : Fails (ScriptLang.interpret fuel ((Session.start sink clock).script source).statements)
      ((Session.start sink clock).bound source) (.fault fault) := by
    unfold runFaults at h
    cases hrun : ScriptLang.interpret fuel ((Session.start sink clock).script source).statements
        ((Session.start sink clock).bound source) with
    | ok _ m => simp [hrun, halted?] at h
    | error halt m =>
      cases halt with
      | outOfFuel => simp [hrun, halted?] at h
      | fault found =>
        obtain rfl : fault = found := by simpa [hrun, halted?] using h
        exact ⟨m, hrun⟩
  have hgranted : Store.Granted
      (Discipline.formed (· ∈ tokensOf (ScriptLang.scan source))).toLicence
      ((Session.start sink clock).bound source).store := Machine.granted_start _ sink clock
  obtain ⟨t, cause, ht, heq⟩ := places_interpret
    (made_script (Session.start sink clock) source).1.fact hgranted hsink hfails
  cases heq
  exact ⟨t.line, rfl, .token ht⟩

theorem line_of_reports {sink : Sink} {clock : Nat → Float} (hsink : sink.Unfailing) {fault : Fault}
    (h : fault ∈ (Session.start sink clock).reports fuel source) :
    ∃ line, fault.line? = some line ∧ LineOf source line := by
  unfold reports at h
  split at h
  · split at h
    · exact line_of_runFaults hsink h
    · exact line_of_binding h
  · exact line_of_readFaults h

/-- Whatever source is run in a new session with a sink that never fails, every fault that is
reported has a line, something that scanning the source gives stands on this line, and the line is
one of the source. -/
theorem faults_point_into_source (sink : Sink) (hsink : sink.Unfailing) (clock : Nat → Float)
    (fuel : Nat) (source : List UInt8) :
    ∀ fault ∈ ((Session.start sink clock).run fuel source).2.ledger.faults,
      ∃ line, fault.line? = some line ∧ (∃ item ∈ ScriptLang.scan source, lineOf? item = some line) ∧
        1 ≤ line ∧ line ≤ 1 + lineFeeds source := by
  intro fault hfault
  rw [ledger_run, Ledger.faults_reportAll] at hfault
  obtain ⟨line, hline, hof⟩ := line_of_reports hsink hfault
  exact ⟨line, hline, hof, hof.bounds⟩

/-- A unit that fails in a function declared two lines above the call. -/
def failingFunction : List UInt8 := spelling "fun f()\x7b\n-nil;\x7d\nf();"

theorem faults_point_into_source_failingFunction :
    ((Session.start .unbounded (steadyClock 0)).run 20 failingFunction).2.ledger.faults =
        [.runtime 2 .operandNotNumber] ∧
      (∃ item ∈ ScriptLang.scan failingFunction, lineOf? item = some 2) ∧
      2 ≤ 1 + lineFeeds failingFunction := by
  have hfaults : ((Session.start .unbounded (steadyClock 0)).run 20
      failingFunction).2.ledger.faults = [.runtime 2 .operandNotNumber] := by decide +kernel
  have hpoint := faults_point_into_source .unbounded ⟨rfl, rfl⟩ (steadyClock 0) 20 failingFunction
  rw [hfaults] at hpoint
  obtain ⟨line, hline, hitem, -, hle⟩ := hpoint _ (List.mem_singleton.mpr rfl)
  obtain rfl : 2 = line := Option.some.inj hline
  exact ⟨hfaults, hitem, hle⟩

end Session

end ScriptLang
