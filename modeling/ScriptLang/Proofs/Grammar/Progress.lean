/-
ScriptLang.Proofs.Grammar.Progress — the reader stays within the tokens.

The reader keeps the tokens that are ahead. Seen from the list it was given, it
stands at an index, never beyond the first end of the input (`State.At`). The
list is closed with an end of the input before it is read (`supplied`), so there
is a token at every such index.

`Rule` names everything a reading consists of: the rules of the grammar, their
repetitions, and the ways to take a token. `parse_progresses` says what they
do at any index. They end at an index that is not lower, and a declaration
that begins before the end of the input ends at a higher one, with a fault or
without. No bound is met anywhere, and the whole list is read.
-/
import ScriptLang.Proofs.Grammar.Pace

namespace ScriptLang.Grammar

/-! ## 1. Indices -/

/-- The tokens that are read, with an end of the input at the end. -/
def supplied (tokens : List Token) : List Token :=
  if tokens.getLast?.map Token.kind = some .endOfInput then tokens
  else tokens ++ [.endOfInput ((tokens.getLast?.map Token.line).getD 1)]

/-- The index of the first end of the input. -/
def endIndex (tokens : List Token) : Nat :=
  (supplied tokens).findIdx (·.kind = .endOfInput)

/-- The next token is the one at an index, which is not beyond the first end of the input. -/
structure State.At (tokens : List Token) (current : Nat) (s : State) : Prop where
  le : current ≤ endIndex tokens
  ahead : s.ahead = ((supplied tokens).take (endIndex tokens)).drop current
  stop : (supplied tokens)[endIndex tokens]? = some s.stop

theorem find?_supplied (tokens : List Token) :
    (supplied tokens).find? (·.kind = .endOfInput) = some (stopOf tokens) := by
  unfold supplied stopOf
  split
  · rename_i hlast
    obtain ⟨t, ht, hkind⟩ := Option.map_eq_some_iff.mp hlast
    have hsome : (tokens.find? (·.kind = .endOfInput)).isSome := by
      rw [List.find?_isSome]
      exact ⟨t, List.mem_of_getLast? ht, by simpa using hkind⟩
    obtain ⟨t', ht'⟩ := Option.isSome_iff_exists.mp hsome
    simp [ht']
  · rw [List.find?_append]
    cases htokens : tokens.find? (·.kind = .endOfInput) with
    | some t => rfl
    | none => simp [Token.endOfInput]

theorem takeWhile_supplied (tokens : List Token) :
    tokens.takeWhile (·.kind ≠ .endOfInput) = (supplied tokens).take (endIndex tokens) := by
  have hsupplied : (supplied tokens).takeWhile (·.kind ≠ .endOfInput) =
      tokens.takeWhile (·.kind ≠ .endOfInput) := by
    unfold supplied
    split
    · rfl
    · rw [List.takeWhile_append]
      split
      · rename_i hall
        rw [(List.takeWhile_prefix _).eq_of_length hall]
        simp [Token.endOfInput]
      · rfl
  rw [← hsupplied, List.takeWhile_eq_take_findIdx_not, endIndex]
  simp

theorem length_take_supplied (tokens : List Token) :
    ((supplied tokens).take (endIndex tokens)).length = endIndex tokens :=
  List.length_take_of_le List.findIdx_le_length

theorem getElem?_endIndex (tokens : List Token) :
    (supplied tokens)[endIndex tokens]? = some (stopOf tokens) := by
  rw [← find?_supplied, List.find?_eq_getElem?_findIdx, endIndex]

theorem State.at_start (tokens : List Token) (nextId : Nat) :
    (State.start tokens nextId).At tokens 0 where
  le := Nat.zero_le _
  ahead := takeWhile_supplied tokens
  stop := getElem?_endIndex tokens

namespace State.At

variable {tokens : List Token} {current : Nat} {s s' : State}

theorem length_ahead (h : s.At tokens current) : s.ahead.length = endIndex tokens - current := by
  rw [h.ahead, List.length_drop, length_take_supplied]

/-- The next token stands at the index. -/
theorem peek (h : s.At tokens current) :
    ∃ token, (supplied tokens)[current]? = some token ∧ Grammar.peek s = .ok token s := by
  refine ⟨s.ahead.headD s.stop, ?_, rfl⟩
  rcases Nat.lt_or_eq_of_le h.le with hlt | rfl
  · have hlength := h.length_ahead
    cases hahead : s.ahead with
    | nil =>
      rw [hahead, List.length_nil] at hlength
      omega
    | cons t rest =>
      have hhead : s.ahead.head? = (supplied tokens)[current]? := by
        rw [h.ahead, List.head?_drop, List.getElem?_take_of_lt hlt]
      rw [← hhead, hahead]
      rfl
  · have hempty : s.ahead = [] := List.eq_nil_of_length_eq_zero (by rw [h.length_ahead]; omega)
    rw [hempty, h.stop]
    rfl

/-- Going forward in the tokens is going forward in the indices. -/
theorem forward (h : s.At tokens current) (hforward : s.Forward s') :
    s'.At tokens (endIndex tokens - s'.ahead.length) := by
  have hsuffix : s'.ahead <:+ (supplied tokens).take (endIndex tokens) :=
    hforward.ahead.trans (h.ahead ▸ List.drop_suffix current _)
  refine ⟨Nat.sub_le _ _, ?_, hforward.stop ▸ h.stop⟩
  have hdrop := List.suffix_iff_eq_drop.mp hsuffix
  rwa [length_take_supplied] at hdrop

end State.At

/-- A reading ends at an index from a lower one on, and meets no bound. -/
def Lands {α : Type} (tokens : List Token) (low : Nat) : EStateM.Result Fault State α → Prop
  | .ok _ s => ∃ current, low ≤ current ∧ s.At tokens current
  | .error fault s => fault.isTooDeep = false ∧ ∃ current, low ≤ current ∧ s.At tokens current

theorem Paced.lands {α : Type} {p : α → Nat} {x : Reading α} (h : ∀ bound, Paced 0 bound p x x)
    {tokens : List Token} {current : Nat} {s : State} (hs : s.At tokens current) :
    Lands tokens current (x s) := by
  have hpace := h (s.ahead.length + 1) s (Nat.zero_le _) (Nat.lt_succ_self _)
  have hlength := hs.length_ahead
  have hcurrent := hs.le
  cases hx : x s with
  | ok a s' =>
    rw [hx] at hpace
    have hle := hpace.2.1.length_le
    exact ⟨_, by omega, hs.forward hpace.2.1⟩
  | error fault s' =>
    rw [hx] at hpace
    have hle := hpace.2.1.length_le
    exact ⟨hpace.2.2, _, by omega, hs.forward hpace.2.1⟩

/-! ## 2. Every rule -/

/-- The rounds of the repetitions in the grammar. -/
inductive Repeated : {α β : Type} → (α → Reading (α ⊕ β)) → Prop where
  | operators (level : Level) (tighter : List Level) :
    Repeated (operatorRound level (binaryFrom (unaryWith expression) tighter))
  | calls : Repeated (callRound expression)
  | arguments : Repeated (separatedRound .arguments expression)
  | parameters : Repeated (separatedRound .parameters (require .identifier .parameterName))
  | declarations : Repeated (repeatRound atClosingBrace (Option.toList <$> declaration))
  | methods :
    Repeated (repeatRound atClosingBrace (List.singleton <$> routineWith declaration .method))
  | script : Repeated (repeatRound atEnd (Option.toList <$> declaration))

/-- The rules of the grammar, and the ways to take a token. -/
inductive Rule : {α : Type} → Reading α → Prop where
  | accept (kinds : List Kind) : Rule (accept? kinds)
  | require (kind : Kind) (wanted : Wanted) : Rule (require kind wanted)
  | repetition {α β : Type} {step : α → Reading (α ⊕ β)} (h : Repeated step) (a : α) :
    Rule (iterate a step)
  | primary : Rule (primaryWith expression)
  | finishCall (callee : Expr) : Rule (finishCallWith expression callee)
  | call : Rule (callWith expression)
  | unary : Rule (unaryWith expression)
  | binary (ls : List Level) : Rule (binaryFrom (unaryWith expression) ls)
  | expression : Rule expression
  | varDeclaration : Rule varDeclaration
  | expressionStatement : Rule expressionStatement
  | printStatement : Rule printStatement
  | returnStatement (keyword : Token) : Rule (returnStatement keyword)
  | forStatement : Rule (forStatementWith statement)
  | ifStatement : Rule (ifStatementWith statement)
  | whileStatement : Rule (whileStatementWith statement)
  | statement : Rule statement
  | block : Rule (blockWith declaration)
  | routine (role : RoutineRole) : Rule (routineWith declaration role)
  | classDeclaration : Rule (classDeclarationWith declaration)
  | declaration : Rule declaration
  | script : Rule script

theorem Repeated.rounds {α β : Type} {step : α → Reading (α ⊕ β)} (h : Repeated step)
    (bound : Nat) : Rounds bound step step := by
  have hdeclaration : Paced 1 bound (fun _ => 1) declaration declaration :=
    paced_declaration (Nat.le_refl 1) (Nat.le_refl 1)
  have hfewer : ∀ {α β : Type} {step : α → Reading (α ⊕ β)}, Rounds (bound + 1) step step →
      Rounds bound step step := fun hround a =>
    (hround a).mono (Nat.le_refl _) (Nat.le_succ bound) fun _ => Nat.le_refl _
  cases h with
  | operators level tighter =>
    exact hfewer (paced_operatorRound level (paced_binaryFrom (paced_unaryWith paced_expression) _))
  | calls => exact hfewer (paced_callRound paced_expression)
  | arguments => exact paced_separatedRound paced_expression
  | parameters => exact paced_separatedRound (Paced.require .identifier .parameterName)
  | declarations => exact paced_repeatUntil atClosingBrace_cases (hdeclaration.map Option.toList)
  | methods => exact paced_methods hdeclaration
  | script => exact paced_scriptRound

/-- A rule goes forward from wherever it is called, and meets no bound. -/
theorem steady_of_rule {α : Type} {x : Reading α} (h : Rule x) (bound : Nat) :
    Steady bound 0 x x := by
  have hdeclaration : Paced 1 bound (fun _ => 1) declaration declaration :=
    paced_declaration (Nat.le_refl 1) (Nat.le_refl 1)
  have hexpression : Steady bound 1 expression expression := paced_expression
  have hone : ∀ {α : Type} {x : Reading α}, Steady bound 1 x x → Steady bound 0 x x :=
    fun hx => hx.slower (Nat.zero_le 1)
  have hfewer : ∀ {α : Type} {x : Reading α}, Steady (bound + 1) 1 x x → Steady bound 0 x x :=
    fun hx => hx.mono (Nat.le_refl _) (Nat.le_succ bound) fun _ => Nat.zero_le 1
  cases h with
  | accept kinds => exact .accept? kinds
  | require kind wanted => exact hone (Paced.require kind wanted)
  | repetition hstep a => exact .iterate (hstep.rounds bound) a
  | primary => exact hfewer (paced_primaryWith hexpression)
  | finishCall callee => exact hone (paced_finishCallWith hexpression callee)
  | call => exact hfewer (paced_callWith hexpression)
  | unary => exact hfewer (paced_unaryWith hexpression)
  | binary ls => exact hfewer (paced_binaryFrom (paced_unaryWith hexpression) ls)
  | expression => exact hone hexpression
  | varDeclaration => exact hone paced_varDeclaration
  | expressionStatement => exact hone paced_expressionStatement
  | printStatement => exact hone paced_printStatement
  | returnStatement keyword => exact hone (paced_returnStatement keyword)
  | forStatement => exact hone (paced_forStatementWith paced_statement)
  | ifStatement => exact hone (paced_ifStatementWith paced_statement)
  | whileStatement => exact hone (paced_whileStatementWith paced_statement)
  | statement => exact hone paced_statement
  | block => exact hone (paced_blockWith hdeclaration)
  | routine role => exact hone (paced_routineWith hdeclaration role)
  | classDeclaration => exact hone (paced_classDeclarationWith hdeclaration)
  | declaration => exact paced_declaration (Nat.zero_le 1) (Nat.le_refl 0)
  | script =>
    rw [script_eq]
    exact .iterate paced_scriptRound []

/-- Whatever the tokens are, reading them ends at the first end of the input and meets no bound. From
every index up to there, each rule ends at one that is not lower, a declaration at a higher one
unless it begins at the end, and each repetition is its first round and the rounds after it. -/
theorem parse_progresses (tokens : List Token) (nextId : Nat) :
    (∃ s, script (.start tokens nextId) = .ok (parse tokens nextId).statements s ∧
      s.At tokens (endIndex tokens) ∧ s.faults = (parse tokens nextId).faults ∧
      ∀ fault ∈ s.faults, fault.isTooDeep = false) ∧
    (State.start tokens nextId).At tokens 0 ∧
    (∀ current s, s.At tokens current →
      (∃ token, (supplied tokens)[current]? = some token ∧ peek s = .ok token s) ∧
      (∀ {α : Type} (rule : Reading α), Rule rule → Lands tokens current (rule s)) ∧
      (current < endIndex tokens → ∃ o s' current', declaration s = .ok o s' ∧
        current < current' ∧ s'.At tokens current')) ∧
    expression = assignmentWith expression ∧ statement = statementWith declaration statement ∧
    declaration = declarationWith declaration statement ∧
    ∀ {α β : Type} (step : α → Reading (α ⊕ β)), Repeated step → ∀ a,
      iterate a step = step a >>= Sum.elim (fun a' => iterate a' step) pure := by
  have hstart := State.at_start tokens nextId
  refine ⟨?_, hstart, ?_, expression_eq, statement_eq, declaration_eq, ?_⟩
  · obtain ⟨statements, s, hrun, hforward, hempty⟩ := script_ends (.start tokens nextId)
    have hat := hstart.forward hforward
    rw [hempty] at hat
    obtain ⟨new, hnew, hbelow⟩ := hforward.faults
    unfold parse
    rw [hrun]
    refine ⟨s, rfl, hat, rfl, ?_⟩
    intro fault hfault
    rw [hnew] at hfault
    exact hbelow fault (by simpa [State.start] using hfault)
  · intro current s hs
    refine ⟨hs.peek, fun rule hrule => Paced.lands (steady_of_rule hrule) hs, ?_⟩
    intro hlt
    have hlength := hs.length_ahead
    obtain ⟨o, s', hrun, hforward, hfewer⟩ := declaration_takes (s := s) (by omega)
    exact ⟨o, s', _, hrun, by omega, hs.forward hforward⟩
  · intro α β step hstep a
    exact iterate_eq hstep.rounds a

end ScriptLang.Grammar
