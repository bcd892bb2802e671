/-
ScriptLang.Proofs.Tree.Unambiguous — outlines tell trees apart.

Of a tree that was read without faults, from a source without strings and with
finite numbers only, the outline gives back everything but identities and lines
(`outline_unambiguous`). The text of an outline tells its form
(`Proofs.Tree.Forms`) and the form tells the tree (`Proofs.Tree.Recovery`), if
the words in the tree are genuine; and they are, in every statement that was
read (`Legible.genuine`) and in every statement within it (`Row.genuine`).
-/
import ScriptLang.Proofs.Binding.Standing
import ScriptLang.Proofs.Session.Joining
import ScriptLang.Proofs.Tree.Recovery

namespace ScriptLang

open Decimal (IsFinite)

/-! ## 1. Trees that were read -/

/-- A token of a source, without a text and with a finite number if it has one. -/
structure Token.Plain (t : Token) : Prop where
  genuine : t.Genuine
  finite : ∀ value ∈ t.literal, ∃ x, value = .number x ∧ IsFinite x

namespace Grammar

/-- The words of plain tokens are genuine. -/
theorem Spells.genuine {marks : List Mark} {ts rest : List Token} (h : Spells marks ts rest)
    (hgood : Phrase.Good Token.Plain ts) :
    Phrase.Good Token.Plain rest ∧ ∀ mark ∈ marks, mark.Genuine := by
  induction marks generalizing ts with
  | nil =>
    obtain rfl : ts = rest := h
    exact ⟨hgood, by simp⟩
  | cons mark marks ih =>
    obtain ⟨t, ts, rfl, hfits, hmore⟩ := h
    obtain ⟨hrest, hmarks⟩ := ih hmore hgood.tail
    refine ⟨hrest, List.forall_mem_cons.mpr ⟨?_, hmarks⟩⟩
    cases mark with
    | token kept =>
      obtain rfl : t = kept := hfits
      exact hgood.head.genuine
    | word kind literal =>
      obtain ⟨-, hliteral⟩ := hfits
      exact hliteral ▸ hgood.head.finite

namespace Phrase

theorem Good.names {names : List Token} (h : ∀ t ∈ names, GoodName Token.Plain t) :
    ∀ t ∈ names, Apt Token.Genuine [.identifier] t :=
  fun t ht => ⟨(h t ht).1.genuine, List.mem_singleton.mpr (h t ht).2⟩

theorem Good.apt {t : Token} {ts : List Token} (h : Good Token.Plain (t :: ts)) {kind : Kind}
    (hkind : t.kind = kind) : Apt Token.Genuine [kind] t :=
  ⟨h.head.genuine, List.mem_singleton.mpr hkind⟩

/-- An expression that is read from plain tokens is genuine. -/
theorem Expression.genuine {ts n e rest n'} (h : Expression ts n e rest n')
    (hgood : Good Token.Plain ts) : Good Token.Plain rest ∧ e.Genuine := by
  obtain ⟨-, hspells, hstratified⟩ := h.spelled fun t ht => (hgood t ht).genuine.literate
  obtain ⟨hrest, hmarks⟩ := Spells.genuine hspells hgood
  exact ⟨hrest, hstratified.genuine hmarks⟩

theorem Optional.genuine {ts n e rest n'} (h : Optional ts n e rest n')
    (hgood : Good Token.Plain ts) : Good Token.Plain rest ∧ ∀ x ∈ e, x.Genuine := by
  cases h with
  | none => exact ⟨hgood, by simp⟩
  | some h =>
    obtain ⟨hrest, he⟩ := h.genuine hgood
    exact ⟨hrest, by simpa using he⟩

theorem VarDecl.genuine {ts n s rest n'} : VarDecl ts n s rest n' → Good Token.Plain ts →
    Good Token.Plain rest ∧ s.Genuine
  | .bare _ hname _, hgood =>
      ⟨hgood.tail.tail.tail, .var (hgood.tail.apt hname) (by simp)⟩
  | .initialized _ hname _ h _, hgood => by
      obtain ⟨hrest, hvalue⟩ := h.genuine hgood.tail.tail.tail
      exact ⟨hrest.tail, .var (hgood.tail.apt hname) (by simpa using hvalue)⟩

theorem ExprStmt.genuine {ts n s rest n'} : ExprStmt ts n s rest n' → Good Token.Plain ts →
    Good Token.Plain rest ∧ s.Genuine
  | .mk h _, hgood => by
      obtain ⟨hrest, hvalue⟩ := h.genuine hgood
      exact ⟨hrest.tail, .expression hvalue⟩

theorem ForFirst.genuine {ts n first rest n'} : ForFirst ts n first rest n' →
    Good Token.Plain ts → Good Token.Plain rest ∧ ∀ s ∈ first, s.Genuine
  | .none _, hgood => ⟨hgood.tail, by simp⟩
  | .var h, hgood => by
      obtain ⟨hrest, hs⟩ := h.genuine hgood
      exact ⟨hrest, by simpa using hs⟩
  | .expr h, hgood => by
      obtain ⟨hrest, hs⟩ := h.genuine hgood
      exact ⟨hrest, by simpa using hs⟩

theorem genuine_forCondition {n : Nat} {condition : Option Expr}
    (h : ∀ x ∈ condition, x.Genuine) : (forCondition n condition).1.Genuine := by
  cases condition with
  | none => exact .literal fun value hvalue => absurd hvalue (by simp)
  | some condition => exact h condition rfl

/-- A `for` loop is genuine if its clauses and its body are. -/
theorem genuine_forLoop {first : Option Stmt} {condition : Expr} {increment : Option Expr}
    {body : Stmt} (hfirst : ∀ s ∈ first, s.Genuine) (hcondition : condition.Genuine)
    (hincrement : ∀ e ∈ increment, e.Genuine) (hbody : body.Genuine) :
    (forLoop first condition increment body).Genuine := by
  have hloop : (Stmt.loop condition (forRound body increment)).Genuine := by
    cases increment with
    | none => exact .loop hcondition hbody
    | some increment =>
      refine .loop hcondition (.block ?_)
      simpa using ⟨hbody, .expression (hincrement increment rfl)⟩
  cases first with
  | none => exact hloop
  | some first =>
    refine .block ?_
    simpa using ⟨hfirst first rfl, hloop⟩

mutual
theorem Statement.genuine {d ts n s rest n'} : Statement d ts n s rest n' →
    Good Token.Plain ts → Good Token.Plain rest ∧ s.Genuine
  | .expr h, hgood => h.genuine hgood
  | .print _ h _, hgood => by
      obtain ⟨hrest, hvalue⟩ := h.genuine hgood.tail
      exact ⟨hrest.tail, .print hvalue⟩
  | .ret hword h _, hgood => by
      obtain ⟨hrest, hvalue⟩ := h.genuine hgood.tail
      exact ⟨hrest.tail, .ret (hgood.apt hword) hvalue⟩
  | .block _ h, hgood => by
      obtain ⟨hrest, hbody⟩ := h.genuine hgood.tail
      exact ⟨hrest, .block hbody⟩
  | .loop _ _ hcondition _ hbody, hgood => by
      obtain ⟨hmid, hcond⟩ := hcondition.genuine hgood.tail.tail
      obtain ⟨hrest, hinner⟩ := hbody.genuine hmid.tail
      exact ⟨hrest, .loop hcond hinner⟩
  | .ifThen _ _ hcondition _ hthen, hgood => by
      obtain ⟨hmid, hcond⟩ := hcondition.genuine hgood.tail.tail
      obtain ⟨hrest, hbranch⟩ := hthen.genuine hmid.tail
      exact ⟨hrest, .ifThen hcond hbranch⟩
  | .ifElse _ _ hcondition _ hthen _ helse, hgood => by
      obtain ⟨hmid, hcond⟩ := hcondition.genuine hgood.tail.tail
      obtain ⟨hlast, hbranch⟩ := hthen.genuine hmid.tail
      obtain ⟨hrest, hbranch'⟩ := helse.genuine hlast.tail
      exact ⟨hrest, .ifElse hcond hbranch hbranch'⟩
  | .forLoop _ _ hfirst hcondition _ hincrement _ hbody, hgood => by
      obtain ⟨hgood₁, hbefore⟩ := hfirst.genuine hgood.tail.tail
      obtain ⟨hgood₂, hcond⟩ := hcondition.genuine hgood₁
      obtain ⟨hgood₃, hafter⟩ := hincrement.genuine hgood₂.tail
      obtain ⟨hrest, hinner⟩ := hbody.genuine hgood₃.tail
      exact ⟨hrest, genuine_forLoop hbefore (genuine_forCondition hcond) hafter hinner⟩

theorem Block.genuine {ts n body rest n'} : Block ts n body rest n' → Good Token.Plain ts →
    Good Token.Plain rest ∧ ∀ s ∈ body, s.Genuine
  | .close _, hgood => ⟨hgood.tail, by simp⟩
  | .cons hs hbody, hgood => by
      obtain ⟨hmid, hfirst⟩ := hs.genuine hgood
      obtain ⟨hrest, hothers⟩ := hbody.genuine hmid
      exact ⟨hrest, List.forall_mem_cons.mpr ⟨hfirst, hothers⟩⟩

theorem Declaration.genuine {ts n s rest n'} : Declaration ts n s rest n' →
    Good Token.Plain ts → Good Token.Plain rest ∧ s.Genuine
  | .classDecl _ hname _ h, hgood => by
      obtain ⟨hrest, hmethods⟩ := h.genuine hgood.tail.tail.tail
      exact ⟨hrest, .ofMethods (hgood.tail.apt hname) hmethods⟩
  | .function _ h, hgood => by
      obtain ⟨hrest, hroutine⟩ := h.genuine hgood.tail
      exact ⟨hrest, .ofRoutine hroutine⟩
  | .var h, hgood => h.genuine hgood
  | .statement h, hgood => h.genuine hgood

theorem Methods.genuine {ts n methods rest n'} : Methods ts n methods rest n' →
    Good Token.Plain ts → Good Token.Plain rest ∧ ∀ r ∈ methods, r.Genuine
  | .close _, hgood => ⟨hgood.tail, by simp⟩
  | .cons hm hmethods, hgood => by
      obtain ⟨hmid, hfirst⟩ := hm.genuine hgood
      obtain ⟨hrest, hothers⟩ := hmethods.genuine hmid
      exact ⟨hrest, List.forall_mem_cons.mpr ⟨hfirst, hothers⟩⟩

theorem Function.genuine {ts n r rest n'} : Function ts n r rest n' → Good Token.Plain ts →
    Good Token.Plain rest ∧ r.Genuine
  | .mk hname _ hparameters _ _ _ hbody, hgood => by
      obtain ⟨hmid, hnames⟩ := hparameters.built hgood.tail.tail
      obtain ⟨hrest, hinner⟩ := hbody.genuine hmid.tail.tail
      exact ⟨hrest, hgood.apt hname, Good.names hnames, hinner⟩
end

/-- A script that is read from plain tokens is genuine. -/
theorem Script.genuine {ts n statements n'} (h : Script ts n statements n')
    (hgood : Good Token.Plain ts) : ∀ s ∈ statements, s.Genuine := by
  induction h with
  | nil => simp
  | cons hs _ ih =>
    obtain ⟨hmid, hfirst⟩ := hs.genuine hgood
    exact List.forall_mem_cons.mpr ⟨hfirst, ih hmid⟩

end Phrase

end Grammar

/-- A statement within a genuine script is genuine. -/
theorem Row.genuine {script row : List Stmt} {around : Surroundings}
    (hscript : ∀ s ∈ script, s.Genuine) (h : Row script around row) :
    ∀ s ∈ row, s.Genuine := by
  induction h with
  | script => exact hscript
  | rest _ ih => exact (List.forall_mem_cons.mp ih).2
  | block _ ih =>
    cases (List.forall_mem_cons.mp ih).1 with
    | block hbody => exact hbody
  | thenOnly _ ih =>
    cases (List.forall_mem_cons.mp ih).1 with
    | ifThen _ hthen => simpa using hthen
  | thenBranch _ ih =>
    cases (List.forall_mem_cons.mp ih).1 with
    | ifElse _ hthen _ => simpa using hthen
  | elseBranch _ ih =>
    cases (List.forall_mem_cons.mp ih).1 with
    | ifElse _ _ helse => simpa using helse
  | loop _ ih =>
    cases (List.forall_mem_cons.mp ih).1 with
    | loop _ hbody => simpa using hbody
  | function _ ih =>
    cases (List.forall_mem_cons.mp ih).1 with
    | function _ _ hbody => exact hbody
  | method _ hmethod ih =>
    cases (List.forall_mem_cons.mp ih).1 with
    | classDecl _ _ _ hbodies => exact hbodies _ hmethod

/-! ## 2. Outlines tell trees -/

/-- The statements of a source that is read without faults, has no strings, and has numbers with
finite values only. -/
structure Legible (source : List UInt8) (nextId : Nat) : Prop where
  read : (Grammar.parse (tokensOf (scan source)) nextId).faults = []
  noText : ∀ t ∈ tokensOf (scan source), t.kind ≠ .string
  finite : ∀ t ∈ tokensOf (scan source), ∀ x, t.literal = some (.number x) → IsFinite x

/-- The statements of a legible source are genuine. -/
theorem Legible.genuine {source : List UInt8} {nextId : Nat} (h : Legible source nextId) :
    ∀ s ∈ (Grammar.parse (tokensOf (scan source)) nextId).statements, s.Genuine := by
  have hscript := Grammar.script_of_parse h.read
  rw [words_scan] at hscript
  refine hscript.genuine fun t ht => ?_
  have hgenuine := genuine_of_mem_wordsOf ht
  have hmem : t ∈ tokensOf (scan source) := by
    rw [tokensOf_scan]
    exact List.mem_append_left _ ht
  refine ⟨hgenuine, fun value hvalue => ?_⟩
  have hliterate := hgenuine.literate
  have hnoText := h.noText t hmem
  have hfinite := h.finite t hmem
  rw [Option.mem_def.mp hvalue] at hliterate hfinite
  generalize t.kind = kind at hliterate hnoText
  cases hliterate with
  | number => exact ⟨_, rfl, hfinite _ rfl⟩
  | text => exact absurd rfl hnoText

/-- Statements of legible sources, at whatever place within them, that have one outline are equal,
up to the identities of their expressions and the lines of their tokens. -/
theorem outline_unambiguous {source source' : List UInt8} {nextId nextId' : Nat}
    (h : Legible source nextId) (h' : Legible source' nextId')
    {around around' : Surroundings} {s s' : Stmt}
    (hs : Stands (Grammar.parse (tokensOf (scan source)) nextId).statements around s)
    (hs' : Stands (Grammar.parse (tokensOf (scan source')) nextId').statements around' s')
    (heq : s.outline = s'.outline) : s.relabel .erase = s'.relabel .erase := by
  obtain ⟨row, hrow⟩ := hs
  obtain ⟨row', hrow'⟩ := hs'
  have hgenuine := hrow.genuine h.genuine s List.mem_cons_self
  have hgenuine' := hrow'.genuine h'.genuine s' List.mem_cons_self
  have htext : s.form.text = s'.form.text := by
    rw [← s.toList_outline, ← s'.toList_outline, heq]
  exact hgenuine.form_inj hgenuine' (hgenuine.valid_form.text_inj hgenuine'.valid_form htext)

/-- An assignment of one and a half. -/
def assignsHalf : List UInt8 := spelling "a = 1.50;"

/-- The same on the next line, with the number spelt in another way. -/
def assignsHalfBelow : List UInt8 := spelling "\na=1.5;"

/-- The tokens of an assignment of a number. -/
def assignmentTokens (numeral : String) (x : Float) (line : Nat) : List Token :=
  [⟨.identifier, "a", none, line⟩, ⟨.equal, "=", none, line⟩,
    ⟨.number, numeral, some (.number x), line⟩, ⟨.semicolon, ";", none, line⟩, .endOfInput line]

/-- An assignment of a number. -/
def assignment (nextId : Nat) (x : Float) (line : Nat) : Stmt :=
  .expression (.assign (nextId + 2) ⟨.identifier, "a", none, line⟩
    (.literal (nextId + 1) (.number x)))

theorem legible_assignment {source : List UInt8} {numeral : String} {x : Float} {line nextId : Nat}
    (htokens : tokensOf (scan source) = assignmentTokens numeral x line) (hfinite : IsFinite x)
    (hread : (Grammar.parse (tokensOf (scan source)) nextId).faults = []) :
    Legible source nextId where
  read := hread
  noText := by
    rw [htokens]
    simp [assignmentTokens, Token.endOfInput]
  finite := by
    rw [htokens]
    simpa [assignmentTokens, Token.endOfInput] using hfinite

/-- The only statement of a script stands in it. -/
theorem stands_of_singleton {script : List Stmt} {s : Stmt} (h : script = [s]) :
    Stands script .outside s :=
  ⟨[], h ▸ .script⟩

theorem outline_unambiguous_assignsHalf :
    ∃ s s', (Grammar.parse (tokensOf (scan assignsHalf)) 0).statements = [s] ∧
      (Grammar.parse (tokensOf (scan assignsHalfBelow)) 7).statements = [s'] ∧
      Legible assignsHalf 0 ∧ Legible assignsHalfBelow 7 ∧ s ≠ s' ∧
      s.outline = "(; (= a 1.5))" ∧ s'.outline = "(; (= a 1.5))" ∧
      s.relabel .erase = s'.relabel .erase := by
  have htokens : tokensOf (scan assignsHalf) =
      assignmentTokens "1.50" (Decimal.numeral [49] [53, 48]) 1 := by decide +kernel
  have htokens' : tokensOf (scan assignsHalfBelow) =
      assignmentTokens "1.5" (Decimal.numeral [49] [53]) 2 := by decide +kernel
  have hlegible : Legible assignsHalf 0 :=
    legible_assignment htokens ⟨false, _, rfl⟩ (by decide +kernel)
  have hlegible' : Legible assignsHalfBelow 7 :=
    legible_assignment htokens' ⟨false, _, rfl⟩ (by decide +kernel)
  have hs : (Grammar.parse (tokensOf (scan assignsHalf)) 0).statements =
      [assignment 0 (Decimal.numeral [49] [53, 48]) 1] := by decide +kernel
  have hs' : (Grammar.parse (tokensOf (scan assignsHalfBelow)) 7).statements =
      [assignment 7 (Decimal.numeral [49] [53]) 2] := by decide +kernel
  have houtline : (assignment 0 (Decimal.numeral [49] [53, 48]) 1).outline = "(; (= a 1.5))" := by
    decide +kernel
  have houtline' : (assignment 7 (Decimal.numeral [49] [53]) 2).outline = "(; (= a 1.5))" := by
    decide +kernel
  refine ⟨_, _, hs, hs', hlegible, hlegible', ?_, houtline, houtline', ?_⟩
  · exact fun h => absurd (congrArg Stmt.mentions h) (by decide)
  · exact outline_unambiguous hlegible hlegible' (stands_of_singleton hs)
      (stands_of_singleton hs') (houtline.trans houtline'.symm)

end ScriptLang
