/-
ScriptLang.Proofs.Tree.Relabel — the same trees at other places.

Two sources may hold the same words on different lines, and reading them may
give different identities to the same expressions. A relabelling changes lines
and identities and nothing else, so it keeps everything that a tree says
(`Relabelling`). One relabelling after another is a relabelling
(`relabel_relabel`). Erasing both lines and identities is the last of them:
whatever is relabelled first, the same is left (`erased_relabelAll`). Trees are
the same at different places exactly if they are equal when erased. Taking away
identities only tells trees at the same place apart (`unnumber`).
-/
import ScriptLang.Tree

namespace ScriptLang

/-! ## 1. Relabellings -/

/-- A change of the places of tokens and of the identities of expressions. -/
structure Relabelling where
  token : Token → Token
  id : Nat → Nat
  kind : ∀ t, (token t).kind = t.kind
  lexeme : ∀ t, (token t).lexeme = t.lexeme
  literal : ∀ t, (token t).literal = t.literal

attribute [simp] Relabelling.kind Relabelling.lexeme Relabelling.literal

/-- A token some lines further down. -/
def Token.moved (lines : Nat) (t : Token) : Token :=
  { t with line := lines + t.line }

theorem Token.moved_zero (t : Token) : t.moved 0 = t := by
  simp [Token.moved]

theorem map_moved_zero (ts : List Token) : ts.map (Token.moved 0) = ts :=
  (List.map_congr_left fun t _ => t.moved_zero).trans (List.map_id ts)

namespace Relabelling

/-- Some lines further down, with the identities some numbers later. -/
def shift (lines ids : Nat) : Relabelling where
  token := Token.moved lines
  id := (ids + ·)
  kind _ := rfl
  lexeme _ := rfl
  literal _ := rfl

/-- No lines and no identities. -/
def erase : Relabelling where
  token t := { t with line := 0 }
  id _ := 0
  kind _ := rfl
  lexeme _ := rfl
  literal _ := rfl

/-- The same lines, with the identities some numbers later. -/
def renumber (ids : Nat) : Relabelling where
  token t := t
  id := (ids + ·)
  kind _ := rfl
  lexeme _ := rfl
  literal _ := rfl

/-- The same lines, and no identities. -/
def unnumber : Relabelling where
  token t := t
  id _ := 0
  kind _ := rfl
  lexeme _ := rfl
  literal _ := rfl

theorem shift_zero (ids : Nat) : shift 0 ids = renumber ids := by
  have hmoved : Token.moved 0 = fun t => t := funext Token.moved_zero
  simp [shift, renumber, hmoved]

/-- One relabelling after another. -/
def comp (τ σ : Relabelling) : Relabelling where
  token t := τ.token (σ.token t)
  id n := τ.id (σ.id n)
  kind t := by simp
  lexeme t := by simp
  literal t := by simp

/-- Erasing undoes every relabelling. -/
theorem erase_comp (σ : Relabelling) : erase.comp σ = erase := by
  simp [comp, erase]

/-- Taking identities away undoes a relabelling that changes nothing else. -/
theorem unnumber_comp {σ : Relabelling} (h : ∀ t, σ.token t = t) : unnumber.comp σ = unnumber := by
  simp [comp, unnumber, h]

end Relabelling

/-! ## 2. Trees -/

section Relabel

variable (σ : Relabelling)

mutual
/-- An expression at another place. -/
def Expr.relabel : Expr → Expr
  | .literal id value => .literal (σ.id id) value
  | .group id inner => .group (σ.id id) inner.relabel
  | .unary id operator operand => .unary (σ.id id) (σ.token operator) operand.relabel
  | .binary id left operator right =>
    .binary (σ.id id) left.relabel (σ.token operator) right.relabel
  | .logical id left operator right =>
    .logical (σ.id id) left.relabel (σ.token operator) right.relabel
  | .read id name => .read (σ.id id) (σ.token name)
  | .assign id name value => .assign (σ.id id) (σ.token name) value.relabel
  | .call id callee paren arguments =>
    .call (σ.id id) callee.relabel (σ.token paren) (Expr.relabelAll arguments)
  | .property id object name => .property (σ.id id) object.relabel (σ.token name)
  | .setProperty id object name value =>
    .setProperty (σ.id id) object.relabel (σ.token name) value.relabel
  | .self id keyword => .self (σ.id id) (σ.token keyword)

/-- Expressions at another place. -/
def Expr.relabelAll : List Expr → List Expr
  | [] => []
  | e :: rest => e.relabel :: Expr.relabelAll rest
end

mutual
/-- A statement at another place. -/
def Stmt.relabel : Stmt → Stmt
  | .expression value => .expression (value.relabel σ)
  | .print value => .print (value.relabel σ)
  | .var name initializer => .var (σ.token name) (initializer.map (·.relabel σ))
  | .block body => .block (Stmt.relabelAll body)
  | .ifThen condition thenBranch => .ifThen (condition.relabel σ) thenBranch.relabel
  | .ifElse condition thenBranch elseBranch =>
    .ifElse (condition.relabel σ) thenBranch.relabel elseBranch.relabel
  | .loop condition body => .loop (condition.relabel σ) body.relabel
  | .function routine => .function routine.relabel
  | .ret keyword value => .ret (σ.token keyword) (value.map (·.relabel σ))
  | .classDecl name methods => .classDecl (σ.token name) (Routine.relabelAll methods)

/-- Statements at another place. -/
def Stmt.relabelAll : List Stmt → List Stmt
  | [] => []
  | s :: rest => s.relabel :: Stmt.relabelAll rest

/-- A routine at another place. -/
def Routine.relabel : Routine → Routine
  | ⟨name, parameters, body⟩ => ⟨σ.token name, parameters.map σ.token, Stmt.relabelAll body⟩

/-- Routines at another place. -/
def Routine.relabelAll : List Routine → List Routine
  | [] => []
  | r :: rest => r.relabel :: Routine.relabelAll rest
end

end Relabel

theorem Expr.relabelAll_eq_map (σ : Relabelling) (es : List Expr) :
    Expr.relabelAll σ es = es.map (·.relabel σ) := by
  induction es with
  | nil => rfl
  | cons e es ih => rw [Expr.relabelAll, ih, List.map_cons]

theorem Stmt.relabelAll_append (σ : Relabelling) (ss ss' : List Stmt) :
    Stmt.relabelAll σ (ss ++ ss') = Stmt.relabelAll σ ss ++ Stmt.relabelAll σ ss' := by
  induction ss with
  | nil => rfl
  | cons s ss ih => rw [List.cons_append, Stmt.relabelAll, ih, Stmt.relabelAll, List.cons_append]

theorem Routine.relabelAll_eq_map (σ : Relabelling) (methods : List Routine) :
    Routine.relabelAll σ methods = methods.map (·.relabel σ) := by
  induction methods with
  | nil => rfl
  | cons r methods ih => rw [Routine.relabelAll, ih, List.map_cons]

section Routines

variable (σ : Relabelling) (r : Routine)

@[simp] theorem Routine.name_relabel : (r.relabel σ).name = σ.token r.name := by
  cases r
  rfl

@[simp] theorem Routine.parameters_relabel :
    (r.relabel σ).parameters = r.parameters.map σ.token := by
  cases r
  rfl

@[simp] theorem Routine.body_relabel : (r.relabel σ).body = Stmt.relabelAll σ r.body := by
  cases r
  rfl

@[simp] theorem Routine.isInitializer_relabel : (r.relabel σ).isInitializer = r.isInitializer := by
  simp [Routine.isInitializer]

theorem map_lexeme_relabel (names : List Token) :
    (names.map σ.token).map Token.lexeme = names.map Token.lexeme := by
  rw [List.map_map]
  exact List.map_congr_left fun t _ => σ.lexeme t

end Routines

/-! ## 3. One after another -/

section Composition

variable (τ σ : Relabelling)

mutual
/-- Relabelling twice is relabelling once. -/
theorem Expr.relabel_relabel : ∀ e : Expr, (e.relabel σ).relabel τ = e.relabel (τ.comp σ)
  | .literal _ _ => rfl
  | .group _ inner => by simp only [Expr.relabel, relabel_relabel inner]; rfl
  | .unary _ _ operand => by simp only [Expr.relabel, relabel_relabel operand]; rfl
  | .binary _ left _ right => by
      simp only [Expr.relabel, relabel_relabel left, relabel_relabel right]
      rfl
  | .logical _ left _ right => by
      simp only [Expr.relabel, relabel_relabel left, relabel_relabel right]
      rfl
  | .read _ _ => rfl
  | .assign _ _ value => by simp only [Expr.relabel, relabel_relabel value]; rfl
  | .call _ callee _ arguments => by
      simp only [Expr.relabel, relabel_relabel callee, relabelAll_relabelAll arguments]
      rfl
  | .property _ object _ => by simp only [Expr.relabel, relabel_relabel object]; rfl
  | .setProperty _ object _ value => by
      simp only [Expr.relabel, relabel_relabel object, relabel_relabel value]
      rfl
  | .self _ _ => rfl

theorem Expr.relabelAll_relabelAll : ∀ es : List Expr,
    Expr.relabelAll τ (Expr.relabelAll σ es) = Expr.relabelAll (τ.comp σ) es
  | [] => rfl
  | e :: rest => by simp only [Expr.relabelAll, relabel_relabel e, relabelAll_relabelAll rest]
end

theorem Expr.relabelOption_relabelOption (e : Option Expr) :
    (e.map (·.relabel σ)).map (·.relabel τ) = e.map (·.relabel (τ.comp σ)) := by
  cases e with
  | none => rfl
  | some e => exact congrArg some (e.relabel_relabel τ σ)

mutual
theorem Stmt.relabel_relabel : ∀ s : Stmt, (s.relabel σ).relabel τ = s.relabel (τ.comp σ)
  | .expression value => by simp only [Stmt.relabel, value.relabel_relabel τ σ]
  | .print value => by simp only [Stmt.relabel, value.relabel_relabel τ σ]
  | .var _ initializer => by
      simp only [Stmt.relabel, Expr.relabelOption_relabelOption τ σ initializer]
      rfl
  | .block body => by simp only [Stmt.relabel, Stmt.relabelAll_relabelAll body]
  | .ifThen condition thenBranch => by
      simp only [Stmt.relabel, condition.relabel_relabel τ σ, Stmt.relabel_relabel thenBranch]
  | .ifElse condition thenBranch elseBranch => by
      simp only [Stmt.relabel, condition.relabel_relabel τ σ, Stmt.relabel_relabel thenBranch,
        Stmt.relabel_relabel elseBranch]
  | .loop condition body => by
      simp only [Stmt.relabel, condition.relabel_relabel τ σ, Stmt.relabel_relabel body]
  | .function routine => by simp only [Stmt.relabel, Routine.relabel_relabel routine]
  | .ret _ value => by
      simp only [Stmt.relabel, Expr.relabelOption_relabelOption τ σ value]
      rfl
  | .classDecl _ methods => by
      simp only [Stmt.relabel, Routine.relabelAll_relabelAll methods]
      rfl

theorem Stmt.relabelAll_relabelAll : ∀ ss : List Stmt,
    Stmt.relabelAll τ (Stmt.relabelAll σ ss) = Stmt.relabelAll (τ.comp σ) ss
  | [] => rfl
  | s :: rest => by
      simp only [Stmt.relabelAll, Stmt.relabel_relabel s, Stmt.relabelAll_relabelAll rest]

theorem Routine.relabel_relabel : ∀ r : Routine, (r.relabel σ).relabel τ = r.relabel (τ.comp σ)
  | ⟨_, _, body⟩ => by
      simp only [Routine.relabel, Stmt.relabelAll_relabelAll body, List.map_map]
      rfl

theorem Routine.relabelAll_relabelAll : ∀ methods : List Routine,
    Routine.relabelAll τ (Routine.relabelAll σ methods) = Routine.relabelAll (τ.comp σ) methods
  | [] => rfl
  | r :: rest => by
      simp only [Routine.relabelAll, Routine.relabel_relabel r, Routine.relabelAll_relabelAll rest]
end

end Composition

/-- Relabelling changes only what is erased. -/
theorem Stmt.erased_relabelAll (σ : Relabelling) (ss : List Stmt) :
    Stmt.relabelAll .erase (Stmt.relabelAll σ ss) = Stmt.relabelAll .erase ss := by
  rw [Stmt.relabelAll_relabelAll, σ.erase_comp]

end ScriptLang
