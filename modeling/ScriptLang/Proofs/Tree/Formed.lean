/-
ScriptLang.Proofs.Tree.Formed — the trees that reading may build.

However malformed the tokens are, and however often reading has to recover from
a fault, the trees it builds have two things in common. The identities of their
expressions, all of them and not only those of mentions, are different and lie
in the range that was handed out meanwhile (`Distinct`). And they are well
formed (`Formed`): the tokens they keep are good ones of the right kinds, and
no branch or loop body is itself a declaration. `Made` says both, for the
identities and a fact about any part of a tree, so that one lemma for each way
of putting parts together is enough.
-/
import ScriptLang.Proofs.Binding.Walk
import ScriptLang.Proofs.Grammar.Trees

namespace ScriptLang

open Binding (Tidy TidyAll TidyRoutine TidyMethods declaredName?)
open Grammar (forLoop)
open Grammar.Phrase (forRound)

/-! ## 1. Identities -/

mutual
/-- The identities of an expression and of the expressions in it. -/
def Expr.ids : Expr → List Nat
  | .literal id _ => [id]
  | .group id inner => id :: inner.ids
  | .unary id _ operand => id :: operand.ids
  | .binary id left _ right => id :: (left.ids ++ right.ids)
  | .logical id left _ right => id :: (left.ids ++ right.ids)
  | .read id _ => [id]
  | .assign id _ value => id :: value.ids
  | .call id callee _ arguments => id :: (callee.ids ++ Expr.idsAll arguments)
  | .property id object _ => id :: object.ids
  | .setProperty id object _ value => id :: (object.ids ++ value.ids)
  | .self id _ => [id]

/-- The identities of some expressions. -/
def Expr.idsAll : List Expr → List Nat
  | [] => []
  | e :: rest => e.ids ++ Expr.idsAll rest
end

/-- The identities of an expression that may be missing. -/
def Expr.idsOption : Option Expr → List Nat
  | some e => e.ids
  | none => []

mutual
/-- The identities of the expressions in a statement. -/
def Stmt.ids : Stmt → List Nat
  | .expression value => value.ids
  | .print value => value.ids
  | .var _ initializer => Expr.idsOption initializer
  | .block body => Stmt.idsAll body
  | .ifThen condition thenBranch => condition.ids ++ thenBranch.ids
  | .ifElse condition thenBranch elseBranch =>
    condition.ids ++ (thenBranch.ids ++ elseBranch.ids)
  | .loop condition body => condition.ids ++ body.ids
  | .function routine => routine.ids
  | .ret _ value => Expr.idsOption value
  | .classDecl _ methods => Routine.idsAll methods

/-- The identities of the expressions in some statements. -/
def Stmt.idsAll : List Stmt → List Nat
  | [] => []
  | s :: rest => s.ids ++ Stmt.idsAll rest

/-- The identities of the expressions in a routine. -/
def Routine.ids : Routine → List Nat
  | ⟨_, _, body⟩ => Stmt.idsAll body

/-- The identities of the expressions in some methods. -/
def Routine.idsAll : List Routine → List Nat
  | [] => []
  | r :: rest => r.ids ++ Routine.idsAll rest
end

/-- The identities of a statement that may be missing. -/
def Stmt.idsOption : Option Stmt → List Nat
  | some s => s.ids
  | none => []

theorem Expr.idsAll_append (es es' : List Expr) :
    Expr.idsAll (es ++ es') = Expr.idsAll es ++ Expr.idsAll es' := by
  induction es with
  | nil => rfl
  | cons e es ih => simp only [List.cons_append, Expr.idsAll, ih, List.append_assoc]

theorem Stmt.idsAll_append (ss ss' : List Stmt) :
    Stmt.idsAll (ss ++ ss') = Stmt.idsAll ss ++ Stmt.idsAll ss' := by
  induction ss with
  | nil => rfl
  | cons s ss ih => simp only [List.cons_append, Stmt.idsAll, ih, List.append_assoc]

theorem Routine.idsAll_append (rs rs' : List Routine) :
    Routine.idsAll (rs ++ rs') = Routine.idsAll rs ++ Routine.idsAll rs' := by
  induction rs with
  | nil => rfl
  | cons r rs ih => simp only [List.cons_append, Routine.idsAll, ih, List.append_assoc]

/-- A statement that may be missing, as a list. -/
theorem Stmt.idsAll_toList (s : Option Stmt) : Stmt.idsAll s.toList = Stmt.idsOption s := by
  cases s with
  | none => rfl
  | some s => simp only [Option.toList_some, Stmt.idsAll, Stmt.idsOption, List.append_nil]

/-- A `for` loop has the identities of its clauses and its body. -/
theorem perm_ids_forLoop (first : Option Stmt) (condition : Expr) (increment : Option Expr)
    (body : Stmt) :
    (Stmt.idsOption first ++ (condition.ids ++ (Expr.idsOption increment ++ body.ids))).Perm
      (forLoop first condition increment body).ids := by
  have hround : (Expr.idsOption increment ++ body.ids).Perm (forRound body increment).ids := by
    cases increment with
    | none => exact List.Perm.refl _
    | some increment =>
      simp only [forRound, Stmt.ids, Stmt.idsAll, Expr.idsOption, List.append_nil]
      exact List.perm_append_comm
  have hloop := hround.append_left condition.ids
  cases first with
  | none => exact hloop
  | some s =>
    simp only [forLoop, Stmt.ids, Stmt.idsAll, List.append_nil]
    exact hloop.append_left s.ids

/-! ## 2. Mentions have identities of their trees -/

mutual
theorem Expr.id_mem_of_mentions : ∀ (e : Expr), ∀ m ∈ e.mentions, m.id ∈ e.ids
  | .literal _ _, m, hm => by simp [Expr.mentions] at hm
  | .group _ inner, m, hm => List.mem_cons_of_mem _ (Expr.id_mem_of_mentions inner m hm)
  | .unary _ _ operand, m, hm => List.mem_cons_of_mem _ (Expr.id_mem_of_mentions operand m hm)
  | .binary _ left _ right, m, hm => by
      rw [Expr.ids, List.mem_cons, List.mem_append]
      exact .inr ((List.mem_append.mp hm).imp (Expr.id_mem_of_mentions left m)
        (Expr.id_mem_of_mentions right m))
  | .logical _ left _ right, m, hm => by
      rw [Expr.ids, List.mem_cons, List.mem_append]
      exact .inr ((List.mem_append.mp hm).imp (Expr.id_mem_of_mentions left m)
        (Expr.id_mem_of_mentions right m))
  | .read _ _, m, hm => by
      rw [Expr.mentions, List.mem_singleton] at hm
      exact hm ▸ List.mem_singleton.mpr rfl
  | .assign _ _ value, m, hm => by
      rw [Expr.ids, List.mem_cons]
      exact (List.mem_cons.mp hm).imp (congrArg Mention.id) (Expr.id_mem_of_mentions value m)
  | .call _ callee _ arguments, m, hm => by
      rw [Expr.ids, List.mem_cons, List.mem_append]
      exact .inr ((List.mem_append.mp hm).imp (Expr.id_mem_of_mentions callee m)
        (Expr.id_mem_of_mentionsAll arguments m))
  | .property _ object _, m, hm => List.mem_cons_of_mem _ (Expr.id_mem_of_mentions object m hm)
  | .setProperty _ object _ value, m, hm => by
      rw [Expr.ids, List.mem_cons, List.mem_append]
      exact .inr ((List.mem_append.mp hm).imp (Expr.id_mem_of_mentions object m)
        (Expr.id_mem_of_mentions value m))
  | .self _ _, m, hm => by
      rw [Expr.mentions, List.mem_singleton] at hm
      exact hm ▸ List.mem_singleton.mpr rfl

theorem Expr.id_mem_of_mentionsAll : ∀ (es : List Expr), ∀ m ∈ Expr.mentionsAll es,
    m.id ∈ Expr.idsAll es
  | [], m, hm => by simp [Expr.mentionsAll] at hm
  | e :: rest, m, hm => by
      rw [Expr.idsAll, List.mem_append]
      exact (List.mem_append.mp hm).imp (Expr.id_mem_of_mentions e m)
        (Expr.id_mem_of_mentionsAll rest m)
end

theorem Expr.id_mem_of_mentionsOption (e : Option Expr) (m : Mention)
    (hm : m ∈ Expr.mentionsOption e) : m.id ∈ Expr.idsOption e := by
  cases e with
  | none => simp [Expr.mentionsOption] at hm
  | some e => exact e.id_mem_of_mentions m hm

mutual
theorem Stmt.id_mem_of_mentions : ∀ (s : Stmt), ∀ m ∈ s.mentions, m.id ∈ s.ids
  | .expression value, m, hm => value.id_mem_of_mentions m hm
  | .print value, m, hm => value.id_mem_of_mentions m hm
  | .var _ initializer, m, hm => Expr.id_mem_of_mentionsOption initializer m hm
  | .block body, m, hm => Stmt.id_mem_of_mentionsAll body m hm
  | .ifThen condition thenBranch, m, hm => by
      rw [Stmt.ids, List.mem_append]
      exact (List.mem_append.mp hm).imp (condition.id_mem_of_mentions m)
        (Stmt.id_mem_of_mentions thenBranch m)
  | .ifElse condition thenBranch elseBranch, m, hm => by
      rw [Stmt.mentions, List.append_assoc] at hm
      rw [Stmt.ids, List.mem_append, List.mem_append]
      exact (List.mem_append.mp hm).imp (condition.id_mem_of_mentions m) fun hm =>
        (List.mem_append.mp hm).imp (Stmt.id_mem_of_mentions thenBranch m)
          (Stmt.id_mem_of_mentions elseBranch m)
  | .loop condition body, m, hm => by
      rw [Stmt.ids, List.mem_append]
      exact (List.mem_append.mp hm).imp (condition.id_mem_of_mentions m)
        (Stmt.id_mem_of_mentions body m)
  | .function routine, m, hm => Routine.id_mem_of_mentions routine m hm
  | .ret _ value, m, hm => Expr.id_mem_of_mentionsOption value m hm
  | .classDecl _ methods, m, hm => Routine.id_mem_of_mentionsAll methods m hm

/-- What statements mention is mentioned by expressions in them. -/
theorem Stmt.id_mem_of_mentionsAll : ∀ (ss : List Stmt), ∀ m ∈ Stmt.mentionsAll ss,
    m.id ∈ Stmt.idsAll ss
  | [], m, hm => by simp [Stmt.mentionsAll] at hm
  | s :: rest, m, hm => by
      rw [Stmt.idsAll, List.mem_append]
      exact (List.mem_append.mp hm).imp (Stmt.id_mem_of_mentions s m)
        (Stmt.id_mem_of_mentionsAll rest m)

theorem Routine.id_mem_of_mentions : ∀ (r : Routine), ∀ m ∈ r.mentions, m.id ∈ r.ids
  | ⟨_, _, body⟩, m, hm => Stmt.id_mem_of_mentionsAll body m hm

theorem Routine.id_mem_of_mentionsAll : ∀ (rs : List Routine), ∀ m ∈ Routine.mentionsAll rs,
    m.id ∈ Routine.idsAll rs
  | [], m, hm => by simp [Routine.mentionsAll] at hm
  | r :: rest, m, hm => by
      rw [Routine.idsAll, List.mem_append]
      exact (List.mem_append.mp hm).imp (Routine.id_mem_of_mentions r m)
        (Routine.id_mem_of_mentionsAll rest m)
end

/-! ## 3. Well-formed trees -/

/-- A good token of one of the kinds. -/
structure Apt (good : Token → Prop) (kinds : List Kind) (t : Token) : Prop where
  good : good t
  kind : t.kind ∈ kinds

/-- The operators of binary expressions. -/
def binaryKinds : List Kind :=
  [.bangEqual, .equalEqual, .greater, .greaterEqual, .less, .lessEqual, .minus, .plus, .star, .slash]

/-- The tokens of an expression are good, operators are operators, and names are names. -/
inductive Expr.Formed (good : Token → Prop) : Expr → Prop where
  | literal {id value} : Formed good (.literal id value)
  | group {id inner} : Formed good inner → Formed good (.group id inner)
  | unary {id operator operand} : Apt good [.bang, .minus] operator → Formed good operand →
      Formed good (.unary id operator operand)
  | binary {id left operator right} : Apt good binaryKinds operator → Formed good left →
      Formed good right → Formed good (.binary id left operator right)
  | logical {id left operator right} : Apt good [.andWord, .orWord] operator → Formed good left →
      Formed good right → Formed good (.logical id left operator right)
  | read {id name} : Apt good [.identifier] name → Formed good (.read id name)
  | assign {id name value} : Apt good [.identifier] name → Formed good value →
      Formed good (.assign id name value)
  | call {id callee paren arguments} : Formed good callee → Apt good [.rightParen] paren →
      (∀ e ∈ arguments, Formed good e) → Formed good (.call id callee paren arguments)
  | property {id object name} : Formed good object → Apt good [.identifier] name →
      Formed good (.property id object name)
  | setProperty {id object name value} : Formed good object → Apt good [.identifier] name →
      Formed good value → Formed good (.setProperty id object name value)
  | self {id keyword} : Apt good [.thisWord] keyword → Formed good (.self id keyword)

/-- The same for statements; and no branch and no loop body is itself a declaration. -/
inductive Stmt.Formed (good : Token → Prop) : Stmt → Prop where
  | expression {value} : value.Formed good → Formed good (.expression value)
  | print {value} : value.Formed good → Formed good (.print value)
  | var {name initializer} : Apt good [.identifier] name → (∀ e ∈ initializer, e.Formed good) →
      Formed good (.var name initializer)
  | block {body} : (∀ s ∈ body, Formed good s) → Formed good (.block body)
  | ifThen {condition thenBranch} : condition.Formed good → declaredName? thenBranch = none →
      Formed good thenBranch → Formed good (.ifThen condition thenBranch)
  | ifElse {condition thenBranch elseBranch} : condition.Formed good →
      declaredName? thenBranch = none → Formed good thenBranch →
      declaredName? elseBranch = none → Formed good elseBranch →
      Formed good (.ifElse condition thenBranch elseBranch)
  | loop {condition body} : condition.Formed good → declaredName? body = none →
      Formed good body → Formed good (.loop condition body)
  | function {routine} : Apt good [.identifier] routine.name →
      (∀ t ∈ routine.parameters, Apt good [.identifier] t) → (∀ s ∈ routine.body, Formed good s) →
      Formed good (.function routine)
  | ret {keyword value} : Apt good [.returnWord] keyword → (∀ e ∈ value, e.Formed good) →
      Formed good (.ret keyword value)
  | classDecl {name methods} : Apt good [.identifier] name →
      (∀ r ∈ methods, Apt good [.identifier] r.name) →
      (∀ r ∈ methods, ∀ t ∈ r.parameters, Apt good [.identifier] t) →
      (∀ r ∈ methods, ∀ s ∈ r.body, Formed good s) → Formed good (.classDecl name methods)

/-- A routine is formed of good parts. -/
structure Routine.Formed (good : Token → Prop) (r : Routine) : Prop where
  name : Apt good [.identifier] r.name
  parameters : ∀ t ∈ r.parameters, Apt good [.identifier] t
  body : ∀ s ∈ r.body, s.Formed good

section Formed

variable {good : Token → Prop}

theorem Stmt.Formed.ofRoutine {r : Routine} (h : r.Formed good) : (Stmt.function r).Formed good :=
  .function h.name h.parameters h.body

theorem Stmt.Formed.ofMethods {name : Token} {methods : List Routine}
    (hname : Apt good [.identifier] name) (h : ∀ r ∈ methods, r.Formed good) :
    (Stmt.classDecl name methods).Formed good :=
  .classDecl hname (fun r hr => (h r hr).name) (fun r hr => (h r hr).parameters)
    fun r hr => (h r hr).body

theorem tidyAll_of_forall : ∀ {body : List Stmt}, (∀ s ∈ body, Tidy good s) → TidyAll good body
  | [], _ => .nil
  | _ :: _, h => .cons (h _ (List.mem_cons_self ..))
      (tidyAll_of_forall fun s hs => h s (List.mem_cons_of_mem _ hs))

theorem tidyMethods_of_forall : ∀ {methods : List Routine},
    (∀ r ∈ methods, TidyRoutine good r) → TidyMethods good methods
  | [], _ => .nil
  | _ :: _, h => .cons (h _ (List.mem_cons_self ..))
      (tidyMethods_of_forall fun r hr => h r (List.mem_cons_of_mem _ hr))

/-- What is formed is tidy. -/
theorem Stmt.Formed.tidy {s : Stmt} (h : s.Formed good) : Tidy (Apt good [.identifier]) s := by
  induction h with
  | expression => exact .expression
  | print => exact .print
  | var hname => exact .var hname
  | block _ ih => exact .block (tidyAll_of_forall ih)
  | ifThen _ hname _ ih => exact .ifThen hname ih
  | ifElse _ hname _ hname' _ ih ih' => exact .ifElse hname ih hname' ih'
  | loop _ hname _ ih => exact .loop hname ih
  | @function routine hname hparameters _ ih =>
    obtain ⟨name, parameters, body⟩ := routine
    exact .function (.mk hname hparameters (tidyAll_of_forall ih))
  | ret => exact .ret
  | @classDecl name methods hname hnames hparameters _ ih =>
    refine .classDecl hname (tidyMethods_of_forall fun r hr => ?_)
    obtain ⟨method, parameters, body⟩ := r
    exact .mk (hnames _ hr) (hparameters _ hr) (tidyAll_of_forall (ih _ hr))

theorem tidyAll_of_formed {body : List Stmt} (h : ∀ s ∈ body, s.Formed good) :
    TidyAll (Apt good [.identifier]) body :=
  tidyAll_of_forall fun s hs => (h s hs).tidy

theorem formed_forLoop {first : Option Stmt} {condition : Expr} {increment : Option Expr}
    {body : Stmt} (hfirst : ∀ s ∈ first, s.Formed good) (hcondition : condition.Formed good)
    (hincrement : ∀ e ∈ increment, e.Formed good) (hbody : body.Formed good)
    (hname : declaredName? body = none) :
    (forLoop first condition increment body).Formed good := by
  have hloop : (Stmt.loop condition (forRound body increment)).Formed good := by
    cases increment with
    | none => exact .loop hcondition hname hbody
    | some increment =>
      refine .loop hcondition rfl (.block fun s hs => ?_)
      rcases List.mem_cons.mp hs with rfl | hs
      · exact hbody
      · rw [List.mem_singleton.mp hs]
        exact .expression (hincrement _ rfl)
  cases first with
  | none => exact hloop
  | some first =>
    refine .block fun s hs => ?_
    rcases List.mem_cons.mp hs with rfl | hs
    · exact hfirst _ rfl
    · exact List.mem_singleton.mp hs ▸ hloop

end Formed

/-! ## 4. Trees that were made -/

/-- The identities are different, and they lie between two bounds. -/
structure Distinct (lo hi : Nat) (ids : List Nat) : Prop where
  le : lo ≤ hi
  nodup : ids.Nodup
  bounds : ∀ id ∈ ids, lo ≤ id ∧ id < hi

/-- Something about a part of a tree, whose identities were handed out between two points. -/
structure Made (lo hi : Nat) (ids : List Nat) (fact : Prop) : Prop where
  distinct : Distinct lo hi ids
  fact : fact

namespace Made

variable {lo mid hi : Nat} {ids ids' : List Nat} {fact fact' fact'' : Prop}

theorem le (h : Made lo hi ids fact) : lo ≤ hi := h.distinct.le

/-- A part without expressions. -/
theorem none (h : lo ≤ hi) (hfact : fact) : Made lo hi [] fact :=
  ⟨⟨h, List.nodup_nil, by simp⟩, hfact⟩

/-- The same part, seen in another way. -/
theorem imp (h : Made lo hi ids fact) (himp : fact → fact') : Made lo hi ids fact' :=
  ⟨h.distinct, himp h.fact⟩

theorem widen {lo' hi' : Nat} (h : Made lo hi ids fact) (hlo : lo' ≤ lo) (hhi : hi ≤ hi') :
    Made lo' hi' ids fact := by
  refine ⟨⟨Nat.le_trans hlo (Nat.le_trans h.le hhi), h.distinct.nodup, ?_⟩, h.fact⟩
  intro id hid
  have := h.distinct.bounds id hid
  omega

/-- Some of the expressions are left out. -/
theorem sublist (h : Made lo hi ids fact) (hsub : ids'.Sublist ids) : Made lo hi ids' fact :=
  ⟨⟨h.le, h.distinct.nodup.sublist hsub, fun id hid => h.distinct.bounds id (hsub.subset hid)⟩,
    h.fact⟩

theorem perm (h : Made lo hi ids fact) (hperm : ids.Perm ids') : Made lo hi ids' fact :=
  ⟨⟨h.le, hperm.nodup_iff.mp h.distinct.nodup,
    fun id hid => h.distinct.bounds id (hperm.mem_iff.mpr hid)⟩, h.fact⟩

/-- Two parts, one made after the other. -/
theorem append (h : Made lo mid ids fact) (h' : Made mid hi ids' fact') :
    Made lo hi (ids ++ ids') (fact ∧ fact') := by
  refine ⟨⟨Nat.le_trans h.le h'.le, ?_, ?_⟩, h.fact, h'.fact⟩
  · rw [List.nodup_append]
    refine ⟨h.distinct.nodup, h'.distinct.nodup, ?_⟩
    intro id hid id' hid'
    have := h.distinct.bounds id hid
    have := h'.distinct.bounds id' hid'
    omega
  · intro id hid
    have := h.le
    have := h'.le
    rcases List.mem_append.mp hid with hid | hid
    · have := h.distinct.bounds id hid
      omega
    · have := h'.distinct.bounds id hid
      omega

/-- The next identity is handed out to an expression made of the part. -/
theorem node (h : Made lo hi ids fact) (himp : fact → fact') :
    Made lo (hi + 1) (hi :: ids) fact' := by
  have hlast : Made hi (hi + 1) [hi] True :=
    ⟨⟨Nat.le_succ hi, by simp, by simp⟩, trivial⟩
  exact ((h.append hlast).imp fun both => himp both.1).perm (List.perm_append_singleton _ _)

end Made

end ScriptLang
