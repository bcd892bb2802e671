/-
ScriptLang.Binding.HopTable — how far away the variables of expressions live.

The table gives, for an expression that mentions a local variable, the number
of scopes between the expression and the scope that holds the variable. An
expression without an entry mentions a global variable. Identities are handed
out from zero on, so the table is an array indexed by them, and an identity
beyond its end has no entry.
-/
import ScriptLang.Tree

namespace ScriptLang

/-- Hop counts by the identity of the expression. -/
structure HopTable where
  hops : Array (Option Nat)
  deriving DecidableEq, Repr

namespace HopTable

/-- The table without entries. -/
def empty : HopTable := ⟨#[]⟩

/-- The hop count of an expression, if it mentions a local variable. -/
def get? (table : HopTable) (id : Nat) : Option Nat :=
  (table.hops[id]?).join

/-- Records the hop count of an expression. -/
def insert (table : HopTable) (id : Nat) (hops : Nat) : HopTable :=
  ⟨(table.hops.rightpad (id + 1) none).setIfInBounds id (some hops)⟩

/-- No expression has an entry in the empty table. -/
@[simp] theorem get?_empty (id : Nat) : empty.get? id = none := rfl

/-- A recorded hop count is found again, and no other entry changes. -/
theorem get?_insert (table : HopTable) (id other : Nat) (hops : Nat) :
    (table.insert id hops).get? other = if other = id then some hops else table.get? other := by
  by_cases h : other = id
  · subst h
    have hsize : other < (table.hops.rightpad (other + 1) none).size := by
      simp only [Array.rightpad, Array.size_append, Array.size_replicate]
      omega
    simp only [get?, insert, Array.getElem?_setIfInBounds, hsize, if_true, Option.join_some]
  · have h' : ¬ id = other := fun e => h e.symm
    simp only [get?, insert, Array.getElem?_setIfInBounds, h, h', if_false]
    rw [Array.rightpad, Array.getElem?_append]
    split
    · rfl
    · rename_i hlt
      have : table.hops[other]? = none := Array.getElem?_eq_none (by omega)
      simp only [this, Array.getElem?_replicate]
      split <;> rfl

end HopTable

end ScriptLang
