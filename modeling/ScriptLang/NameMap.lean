/-
ScriptLang.NameMap — finite maps from names.

Variables of a scope, fields of an instance and methods of a class are all
maps from names. They are small, nothing ever leaves them, and nothing shows
their order, so they are lists of pairs in the order of first insertion. A
name occurs at most once in a map that was built by `insert`.
-/

namespace ScriptLang

/-- A map from names. -/
structure NameMap (α : Type) where
  entries : List (String × α)
  deriving DecidableEq, Repr

namespace NameMap

variable {α : Type}

/-- The map without names. -/
def empty : NameMap α := ⟨[]⟩

/-- What a name stands for. -/
def get? (m : NameMap α) (name : String) : Option α :=
  m.entries.lookup name

/-- Whether a name stands for something. -/
def contains (m : NameMap α) (name : String) : Bool :=
  (m.get? name).isSome

/-- Puts a value under a name in a list of pairs, in place of the value that was there. -/
def insertEntry (name : String) (value : α) : List (String × α) → List (String × α)
  | [] => [(name, value)]
  | entry :: rest =>
    if name == entry.1 then (name, value) :: rest else entry :: insertEntry name value rest

/-- Makes a name stand for a value. -/
def insert (m : NameMap α) (name : String) (value : α) : NameMap α :=
  ⟨insertEntry name value m.entries⟩

/-- Puts some pairs in, one after the other. -/
def insertAll (m : NameMap α) (pairs : List (String × α)) : NameMap α :=
  pairs.foldl (fun m pair => m.insert pair.1 pair.2) m

/-- No name stands for anything in the empty map. -/
@[simp] theorem get?_empty (name : String) : (empty : NameMap α).get? name = none := rfl

/-- Looking a name up after an insertion, on the list of pairs. -/
theorem lookup_insertEntry (name other : String) (value : α) (entries : List (String × α)) :
    (insertEntry name value entries).lookup other
      = if other = name then some value else entries.lookup other := by
  induction entries with
  | nil => by_cases h : other = name <;> simp [insertEntry, h]
  | cons entry rest ih =>
    obtain ⟨key, old⟩ := entry
    by_cases hn : name = key
    · subst hn
      by_cases ho : other = name <;>
        simp [insertEntry, List.lookup_cons, ho, beq_eq_false_iff_ne.2]
    · by_cases ho : other = key
      · have hne : ¬ other = name := fun h => hn (h.symm.trans ho)
        simp [insertEntry, hn, ho, Ne.symm hn]
      · simp [insertEntry, List.lookup_cons, hn, ih, beq_eq_false_iff_ne.2 ho]

/-- A read after a write sees the value at the written name and the old map elsewhere. -/
theorem get?_insert (m : NameMap α) (name other : String) (value : α) :
    (m.insert name value).get? other = if other = name then some value else m.get? other :=
  lookup_insertEntry name other value m.entries

end NameMap

end ScriptLang
