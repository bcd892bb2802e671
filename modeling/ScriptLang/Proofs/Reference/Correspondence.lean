/-
ScriptLang.Proofs.Reference.Correspondence — states of the two evaluators that
mean the same.

The machine keeps local variables in frames, and the reference evaluator in
locations. `Slots` says which location a variable of a frame is: every variable
of a frame other than the globals has one, and no two variables share one.

`Mirrors` is the heart of the matter. It relates the open scopes at a place of
the program, a frame and a map of local variables: link by link the chain of
frames has one frame for each scope, a name that a scope declares has a slot in
its frame, and the map gives each name the slot in the innermost scope that
declares it. A frame may have more variables than its scope declares, since
variables that are declared later do not concern what was closed over before.

`Agrees` puts together everything that corresponding states have in common:
the same global variables, the same values in corresponding places, the same
objects, functions and classes with corresponding environments, the same calls
in progress, the same output and the same clock. The hop counts of the machine
are related to scopes by the parameter `P` of `Binding.Placed`.
-/
import ScriptLang.Proofs.Binding.Placed
import ScriptLang.Proofs.Reference.Evaluate
import ScriptLang.Proofs.Store.Frames

namespace ScriptLang.Reference

open Binding (Scope thisScope)

/-! ## 1. Frames, scopes and maps -/

/-- The locations of the variables of frames. -/
abbrev Slots := Nat → String → Option Nat

/-- One more variable has a location. -/
def Slots.set (slots : Slots) (frame : Nat) (name : String) (location : Nat) : Slots :=
  fun other otherName =>
    if other = frame ∧ otherName = name then some location else slots other otherName

/-- The chain of frames and the map of local variables mirror the open scopes. -/
inductive Mirrors (s : ScriptLang.Store) (slots : Slots) (globals : Nat) :
    List Scope → Nat → Locals → Prop where
  | top {locals} : (∀ name, locals.get? name = none) → Mirrors s slots globals [] globals locals
  | inside {scope outer frame enclosing locals outerLocals} :
      s.enclosing? frame = some enclosing →
      Mirrors s slots globals outer enclosing outerLocals →
      (∀ name, scope.contains name = true → (slots frame name).isSome) →
      (∀ name, scope.get? name = some true → (s.getHere? frame name).isSome) →
      (∀ name, locals.get? name =
        if scope.contains name then slots frame name else outerLocals.get? name) →
      Mirrors s slots globals (scope :: outer) frame locals

/-- What may happen to frames and slots: variables and links are there to stay. -/
structure Grown (s : ScriptLang.Store) (slots : Slots) (s' : ScriptLang.Store) (slots' : Slots) :
    Prop where
  enclosing : ∀ {frame outer}, s.enclosing? frame = some outer → s'.enclosing? frame = some outer
  bound : ∀ {frame name}, (s.getHere? frame name).isSome → (s'.getHere? frame name).isSome
  slot : ∀ {frame name location}, slots frame name = some location →
    slots' frame name = some location

namespace Grown

variable {s s' s'' : ScriptLang.Store} {slots slots' slots'' : Slots}

theorem refl (s : ScriptLang.Store) (slots : Slots) : Grown s slots s slots := ⟨id, id, id⟩

theorem trans (h : Grown s slots s' slots') (h' : Grown s' slots' s'' slots'') :
    Grown s slots s'' slots'' :=
  ⟨fun he => h'.enclosing (h.enclosing he), fun hb => h'.bound (h.bound hb),
    fun hs => h'.slot (h.slot hs)⟩

/-- Only frames and slots matter. -/
theorem of_frames (slots : Slots) (h : s'.frames = s.frames) : Grown s slots s' slots where
  enclosing he := by rw [ScriptLang.Store.enclosing?, h]; exact he
  bound hb := by rw [ScriptLang.Store.getHere?, h]; exact hb
  slot := id

theorem define (s : ScriptLang.Store) (slots : Slots) (frame : Nat) (name : String)
    (value : Value) : Grown s slots (s.define frame name value) slots where
  enclosing he := by rw [ScriptLang.Store.enclosing?_define]; exact he
  bound hb := s.isSome_getHere?_define frame name value hb
  slot := id

theorem addFrame (s : ScriptLang.Store) (slots : Slots) (enclosing : Option Nat) :
    Grown s slots (s.addFrame enclosing).2 slots where
  enclosing {frame outer} he := by
    have hlt := s.lt_of_enclosing? he
    rw [ScriptLang.Store.enclosing?_addFrame, if_neg (by omega)]
    exact he
  bound hb := by rw [ScriptLang.Store.getHere?_addFrame]; exact hb
  slot := id

theorem set {frame : Nat} {name : String} (hfree : slots frame name = none) (location : Nat) :
    Grown s slots s (slots.set frame name location) where
  enclosing := id
  bound := id
  slot {other otherName location'} hs := by
    have hne : ¬ (other = frame ∧ otherName = name) := by
      rintro ⟨rfl, rfl⟩
      rw [hfree] at hs
      exact absurd hs (by simp)
    rw [Slots.set, if_neg hne]
    exact hs

end Grown

namespace Mirrors

variable {s s' : ScriptLang.Store} {slots slots' : Slots} {globals frame : Nat} {S : List Scope}
variable {locals : Locals} {name : String}

/-- A mirror image stays one. -/
theorem grow (hgrown : Grown s slots s' slots') (h : Mirrors s slots globals S frame locals) :
    Mirrors s' slots' globals S frame locals := by
  induction h with
  | top hlocals => exact .top hlocals
  | @inside scope outer frame enclosing locals outerLocals henclosing _ hslots hbound hlocals ih =>
    have hslot : ∀ name, scope.contains name = true → slots' frame name = slots frame name := by
      intro name hname
      obtain ⟨location, hlocation⟩ := Option.isSome_iff_exists.mp (hslots name hname)
      rw [hgrown.slot hlocation, hlocation]
    refine .inside (hgrown.enclosing henclosing) ih ?_ ?_ ?_
    · intro name hname
      rw [hslot name hname]
      exact hslots name hname
    · exact fun name hname => hgrown.bound (hbound name hname)
    · intro name
      rw [hlocals name]
      by_cases hname : scope.contains name = true
      · rw [if_pos hname, if_pos hname, hslot name hname]
      · rw [if_neg hname, if_neg hname]

/-- A name that no scope declares is not a local variable. -/
theorem absent (h : Mirrors s slots globals S frame locals)
    (hnone : S.findIdx? (·.contains name) = none) : locals.get? name = none := by
  induction h with
  | top hlocals => exact hlocals name
  | @inside scope outer frame enclosing locals outerLocals _ _ _ _ hlocals ih =>
    rw [List.findIdx?_cons] at hnone
    by_cases hname : scope.contains name = true
    · simp [hname] at hnone
    · rw [hlocals name, if_neg hname]
      exact ih (by simpa [hname] using hnone)

/-- A name that some scope declares has its slot as many links outward as there are scopes in
between, and the map gives this slot. -/
theorem found {hops : Nat} (h : Mirrors s slots globals S frame locals)
    (hsome : S.findIdx? (·.contains name) = some hops) :
    ∃ target location scope, s.ancestor? hops frame = some target ∧
      slots target name = some location ∧ locals.get? name = some location ∧
      S[hops]? = some scope ∧ (scope.get? name = some true → (s.getHere? target name).isSome) := by
  induction h generalizing hops with
  | top hlocals => simp at hsome
  | @inside scope outer frame enclosing locals outerLocals henclosing _ hslots hbound hlocals ih =>
    rw [List.findIdx?_cons] at hsome
    by_cases hname : scope.contains name = true
    · obtain rfl : hops = 0 := by simpa [hname] using hsome.symm
      obtain ⟨location, hlocation⟩ := Option.isSome_iff_exists.mp (hslots name hname)
      refine ⟨frame, location, scope, rfl, hlocation, ?_, rfl, hbound name⟩
      rw [hlocals name, if_pos hname, hlocation]
    · obtain ⟨hops, hsome', rfl⟩ : ∃ k, outer.findIdx? (·.contains name) = some k ∧ k + 1 = hops := by
        simpa [hname] using hsome
      obtain ⟨target, location, scope', hancestor, hlocation, hget, hscope, hready⟩ := ih hsome'
      refine ⟨target, location, scope', ?_, hlocation, ?_, ?_, hready⟩
      · rw [ScriptLang.Store.ancestor?, henclosing, Option.bind_some]
        exact hancestor
      · rw [hlocals name, if_neg hname]
        exact hget
      · simpa using hscope

/-- A new frame for a new scope without names. -/
theorem enter (h : Mirrors s slots globals S frame locals) :
    Mirrors (s.addFrame (some frame)).2 slots globals (.empty :: S) s.frames.size locals := by
  refine .inside ?_ (h.grow (Grown.addFrame s slots (some frame))) ?_ ?_ ?_
  · rw [ScriptLang.Store.enclosing?_addFrame, if_pos rfl]
  · intro name hname
    simp at hname
  · intro name hname
    simp at hname
  · intro name
    simp

/-- A new variable of the current frame, which cannot be read yet. -/
theorem declare {scope : Scope} {outer : List Scope} {location : Nat}
    (h : Mirrors s slots globals (scope :: outer) frame locals) (hfree : slots frame name = none) :
    Mirrors s (slots.set frame name location) globals (scope.insert name false :: outer) frame
      (locals.insert name location) := by
  cases h with
  | inside henclosing houter hslots hbound hlocals =>
    have hset : ∀ other, other ≠ name →
        slots.set frame name location frame other = slots frame other := by
      intro other hne
      simp [Slots.set, hne]
    have hself : slots.set frame name location frame name = some location := by simp [Slots.set]
    refine .inside henclosing (houter.grow (Grown.set hfree location)) ?_ ?_ ?_
    · intro other hother
      by_cases hname : other = name
      · rw [hname, hself]
        rfl
      · rw [hset other hname]
        exact hslots other (by simpa [NameMap.contains_insert, hname] using hother)
    · intro other hother
      by_cases hname : other = name
      · simp [NameMap.get?_insert, hname] at hother
      · exact hbound other (by simpa [NameMap.get?_insert, hname] using hother)
    · intro other
      rw [NameMap.get?_insert, NameMap.contains_insert]
      by_cases hname : other = name
      · simp [hname, hself]
      · simp [hname, hset other hname, hlocals other]

/-- A variable of the current frame that has a value can be read. -/
theorem ready {scope : Scope} {outer : List Scope} {before : Bool}
    (h : Mirrors s slots globals (scope.insert name before :: outer) frame locals)
    (hvalue : (s.getHere? frame name).isSome) :
    Mirrors s slots globals (scope.insert name true :: outer) frame locals := by
  cases h with
  | inside henclosing houter hslots hbound hlocals =>
    refine .inside henclosing houter ?_ ?_ ?_
    · exact fun other hother => hslots other (by simpa [NameMap.contains_insert] using hother)
    · intro other hother
      by_cases hname : other = name
      · rw [hname]
        exact hvalue
      · exact hbound other (by simpa [NameMap.get?_insert, hname] using hother)
    · intro other
      rw [hlocals other]
      simp only [NameMap.contains_insert]

/-- A new variable of the current frame that has a value from the start. -/
theorem introduce {scope : Scope} {outer : List Scope} {location : Nat} (value : Value)
    (h : Mirrors s slots globals (scope :: outer) frame locals) (hlt : frame < s.frames.size)
    (hfree : slots frame name = none) :
    Mirrors (s.define frame name value) (slots.set frame name location) globals
      (scope.insert name true :: outer) frame (locals.insert name location) := by
  refine ready ((h.declare hfree).grow (Grown.define s _ frame name value)) ?_
  rw [s.getHere?_define hlt, if_pos ⟨rfl, rfl⟩]
  rfl

end Mirrors

/-! ## 2. Stores -/

/-- The variables of the two stores correspond. -/
structure Variables (globals : Nat) (slots : Slots) (s : ScriptLang.Store) (t : Store) : Prop where
  globalFrame : globals < s.frames.size
  root : s.enclosing? globals = none
  global : ∀ name, s.getHere? globals name = t.globals.get? name
  slot : ∀ {frame name location}, slots frame name = some location →
    frame ≠ globals ∧ frame < s.frames.size ∧ location < t.cells.size ∧
      s.getHere? frame name = t.cells[location]?.join
  apart : ∀ {frame name frame' name' location}, slots frame name = some location →
    slots frame' name' = some location → frame = frame' ∧ name = name'
  bare : ∀ {frame name}, frame ≠ globals → slots frame name = none → s.getHere? frame name = none

/-- Two closures correspond. Their body stands inside the scopes `extra`, and these inside the
scopes that the environments of the closures mirror. An initializer that is bound to its instance
has the scope of the instance around it. -/
def ClosureAgrees (P : List Scope → Mention → Prop) (globals : Nat) (slots : Slots)
    (s : ScriptLang.Store) (extra : List Scope) (c : ScriptLang.Closure) (d : Closure) : Prop :=
  d.routine = c.routine ∧ d.isInitializer = c.isInitializer ∧
    ∃ S, Mirrors s slots globals S c.frame d.locals ∧
      Binding.PlacedRoutine P (extra ++ S) c.routine ∧
      (extra = [] → c.isInitializer = true → S.head? = some thisScope)

/-- Two classes correspond: they have the same name and the same methods. -/
def ClassAgrees (P : List Scope → Mention → Prop) (globals : Nat) (slots : Slots)
    (s : ScriptLang.Store) (c : ScriptLang.ClassInfo) (d : ClassInfo) : Prop :=
  d.name = c.name ∧ ∀ name,
    Option.Rel (ClosureAgrees P globals slots s [thisScope]) (c.methods.get? name)
      (d.methods.get? name)

/-- What values point at corresponds. -/
structure Heap (P : List Scope → Mention → Prop) (globals : Nat) (slots : Slots)
    (s : ScriptLang.Store) (t : Store) : Prop where
  hosts : t.hosts = s.hosts
  objects : t.objects = s.objects
  functionCount : t.functions.size = s.functions.size
  function : ∀ id : Nat,
    Option.Rel (ClosureAgrees P globals slots s []) s.functions[id]? t.functions[id]?
  classCount : t.classes.size = s.classes.size
  classInfo : ∀ id : Nat, Option.Rel (ClassAgrees P globals slots s) s.classes[id]? t.classes[id]?

namespace Variables

variable {globals frame location : Nat} {slots : Slots} {s s' : ScriptLang.Store} {t t' : Store}
variable {name : String} {value : Value}

/-- Only frames, cells and globals matter. -/
theorem congr (h : Variables globals slots s t) (hframes : s'.frames = s.frames)
    (hglobals : t'.globals = t.globals) (hcells : t'.cells = t.cells) :
    Variables globals slots s' t' := by
  obtain ⟨hlt, hroot, hglobal, hslot, hapart, hbare⟩ := h
  have hhere : ∀ frame name, s'.getHere? frame name = s.getHere? frame name := by
    intro frame name
    rw [ScriptLang.Store.getHere?, hframes]
    rfl
  refine ⟨by rw [hframes]; exact hlt, ?_, ?_, ?_, hapart, ?_⟩
  · rw [ScriptLang.Store.enclosing?, hframes]
    exact hroot
  · intro name
    rw [hhere, hglobals]
    exact hglobal name
  · intro frame name location hl
    rw [hhere, hframes, hcells]
    exact hslot hl
  · intro frame name hne hnone
    rw [hhere]
    exact hbare hne hnone

/-- A local variable gets a value. -/
theorem write (h : Variables globals slots s t) (hslot : slots frame name = some location) :
    Variables globals slots (s.define frame name value) (t.write location value) := by
  obtain ⟨hne, hlt, hcell, -⟩ := h.slot hslot
  refine ⟨by rw [ScriptLang.Store.size_define]; exact h.globalFrame, ?_, ?_, ?_, h.apart, ?_⟩
  · rw [ScriptLang.Store.enclosing?_define]
    exact h.root
  · intro other
    rw [s.getHere?_define hlt, if_neg (fun hand => hne hand.1.symm)]
    exact h.global other
  · intro frame' name' location' hslot'
    obtain ⟨hne', hlt', hcell', hvalue'⟩ := h.slot hslot'
    refine ⟨hne', by rw [ScriptLang.Store.size_define]; exact hlt', ?_, ?_⟩
    · simpa [Store.write] using hcell'
    · rw [s.getHere?_define hlt]
      by_cases hsame : frame' = frame ∧ name' = name
      · obtain ⟨rfl, rfl⟩ := hsame
        obtain rfl : location' = location := by
          rw [hslot] at hslot'
          exact (Option.some.inj hslot').symm
        simp [Store.write, hcell]
      · have hother : location' ≠ location := by
          rintro rfl
          obtain ⟨rfl, rfl⟩ := h.apart hslot' hslot
          exact hsame ⟨rfl, rfl⟩
        rw [if_neg hsame, hvalue', Store.write,
          Array.getElem?_setIfInBounds_ne (Ne.symm hother)]
  · intro frame' name' hne' hnone
    have hother : ¬ (frame' = frame ∧ name' = name) := by
      rintro ⟨rfl, rfl⟩
      rw [hslot] at hnone
      exact absurd hnone (by simp)
    rw [s.getHere?_define hlt, if_neg hother]
    exact h.bare hne' hnone

/-- A global variable gets a value. -/
theorem defineGlobal (h : Variables globals slots s t) :
    Variables globals slots (s.define globals name value) (t.defineGlobal name value) := by
  refine ⟨by rw [ScriptLang.Store.size_define]; exact h.globalFrame, ?_, ?_, ?_, h.apart, ?_⟩
  · rw [ScriptLang.Store.enclosing?_define]
    exact h.root
  · intro other
    rw [s.getHere?_define h.globalFrame, Store.defineGlobal, NameMap.get?_insert]
    by_cases hname : other = name
    · simp [hname]
    · simp [hname, h.global other]
  · intro frame' name' location' hslot'
    obtain ⟨hne', hlt', hcell', hvalue'⟩ := h.slot hslot'
    refine ⟨hne', by rw [ScriptLang.Store.size_define]; exact hlt', hcell', ?_⟩
    rw [s.getHere?_define h.globalFrame, if_neg (fun hand => hne' hand.1)]
    exact hvalue'
  · intro frame' name' hne' hnone
    rw [s.getHere?_define h.globalFrame, if_neg (fun hand => hne' hand.1)]
    exact h.bare hne' hnone

theorem addFrame (h : Variables globals slots s t) (enclosing : Option Nat) :
    Variables globals slots (s.addFrame enclosing).2 t := by
  have hlt := h.globalFrame
  refine ⟨by rw [ScriptLang.Store.size_addFrame]; omega, ?_, ?_, ?_, h.apart, ?_⟩
  · rw [ScriptLang.Store.enclosing?_addFrame, if_neg (by omega)]
    exact h.root
  · intro name
    rw [ScriptLang.Store.getHere?_addFrame]
    exact h.global name
  · intro frame name location hslot
    obtain ⟨hne, hlt, hcell, hvalue⟩ := h.slot hslot
    rw [ScriptLang.Store.getHere?_addFrame, ScriptLang.Store.size_addFrame]
    exact ⟨hne, by omega, hcell, hvalue⟩
  · intro frame name hne hnone
    rw [ScriptLang.Store.getHere?_addFrame]
    exact h.bare hne hnone

/-- A local variable gets a location. -/
theorem addCell (h : Variables globals slots s t) (hne : frame ≠ globals)
    (hlt : frame < s.frames.size) (hfree : slots frame name = none) :
    Variables globals (slots.set frame name t.cells.size) s t.addCell.2 := by
  have hset : ∀ {frame' name' location'}, slots.set frame name t.cells.size frame' name'
      = some location' → (frame' = frame ∧ name' = name ∧ location' = t.cells.size) ∨
        slots frame' name' = some location' := by
    intro frame' name' location' hslot
    unfold Slots.set at hslot
    split at hslot
    · rename_i hsame
      exact .inl ⟨hsame.1, hsame.2, (Option.some.inj hslot).symm⟩
    · exact .inr hslot
  refine ⟨h.globalFrame, h.root, h.global, ?_, ?_, ?_⟩
  · intro frame' name' location' hslot
    rcases hset hslot with ⟨rfl, rfl, rfl⟩ | hold
    · refine ⟨hne, hlt, by simp [Store.addCell], ?_⟩
      rw [h.bare hne hfree]
      simp [Store.addCell]
    · obtain ⟨hne', hlt', hcell', hvalue'⟩ := h.slot hold
      refine ⟨hne', hlt', by simp [Store.addCell]; omega, ?_⟩
      rw [hvalue']
      simp [Store.addCell, Array.getElem?_push, Nat.ne_of_lt hcell']
  · intro frame₁ name₁ frame₂ name₂ location' h₁ h₂
    rcases hset h₁ with ⟨rfl, rfl, rfl⟩ | hold₁ <;> rcases hset h₂ with ⟨rfl, rfl, heq⟩ | hold₂
    · exact ⟨rfl, rfl⟩
    · have := (h.slot hold₂).2.2.1
      omega
    · have := (h.slot hold₁).2.2.1
      omega
    · exact h.apart hold₁ hold₂
  · intro frame' name' hne' hnone
    refine h.bare hne' ?_
    unfold Slots.set at hnone
    split at hnone
    · exact absurd hnone (by simp)
    · exact hnone

/-- A local variable gets a location and a value. -/
theorem addValue (h : Variables globals slots s t) (hne : frame ≠ globals)
    (hlt : frame < s.frames.size) (hfree : slots frame name = none) :
    Variables globals (slots.set frame name t.cells.size) (s.define frame name value)
      (t.addValue value).2 := by
  have hslot : slots.set frame name t.cells.size frame name = some t.cells.size := by
    simp [Slots.set]
  have hsame : t.addCell.2.write t.cells.size value = (t.addValue value).2 := by
    have hcells : (t.cells.push none).setIfInBounds t.cells.size (some value)
        = t.cells.push (some value) := by
      apply Array.ext_getElem?
      intro i
      simp only [Array.getElem?_setIfInBounds, Array.getElem?_push, Array.size_push]
      by_cases hi : i = t.cells.size
      · simp [hi]
      · simp [hi, Ne.symm hi]
    simp only [Store.addCell, Store.write, Store.addValue, hcells]
  rw [← hsame]
  exact (h.addCell hne hlt hfree).write hslot

end Variables

section Heap

variable {P : List Scope → Mention → Prop} {globals : Nat} {slots slots' : Slots}
variable {s s' : ScriptLang.Store} {t t' : Store} {extra : List Scope}

theorem rel_imp {α β : Type} {R R' : α → β → Prop} {a : Option α} {b : Option β}
    (h : Option.Rel R a b) (himp : ∀ a b, R a b → R' a b) : Option.Rel R' a b := by
  cases h with
  | some h => exact .some (himp _ _ h)
  | none => exact .none

theorem rel_map {α β γ : Type} {R : α → β → Prop} {a : Option α} {b : Option β} {f : α → γ}
    {g : β → γ} (h : Option.Rel R a b) (heq : ∀ a b, R a b → g b = f a) : b.map g = a.map f := by
  cases h with
  | some h => simp [heq _ _ h]
  | none => rfl

theorem ClosureAgrees.grow {c : ScriptLang.Closure} {d : Closure}
    (hgrown : Grown s slots s' slots') (h : ClosureAgrees P globals slots s extra c d) :
    ClosureAgrees P globals slots' s' extra c d := by
  obtain ⟨hroutine, hinit, S, hmirrors, hrest⟩ := h
  exact ⟨hroutine, hinit, S, hmirrors.grow hgrown, hrest⟩

theorem ClassAgrees.grow {c : ScriptLang.ClassInfo} {d : ClassInfo}
    (hgrown : Grown s slots s' slots') (h : ClassAgrees P globals slots s c d) :
    ClassAgrees P globals slots' s' c d := by
  exact ⟨h.1, fun name => rel_imp (h.2 name) fun _ _ hclosure => hclosure.grow hgrown⟩

/-- The parts of a store that values point at. -/
def SameHeap (s s' : ScriptLang.Store) : Prop :=
  s'.hosts = s.hosts ∧ s'.objects = s.objects ∧ s'.functions = s.functions ∧ s'.classes = s.classes

/-- The parts of a reference store that values point at. -/
def SameHeap' (t t' : Store) : Prop :=
  t'.hosts = t.hosts ∧ t'.objects = t.objects ∧ t'.functions = t.functions ∧ t'.classes = t.classes

/-- Values go on pointing at the same while variables are made and changed. -/
theorem Heap.grow (h : Heap P globals slots s t) (hgrown : Grown s slots s' slots')
    (hs : SameHeap s s') (ht : SameHeap' t t') : Heap P globals slots' s' t' := by
  obtain ⟨hhosts, hobjects, hfunctions, hclasses⟩ := hs
  obtain ⟨hhosts', hobjects', hfunctions', hclasses'⟩ := ht
  refine ⟨?_, ?_, ?_, ?_, ?_, ?_⟩
  · rw [hhosts', hhosts, h.hosts]
  · rw [hobjects', hobjects, h.objects]
  · rw [hfunctions', hfunctions, h.functionCount]
  · intro id
    rw [hfunctions', hfunctions]
    exact rel_imp (h.function id) fun _ _ hold => hold.grow hgrown
  · rw [hclasses', hclasses, h.classCount]
  · intro id
    rw [hclasses', hclasses]
    exact rel_imp (h.classInfo id) fun _ _ hold => hold.grow hgrown

theorem Heap.addFunction (h : Heap P globals slots s t) {c : ScriptLang.Closure} {d : Closure}
    (hclosure : ClosureAgrees P globals slots s [] c d) :
    Heap P globals slots (s.addFunction c).2 (t.addFunction d).2 := by
  have hgrown : Grown s slots (s.addFunction c).2 slots := Grown.of_frames slots rfl
  refine ⟨h.hosts, h.objects, ?_, ?_, h.classCount, ?_⟩
  · simp [Store.addFunction, ScriptLang.Store.addFunction, h.functionCount]
  · intro id
    simp only [Store.addFunction, ScriptLang.Store.addFunction, Array.getElem?_push,
      h.functionCount]
    split
    · exact .some (hclosure.grow hgrown)
    · exact rel_imp (h.function id) fun _ _ hold => hold.grow hgrown
  · intro id
    show Option.Rel _ s.classes[id]? t.classes[id]?
    exact rel_imp (h.classInfo id) fun _ _ hold => hold.grow hgrown

theorem Heap.addClass (h : Heap P globals slots s t) {c : ScriptLang.ClassInfo} {d : ClassInfo}
    (hclass : ClassAgrees P globals slots s c d) :
    Heap P globals slots (s.addClass c).2 (t.addClass d).2 := by
  have hgrown : Grown s slots (s.addClass c).2 slots := Grown.of_frames slots rfl
  refine ⟨h.hosts, h.objects, h.functionCount, ?_, ?_, ?_⟩
  · intro id
    show Option.Rel _ s.functions[id]? t.functions[id]?
    exact rel_imp (h.function id) fun _ _ hold => hold.grow hgrown
  · simp [Store.addClass, ScriptLang.Store.addClass, h.classCount]
  · intro id
    simp only [Store.addClass, ScriptLang.Store.addClass, Array.getElem?_push, h.classCount]
    split
    · exact .some (hclass.grow hgrown)
    · exact rel_imp (h.classInfo id) fun _ _ hold => hold.grow hgrown

/-- Objects are the same on both sides, so they may change in the same way. -/
theorem Heap.onObjects (h : Heap P globals slots s t) (objects : Array Object) :
    Heap P globals slots { s with objects := objects } { t with objects := objects } := by
  have hgrown : Grown s slots { s with objects := objects } slots := Grown.of_frames slots rfl
  refine ⟨h.hosts, rfl, h.functionCount, ?_, h.classCount, ?_⟩
  · intro id
    exact rel_imp (h.function id) fun _ _ hold => hold.grow hgrown
  · intro id
    exact rel_imp (h.classInfo id) fun _ _ hold => hold.grow hgrown

/-- Values are shown in the same way. -/
theorem Heap.display (h : Heap P globals slots s t) (value : Value) :
    t.display value = s.display value := by
  have hname : ∀ id, t.className id = s.className id := by
    intro id
    rw [Store.className, ScriptLang.Store.className,
      rel_map (h.classInfo id) fun _ _ hclass => hclass.1]
  cases value with
  | function id =>
    have hname : ∀ (c : ScriptLang.Closure) (d : Closure), ClosureAgrees P globals slots s [] c d →
        d.routine.name.lexeme = c.routine.name.lexeme := fun c d hclosure => by rw [hclosure.1]
    rw [Store.display, ScriptLang.Store.display, ScriptLang.Store.functionName,
      rel_map (h.function id) hname]
  | classRef id => exact hname id
  | object id =>
    simp only [Store.display, ScriptLang.Store.display, ScriptLang.Store.objectClassName,
      h.objects, hname]
  | bool value => cases value <;> rfl
  | nil | number | text | host => rfl

end Heap

/-! ## 3. States -/

/-- A state of each evaluator, and the locations of the variables of the one in the other. -/
structure Config where
  slots : Slots
  machine : ScriptLang.Machine
  reference : Machine

/-- The frame that is current mirrors the open scopes. -/
def Config.Mirrors (c : Config) (S : List Scope) (locals : Locals) : Prop :=
  Reference.Mirrors c.machine.store c.slots c.machine.globals S c.machine.frame locals

/-- A statement stands inside the open scopes: at the top level if there are none. -/
def Config.Stands (c : Config) (S : List Scope) (env : Env) : Prop :=
  c.Mirrors S env.locals ∧ match env with
    | .top => S = []
    | .inside _ => S ≠ []

/-- At the top level the frame of the globals is current. -/
theorem Config.stands_top {c : Config} (htop : c.machine.frame = c.machine.globals) :
    c.Stands [] .top := by
  refine ⟨?_, rfl⟩
  unfold Config.Mirrors
  rw [htop]
  exact .top fun _ => rfl

/-- The current frame has no variables beyond those of the innermost scope. -/
def Config.Exact (c : Config) (S : List Scope) : Prop :=
  ∀ scope ∈ S.head?, ∀ name, (c.slots c.machine.frame name).isSome → scope.contains name = true

/-- The two states correspond. -/
structure Agrees (P : List Scope → Mention → Prop) (c : Config) : Prop where
  cells : Variables c.machine.globals c.slots c.machine.store c.reference.store
  heap : Heap P c.machine.globals c.slots c.machine.store c.reference.store
  addressed : ∀ S m, P S m →
    c.machine.hops.get? m.id = S.findIdx? (·.contains m.token.lexeme)
  depth : c.reference.depth = c.machine.depth
  sink : c.reference.sink = c.machine.sink
  clock : c.reference.clock = c.machine.clock
  readings : c.reference.readings = c.machine.readings

/-- What running something does to a pair of states. Only the frame `current`, if there is one,
gets new variables among the frames that were there before. -/
structure Step (current : Option Nat) (c c' : Config) : Prop where
  grown : Grown c.machine.store c.slots c'.machine.store c'.slots
  size : c.machine.store.frames.size ≤ c'.machine.store.frames.size
  others : ∀ frame, frame < c.machine.store.frames.size → some frame ≠ current →
    ∀ name, c'.slots frame name = c.slots frame name
  frame : c'.machine.frame = c.machine.frame
  globals : c'.machine.globals = c.machine.globals
  hops : c'.machine.hops = c.machine.hops

namespace Step

variable {current : Option Nat} {c c' c'' : Config} {S : List Scope}

theorem refl (current : Option Nat) (c : Config) : Step current c c :=
  ⟨Grown.refl _ _, Nat.le_refl _, fun _ _ _ _ => rfl, rfl, rfl, rfl⟩

theorem trans (h : Step current c c') (h' : Step current c' c'') : Step current c c'' where
  grown := h.grown.trans h'.grown
  size := Nat.le_trans h.size h'.size
  others frame hlt hne name := by
    rw [h'.others frame (Nat.lt_of_lt_of_le hlt h.size) hne, h.others frame hlt hne]
  frame := h'.frame.trans h.frame
  globals := h'.globals.trans h.globals
  hops := h'.hops.trans h.hops

/-- What changes no frame that was there before changes no frame but the current one. -/
theorem weaken (h : Step none c c') (current : Option Nat) : Step current c c' :=
  { h with others := fun frame hlt _ => h.others frame hlt (by simp) }

theorem mirrors {locals : Locals} (h : Step current c c') (hmirrors : c.Mirrors S locals) :
    c'.Mirrors S locals := by
  unfold Config.Mirrors
  rw [h.globals, h.frame]
  exact hmirrors.grow h.grown

theorem stands {env : Env} (h : Step current c c') (hstands : c.Stands S env) :
    c'.Stands S env :=
  ⟨h.mirrors hstands.1, hstands.2⟩

/-- A frame that no step changes stays exact. -/
theorem exact (h : Step none c c') (hlt : c.machine.frame < c.machine.store.frames.size)
    (hexact : c.Exact S) : c'.Exact S := by
  intro scope hscope name hname
  rw [h.frame, h.others _ hlt (by simp)] at hname
  exact hexact scope hscope name hname

theorem closureAgrees {P : List Scope → Mention → Prop} {extra : List Scope}
    {closure : ScriptLang.Closure} {closure' : Closure} (h : Step current c c')
    (hclosure : ClosureAgrees P c.machine.globals c.slots c.machine.store extra closure closure') :
    ClosureAgrees P c'.machine.globals c'.slots c'.machine.store extra closure closure' := by
  rw [h.globals]
  exact hclosure.grow h.grown

end Step

/-- The current frame exists. -/
theorem Agrees.frame_lt {P : List Scope → Mention → Prop} {c : Config} {S : List Scope}
    {locals : Locals} (h : Agrees P c) (hmirrors : c.Mirrors S locals) :
    c.machine.frame < c.machine.store.frames.size := by
  unfold Config.Mirrors at hmirrors
  generalize hframe : c.machine.frame = frame at hmirrors
  cases hmirrors with
  | top => exact h.cells.globalFrame
  | inside henclosing => exact c.machine.store.lt_of_enclosing? henclosing

/-- Inside a scope the current frame is not the frame of the globals. -/
theorem Agrees.frame_ne {P : List Scope → Mention → Prop} {c : Config} {scope : Scope}
    {outer : List Scope} {locals : Locals} (h : Agrees P c)
    (hmirrors : c.Mirrors (scope :: outer) locals) : c.machine.frame ≠ c.machine.globals := by
  intro heq
  unfold Config.Mirrors at hmirrors
  rw [heq] at hmirrors
  cases hmirrors with
  | inside henclosing =>
    rw [h.cells.root] at henclosing
    exact absurd henclosing (by simp)

end ScriptLang.Reference
