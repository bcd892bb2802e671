/-
ScriptLang.Proofs.Store.Changes — how a store can change.

There are seven ways in which a running script changes the store (`Change`).
Which names, functions and methods it may put in is a licence; what a licence
grants is a parameter here, so that the same seven ways serve every question
about what a store holds.

Whatever the licence, a store only grows (`Evolves.grows`): frames keep the
frame around them and their names, objects keep their class and the names of
their fields, functions and classes stay as they are. What was granted before
and is granted now is all that a store holds (`Evolves.granted`). And where no
script may write to the name of the instance, the frames that hold an instance
hold it for good (`Evolves.self`).
-/
import Mathlib.Logic.Relation
import ScriptLang.Proofs.Store.Frames

namespace ScriptLang.Store

/-! ## 1. Changes -/

/-- What a script may put into a store: the names it gives values to, its functions, and the
methods of the class with a number under their names. -/
structure Licence where
  name : String → Prop
  function : Closure → Prop
  method : Nat → String → Closure → Prop

/-- One change of a store. -/
inductive Change (L : Licence) : Store → Store → Prop where
  | addFrame {s : Store} (outer : Nat) : Change L s (s.addFrame (some outer)).2
  | define {s : Store} {name : String} (frame : Nat) (value : Value) : L.name name →
      Change L s (s.define frame name value)
  | bindMethod {s : Store} (method : Closure) (object : Nat) :
      Change L s (s.bindMethod method object).2
  | addFunction {s : Store} {closure : Closure} : L.function closure →
      Change L s (s.addFunction closure).2
  | addClass {s : Store} {info : ClassInfo} :
      (∀ name method, info.methods.get? name = some method → L.method s.classes.size name method) →
      Change L s (s.addClass info).2
  | addObject {s : Store} (classId : Nat) : Change L s (s.addObject classId).2
  | setField {s : Store} (object : Nat) (name : String) (value : Value) :
      Change L s (s.setField object name value)

/-- Some changes of a store, one after the other. -/
abbrev Evolves (L : Licence) : Store → Store → Prop := Relation.ReflTransGen (Change L)

section Changes

variable {L : Licence} {s s' s'' : Store}

theorem Evolves.defineAll {frame : Nat} {pairs : List (String × Value)}
    (h : ∀ pair ∈ pairs, L.name pair.1) : Evolves L s (s.defineAll frame pairs) := by
  induction pairs generalizing s with
  | nil => exact .refl
  | cons pair rest ih =>
    have hfirst : Change L s (s.define frame pair.1 pair.2) :=
      .define frame pair.2 (h pair List.mem_cons_self)
    exact .head hfirst (ih fun other hother => h other (List.mem_cons_of_mem _ hother))

/-! ## 2. Growth -/

/-- The second store has all that the first one has: frames inside the same frames, with at least
the same names; objects of the same classes, with at least the same fields; the same functions and
classes. -/
structure Grows (s s' : Store) : Prop where
  size : s.frames.size ≤ s'.frames.size
  enclosing : ∀ {frame}, frame < s.frames.size → s'.enclosing? frame = s.enclosing? frame
  bound : ∀ {frame name}, (s.getHere? frame name).isSome → (s'.getHere? frame name).isSome
  function : ∀ {id : Nat} {closure}, s.functions[id]? = some closure →
    s'.functions[id]? = some closure
  classInfo : ∀ {id : Nat} {info}, s.classes[id]? = some info → s'.classes[id]? = some info
  object : ∀ {id : Nat} {object}, s.objects[id]? = some object →
    ∃ fields, s'.objects[id]? = some ⟨object.classId, fields⟩ ∧
      ∀ name, object.fields.contains name = true → fields.contains name = true

theorem Grows.refl (s : Store) : Grows s s :=
  ⟨Nat.le_refl _, fun _ => rfl, id, id, id, fun h => ⟨_, h, fun _ hname => hname⟩⟩

theorem Grows.trans (h : Grows s s') (h' : Grows s' s'') : Grows s s'' where
  size := Nat.le_trans h.size h'.size
  enclosing hlt := (h'.enclosing (Nat.lt_of_lt_of_le hlt h.size)).trans (h.enclosing hlt)
  bound hbound := h'.bound (h.bound hbound)
  function hid := h'.function (h.function hid)
  classInfo hid := h'.classInfo (h.classInfo hid)
  object hid := by
    obtain ⟨fields, hobject, hfields⟩ := h.object hid
    obtain ⟨fields', hobject', hfields'⟩ := h'.object hobject
    exact ⟨fields', hobject', fun name hname => hfields' name (hfields name hname)⟩

/-- A growth that concerns frames only. -/
theorem Grows.of_frames (hsize : s.frames.size ≤ s'.frames.size)
    (henclosing : ∀ frame, frame < s.frames.size → s'.enclosing? frame = s.enclosing? frame)
    (hbound : ∀ frame name, (s.getHere? frame name).isSome → (s'.getHere? frame name).isSome)
    (hfunctions : s'.functions = s.functions) (hclasses : s'.classes = s.classes)
    (hobjects : s'.objects = s.objects) : Grows s s' where
  size := hsize
  enclosing hlt := henclosing _ hlt
  bound h := hbound _ _ h
  function hid := by rwa [hfunctions]
  classInfo hid := by rwa [hclasses]
  object hid := ⟨_, by rwa [hobjects], fun _ hname => hname⟩

theorem grows_addFrame (s : Store) (outer : Option Nat) : Grows s (s.addFrame outer).2 := by
  refine .of_frames (by simp) ?_ ?_ rfl rfl rfl
  · intro frame hlt
    rw [enclosing?_addFrame, if_neg (by omega)]
  · intro frame name hbound
    rwa [getHere?_addFrame]

theorem grows_define (s : Store) (frame : Nat) (name : String) (value : Value) :
    Grows s (s.define frame name value) :=
  .of_frames (by simp) (fun other _ => enclosing?_define s frame name value other)
    (fun _ _ hbound => s.isSome_getHere?_define frame name value hbound) rfl rfl rfl

theorem getElem?_push_of_some {α : Type} {entries : Array α} {id : Nat} {entry : α} (new : α)
    (h : entries[id]? = some entry) : (entries.push new)[id]? = some entry := by
  obtain ⟨hlt, -⟩ := Array.getElem?_eq_some_iff.mp h
  rw [Array.getElem?_push, if_neg (by omega)]
  exact h

theorem contains_insert_of_contains {α : Type} {entries : NameMap α} {name other : String}
    (value : α) (h : entries.contains other = true) :
    (entries.insert name value).contains other = true := by
  rw [NameMap.contains, NameMap.get?_insert]
  split
  · rfl
  · exact h

/-- What was put into a map under a name came from one of the pairs or was there before. -/
theorem mem_of_get?_insertAll {α : Type} {pairs : List (String × α)} {entries : NameMap α}
    {name : String} {value : α} (h : (entries.insertAll pairs).get? name = some value) :
    (name, value) ∈ pairs ∨ entries.get? name = some value := by
  induction pairs generalizing entries with
  | nil => exact .inr h
  | cons pair rest ih =>
    rcases ih h with hmem | hget
    · exact .inl (List.mem_cons_of_mem _ hmem)
    · rw [NameMap.get?_insert] at hget
      split at hget
      · rename_i heq
        cases hget
        exact .inl (heq ▸ List.mem_cons_self)
      · exact .inr hget

theorem grows_setField (s : Store) (object : Nat) (name : String) (value : Value) :
    Grows s (s.setField object name value) where
  size := Nat.le_refl _
  enclosing _ := rfl
  bound h := h
  function h := h
  classInfo h := h
  object {id found} hid := by
    simp only [setField, Array.getElem?_modify]
    by_cases heq : object = id
    · rw [if_pos heq, hid]
      exact ⟨_, rfl, fun _ hname => contains_insert_of_contains value hname⟩
    · rw [if_neg heq, hid]
      exact ⟨_, rfl, fun _ hname => hname⟩

theorem Change.grows (h : Change L s s') : Grows s s' := by
  cases h with
  | addFrame outer => exact grows_addFrame s (some outer)
  | define frame value _ => exact grows_define s frame _ value
  | bindMethod method object => exact (grows_addFrame s (some method.frame)).trans (grows_define ..)
  | addFunction _ =>
    exact ⟨Nat.le_refl _, fun _ => rfl, id, getElem?_push_of_some _, id,
      fun hid => ⟨_, hid, fun _ hname => hname⟩⟩
  | addClass _ =>
    exact ⟨Nat.le_refl _, fun _ => rfl, id, id, getElem?_push_of_some _,
      fun hid => ⟨_, hid, fun _ hname => hname⟩⟩
  | addObject classId =>
    exact ⟨Nat.le_refl _, fun _ => rfl, id, id, id,
      fun hid => ⟨_, getElem?_push_of_some _ hid, fun _ hname => hname⟩⟩
  | setField object name value => exact grows_setField s object name value

/-- A store only grows. -/
theorem Evolves.grows (h : Evolves L s s') : Grows s s' := by
  induction h with
  | refl => exact .refl s
  | tail _ hchange ih => exact ih.trans hchange.grows

/-! ## 3. What a store holds -/

/-- Every function and every method in a store is granted. -/
structure Granted (L : Licence) (s : Store) : Prop where
  function : ∀ {id : Nat} {closure}, s.functions[id]? = some closure → L.function closure
  method : ∀ {id : Nat} {info name method}, s.classes[id]? = some info →
    info.methods.get? name = some method → L.method id name method

theorem Change.granted (h : Change L s s') (hgranted : Granted L s) : Granted L s' := by
  cases h with
  | addFrame | define | bindMethod | addObject | setField =>
    exact ⟨hgranted.function, hgranted.method⟩
  | addFunction hclosure =>
    refine ⟨fun {id found} hid => ?_, hgranted.method⟩
    simp only [Store.addFunction, Array.getElem?_push] at hid
    split at hid
    · cases hid
      exact hclosure
    · exact hgranted.function hid
  | addClass hmethods =>
    refine ⟨hgranted.function, fun {id found name method} hid hmethod => ?_⟩
    simp only [Store.addClass, Array.getElem?_push] at hid
    split at hid
    · rename_i heq
      cases hid
      exact heq ▸ hmethods name method hmethod
    · exact hgranted.method hid hmethod

theorem Evolves.granted (h : Evolves L s s') (hgranted : Granted L s) : Granted L s' := by
  induction h with
  | refl => exact hgranted
  | tail _ hchange ih => exact hchange.granted ih

/-- What one licence grants, another one that is as generous grants. -/
theorem Granted.mono {L' : Licence} (h : Granted L s)
    (hfunction : ∀ closure, L.function closure → L'.function closure)
    (hmethod : ∀ id name method, L.method id name method → L'.method id name method) :
    Granted L' s :=
  ⟨fun hid => hfunction _ (h.function hid), fun hid hget => hmethod _ _ _ (h.method hid hget)⟩

/-! ## 4. The frames of instances -/

/-- A definition under another name is not seen. -/
theorem getHere?_define_of_ne {name otherName : String} (hne : otherName ≠ name) (frame : Nat)
    (value : Value) (other : Nat) :
    (s.define frame name value).getHere? other otherName = s.getHere? other otherName := by
  by_cases hframe : frame < s.frames.size
  · rw [getHere?_define s hframe, if_neg fun h => hne h.2]
  · simp only [define, getHere?, Array.getElem?_modify]
    split
    · rename_i heq
      rw [Array.getElem?_eq_none (by omega)]
      rfl
    · rfl

/-- A method that is bound to an object gets a frame that holds the object. -/
theorem getHere?_bindMethod (s : Store) (method : Closure) (object frame : Nat) (name : String) :
    (s.bindMethod method object).2.getHere? frame name =
      if frame = s.frames.size ∧ name = selfName then some (.object object)
      else s.getHere? frame name := by
  have hlt : s.frames.size < (s.addFrame (some method.frame)).2.frames.size := by simp
  have h := getHere?_define (s.addFrame (some method.frame)).2 hlt selfName (.object object) frame name
  rwa [getHere?_addFrame] at h

theorem Change.self (hname : ¬ L.name selfName) (h : Change L s s') {frame : Nat}
    (hlt : frame < s.frames.size) : s'.getHere? frame selfName = s.getHere? frame selfName := by
  cases h with
  | addFrame outer => exact getHere?_addFrame s (some outer) frame selfName
  | @define name other value hgranted =>
    have hne : selfName ≠ name := by
      rintro rfl
      exact hname hgranted
    exact getHere?_define_of_ne hne other value frame
  | bindMethod method object =>
    rw [getHere?_bindMethod, if_neg fun h => Nat.ne_of_lt hlt h.1]
  | addFunction | addClass | addObject | setField => rfl

/-- Where the name of the instance is not written to, a frame keeps its instance, and a frame
without one gets none. -/
theorem Evolves.self (hname : ¬ L.name selfName) (h : Evolves L s s') {frame : Nat}
    (hlt : frame < s.frames.size) : s'.getHere? frame selfName = s.getHere? frame selfName := by
  induction h with
  | refl => rfl
  | tail hbefore hchange ih =>
    exact (hchange.self hname (Nat.lt_of_lt_of_le hlt (Evolves.grows hbefore).size)).trans ih

end Changes

end ScriptLang.Store
