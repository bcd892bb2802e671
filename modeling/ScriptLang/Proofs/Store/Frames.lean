/-
ScriptLang.Proofs.Store.Frames — what the operations of the store do to frames.

Everything that a frame can be asked goes through two questions: what a name
stands for in the frame itself (`getHere?`), and which frame is around it
(`enclosing?`). For each operation of the store there is one lemma about each
question, so that no later proof has to look into the list of frames.
-/
import ScriptLang.Store

namespace ScriptLang.Store

variable (s : Store)

/-! ## 1. Frames that exist -/

theorem lt_of_getHere? {frame : Nat} {name : String} (h : (s.getHere? frame name).isSome) :
    frame < s.frames.size := by
  by_cases hlt : frame < s.frames.size
  · exact hlt
  · have hnone : s.frames[frame]? = none := Array.getElem?_eq_none (by omega)
    simp [getHere?, hnone] at h

theorem lt_of_enclosing? {frame outer : Nat} (h : s.enclosing? frame = some outer) :
    frame < s.frames.size := by
  by_cases hlt : frame < s.frames.size
  · exact hlt
  · have hnone : s.frames[frame]? = none := Array.getElem?_eq_none (by omega)
    simp [enclosing?, hnone] at h

theorem getHere?_of_le {frame : Nat} (h : s.frames.size ≤ frame) (name : String) :
    s.getHere? frame name = none := by
  have hnone : s.frames[frame]? = none := Array.getElem?_eq_none h
  simp [getHere?, hnone]

/-! ## 2. New frames -/

@[simp] theorem size_addFrame (enclosing : Option Nat) :
    (s.addFrame enclosing).2.frames.size = s.frames.size + 1 := by
  simp [addFrame]

/-- A new frame has no variables, and the other frames keep theirs. -/
@[simp] theorem getHere?_addFrame (enclosing : Option Nat) (frame : Nat) (name : String) :
    (s.addFrame enclosing).2.getHere? frame name = s.getHere? frame name := by
  simp only [addFrame, getHere?, Array.getElem?_push]
  by_cases h : frame = s.frames.size
  · subst h
    simp
  · rw [if_neg h]

theorem enclosing?_addFrame (enclosing : Option Nat) (frame : Nat) :
    (s.addFrame enclosing).2.enclosing? frame
      = if frame = s.frames.size then enclosing else s.enclosing? frame := by
  simp only [addFrame, enclosing?, Array.getElem?_push]
  split <;> rfl

/-! ## 3. Variables -/

@[simp] theorem size_define (frame : Nat) (name : String) (value : Value) :
    (s.define frame name value).frames.size = s.frames.size := by
  simp [define]

/-- A definition is seen under its name in its frame, and nothing else changes. -/
theorem getHere?_define {frame : Nat} (hframe : frame < s.frames.size) (name : String)
    (value : Value) (other : Nat) (otherName : String) :
    (s.define frame name value).getHere? other otherName
      = if other = frame ∧ otherName = name then some value else s.getHere? other otherName := by
  simp only [define, getHere?, Array.getElem?_modify]
  by_cases hother : frame = other
  · subst hother
    simp only [if_true, Array.getElem?_eq_getElem hframe, Option.map_some, Option.bind_some,
      NameMap.get?_insert, true_and]
  · have hne : ¬ (other = frame ∧ otherName = name) := fun h => hother h.1.symm
    simp only [hother, hne, if_false]

@[simp] theorem enclosing?_define (frame : Nat) (name : String) (value : Value) (other : Nat) :
    (s.define frame name value).enclosing? other = s.enclosing? other := by
  simp only [define, enclosing?, Array.getElem?_modify]
  by_cases h : frame = other
  · subst h
    simp only [if_true]
    cases s.frames[frame]? <;> rfl
  · simp only [h, if_false]

/-- No definition makes a variable disappear. -/
theorem isSome_getHere?_define (frame : Nat) (name : String) (value : Value) {other : Nat}
    {otherName : String} (h : (s.getHere? other otherName).isSome) :
    ((s.define frame name value).getHere? other otherName).isSome := by
  have hlt := s.lt_of_getHere? h
  by_cases hframe : frame = other
  · subst hframe
    rw [getHere?_define s hlt]
    split
    · rfl
    · exact h
  · simpa only [define, getHere?, Array.getElem?_modify, hframe, if_false] using h

/-! ## 4. Searching -/

/-- A variable of a frame itself is the nearest one. -/
theorem find?_here {frame : Nat} {name : String} (h : (s.getHere? frame name).isSome) :
    s.find? frame name = some frame := by
  have hlt := s.lt_of_getHere? h
  unfold find?
  cases hsize : s.frames.size with
  | zero => omega
  | succ links => simp [findWithin, h]

/-- From a frame with nothing around it only its own variables are found. -/
theorem find?_root {frame : Nat} {name : String} (hroot : s.enclosing? frame = none)
    (h : (s.getHere? frame name).isSome = false) : s.find? frame name = none := by
  unfold find?
  cases hsize : s.frames.size with
  | zero => rfl
  | succ links => simp [findWithin, h, hroot]

/-- The globals are searched by looking into their frame. -/
theorem get?_root {frame : Nat} (hroot : s.enclosing? frame = none) (name : String) :
    s.get? frame name = s.getHere? frame name := by
  unfold get?
  cases h : s.getHere? frame name with
  | some value => rw [s.find?_here (by simp [h]), Option.bind_some, h]
  | none => rw [s.find?_root hroot (by simp [h]), Option.bind_none]

end ScriptLang.Store
