/-
ScriptLang.Proofs.Store.Chains — the frames around a frame.

Links lead from a frame outward, one after the other (`Leads`). In a store
whose frames were made and changed by the operations on frames alone (`Built`)
every link leads to an earlier frame, so from every frame links lead to a root,
and none leads further (`LinksBack.exists_root`).

A search goes outward with a budget of links, which is the number of frames.
Since links lead to earlier frames, the budget outlasts every chain: the search
ends at the nearest frame that has the name (`find?_of_isLeast`), whichever
frames share this one as a parent and whatever hides the name further out, and
it comes back empty-handed only if no frame around has the name
(`find?_eq_none`).
-/
import Mathlib.Order.Bounds.Basic
import ScriptLang.Proofs.Store.Frames

namespace ScriptLang.Store

variable {s s' : Store} {frame outer target root hops links : Nat} {name : String} {value : Value}

/-! ## 1. Links outward -/

/-- So many links lead outward from one frame to another. -/
inductive Leads (s : Store) : Nat → Nat → Nat → Prop where
  | here {frame : Nat} : Leads s frame 0 frame
  | outward {frame outer hops target : Nat} : s.enclosing? frame = some outer →
      Leads s outer hops target → Leads s frame (hops + 1) target

/-- Going outward by count ends where the links lead. -/
theorem ancestor?_eq_some_iff :
    s.ancestor? hops frame = some target ↔ s.Leads frame hops target := by
  constructor
  · intro h
    induction hops generalizing frame with
    | zero =>
      cases h
      exact .here
    | succ hops ih =>
      rw [ancestor?, Option.bind_eq_some_iff] at h
      obtain ⟨outer, hlink, hrest⟩ := h
      exact .outward hlink (ih hrest)
  · intro h
    induction h with
    | here => rfl
    | outward hlink _ ih => rw [ancestor?, hlink, Option.bind_some, ih]

/-- From a frame that is so many links inside its root, exactly as many links can be gone. -/
theorem ancestor?_eq_none_iff (hleads : s.Leads frame links root)
    (hroot : s.enclosing? root = none) : s.ancestor? hops frame = none ↔ links < hops := by
  induction hleads generalizing hops with
  | here => cases hops <;> simp [ancestor?, hroot]
  | outward hlink _ ih =>
    cases hops with
    | zero => simp [ancestor?]
    | succ hops => rw [ancestor?, hlink, Option.bind_some, ih hroot, Nat.add_lt_add_iff_right]

/-- Every link leads to an earlier frame. -/
def LinksBack (s : Store) : Prop :=
  ∀ ⦃frame outer : Nat⦄, s.enclosing? frame = some outer → outer < frame

theorem LinksBack.congr (h : s.LinksBack)
    (hlinks : ∀ frame, s'.enclosing? frame = s.enclosing? frame) : s'.LinksBack :=
  fun frame _ hlink => h ((hlinks frame).symm.trans hlink)

/-- A new frame may be linked to any frame that was there before. -/
theorem LinksBack.addFrame (h : s.LinksBack) {enclosing : Option Nat}
    (hexists : ∀ outer, enclosing = some outer → outer < s.frames.size) :
    (s.addFrame enclosing).2.LinksBack := by
  intro frame outer hlink
  rw [enclosing?_addFrame] at hlink
  split at hlink
  · rename_i hnew
    exact hnew ▸ hexists outer hlink
  · exact h hlink

theorem LinksBack.leads_le (h : s.LinksBack) (hleads : s.Leads frame hops target) :
    target + hops ≤ frame := by
  induction hleads with
  | here => exact Nat.le_refl _
  | outward hlink _ ih =>
    have hlt := h hlink
    omega

/-- From every frame links lead to a root. -/
theorem LinksBack.exists_root (h : s.LinksBack) (frame : Nat) :
    ∃ links root, s.Leads frame links root ∧ s.enclosing? root = none := by
  induction frame using Nat.strong_induction_on with
  | _ frame ih =>
    cases hlink : s.enclosing? frame with
    | none => exact ⟨0, frame, .here, hlink⟩
    | some outer =>
      obtain ⟨links, root, hleads, hroot⟩ := ih outer (h hlink)
      exact ⟨links + 1, root, .outward hlink hleads, hroot⟩

/-- Links lead from a frame that exists to frames that exist. -/
theorem Leads.lt (hleads : s.Leads frame hops target) (h : s.LinksBack)
    (hframe : frame < s.frames.size) : target < s.frames.size := by
  have hle := h.leads_le hleads
  omega

/-! ## 2. Stores built by operations on frames -/

/-- The frames of the store were made and changed by new roots, new children, definitions and the
two kinds of assignment alone, in any order. What values point at may have changed in between. -/
inductive Built : Store → Prop where
  | empty : Built .empty
  | root {s : Store} : Built s → Built (s.addFrame none).2
  | child {s : Store} {outer : Nat} : Built s → outer < s.frames.size →
      Built (s.addFrame (some outer)).2
  | define {s : Store} (frame : Nat) (name : String) (value : Value) : Built s →
      Built (s.define frame name value)
  | assign {s s' : Store} {frame : Nat} {name : String} {value : Value} : Built s →
      s.assign? frame name value = some s' → Built s'
  | assignAt {s s' : Store} {frame hops : Nat} {name : String} {value : Value} : Built s →
      s.assignAt? frame hops name value = some s' → Built s'
  | elsewhere {s s' : Store} : Built s → s'.frames = s.frames → Built s'

/-- Assignments, of either kind, are definitions in some frame, and these keep all links. -/
theorem LinksBack.of_map_define (h : s.LinksBack) {found? : Option Nat}
    (hdefine : found?.map (s.define · name value) = some s') : s'.LinksBack := by
  obtain ⟨found, -, rfl⟩ := Option.map_eq_some_iff.mp hdefine
  exact h.congr fun frame => enclosing?_define ..

theorem Built.linksBack (h : s.Built) : s.LinksBack := by
  induction h with
  | empty =>
    intro frame outer hlink
    simp [enclosing?, Store.empty] at hlink
  | root _ ih => exact ih.addFrame fun outer h => by cases h
  | child _ hexists ih =>
    refine ih.addFrame fun other h => ?_
    cases h
    exact hexists
  | define frame name value _ ih => exact ih.congr fun other => enclosing?_define ..
  | assign _ hassign ih => exact ih.of_map_define hassign
  | assignAt _ hassign ih => exact ih.of_map_define hassign
  | elsewhere _ hframes ih => exact ih.congr fun frame => by rw [enclosing?, enclosing?, hframes]

/-! ## 3. Searching -/

/-- The frame so many links outward has a variable of this name. -/
def BoundAt (s : Store) (frame : Nat) (name : String) (hops : Nat) : Prop :=
  ∃ target, s.Leads frame hops target ∧ (s.getHere? target name).isSome

theorem boundAt_zero : s.BoundAt frame name 0 ↔ (s.getHere? frame name).isSome := by
  constructor
  · rintro ⟨target, hleads, hhere⟩
    cases hleads
    exact hhere
  · exact fun hhere => ⟨frame, .here, hhere⟩

theorem BoundAt.outward (hlink : s.enclosing? frame = some outer) (h : s.BoundAt outer name hops) :
    s.BoundAt frame name (hops + 1) := by
  obtain ⟨target, hleads, hhere⟩ := h
  exact ⟨target, .outward hlink hleads, hhere⟩

/-- Where no frame on the way to a frame has the name, but that frame has it, the search ends
there if its budget takes it so far. -/
theorem findWithin_of_leads (hleads : s.Leads frame hops target)
    (hhere : (s.getHere? target name).isSome)
    (hfirst : ∀ nearer < hops, ¬ s.BoundAt frame name nearer) (hbudget : hops < links) :
    s.findWithin name links frame = some target := by
  induction hleads generalizing links with
  | here =>
    cases links with
    | zero => omega
    | succ links => rw [findWithin, if_pos hhere]
  | @outward frame outer hops target hlink _ ih =>
    cases links with
    | zero => omega
    | succ links =>
      have hnot : ¬ (s.getHere? frame name).isSome := fun h =>
        hfirst 0 (Nat.zero_lt_succ _) (boundAt_zero.mpr h)
      have hfirst' : ∀ nearer < hops, ¬ s.BoundAt outer name nearer := fun nearer hlt h =>
        hfirst (nearer + 1) (Nat.succ_lt_succ hlt) (h.outward hlink)
      rw [findWithin, if_neg hnot, hlink, Option.bind_some]
      exact ih hhere hfirst' (Nat.lt_of_succ_lt_succ hbudget)

theorem findWithin_eq_none (h : ∀ hops, ¬ s.BoundAt frame name hops) (links : Nat) :
    s.findWithin name links frame = none := by
  induction links generalizing frame with
  | zero => rfl
  | succ links ih =>
    rw [findWithin, if_neg fun hhere => h 0 (boundAt_zero.mpr hhere)]
    cases hlink : s.enclosing? frame with
    | none => rfl
    | some outer =>
      rw [Option.bind_some]
      exact ih fun hops hbound => h (hops + 1) (hbound.outward hlink)

/-- A search ends at the nearest frame that has the name. -/
theorem find?_of_isLeast (hback : s.LinksBack) (hframe : frame < s.frames.size)
    (hleast : IsLeast {hops | s.BoundAt frame name hops} hops) :
    ∃ target, s.Leads frame hops target ∧ (s.getHere? target name).isSome ∧
      s.find? frame name = some target := by
  obtain ⟨⟨target, hleads, hhere⟩, hlower⟩ := hleast
  have hfirst : ∀ nearer < hops, ¬ s.BoundAt frame name nearer := fun nearer hlt hbound =>
    Nat.not_le_of_lt hlt (hlower hbound)
  have hle := hback.leads_le hleads
  exact ⟨target, hleads, hhere, findWithin_of_leads hleads hhere hfirst (by omega)⟩

/-- A search fails if no frame on the way to the root has the name. -/
theorem find?_eq_none (h : ∀ hops, ¬ s.BoundAt frame name hops) : s.find? frame name = none :=
  findWithin_eq_none h _

/-! ## 4. One variable changed -/

/-- The second store is the first one with a value for one name in one frame. No other name, no
other frame and nothing else is different. -/
structure Sets (s : Store) (frame : Nat) (name : String) (value : Value) (s' : Store) : Prop where
  written : s'.getHere? frame name = some value
  others : ∀ other otherName, ¬ (other = frame ∧ otherName = name) →
    s'.getHere? other otherName = s.getHere? other otherName
  links : ∀ other, s'.enclosing? other = s.enclosing? other
  size : s'.frames.size = s.frames.size
  hosts : s'.hosts = s.hosts
  functions : s'.functions = s.functions
  classes : s'.classes = s.classes
  objects : s'.objects = s.objects

theorem sets_define (hframe : frame < s.frames.size) (name : String) (value : Value) :
    s.Sets frame name value (s.define frame name value) where
  written := by rw [getHere?_define s hframe, if_pos ⟨rfl, rfl⟩]
  others other otherName hne := by rw [getHere?_define s hframe, if_neg hne]
  links _ := enclosing?_define ..
  size := size_define ..
  hosts := rfl
  functions := rfl
  classes := rfl
  objects := rfl

end ScriptLang.Store
