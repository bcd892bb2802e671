/-
ScriptLang.Proofs.Machine.Access — searching a variable and addressing it.

Searching and addressing treat a missing name differently. A search fails, and
so does a read by address, but a write by address creates the variable, and
fails only where there are not so many links. They agree where the address is
that of the nearest variable (`searching_agrees_with_addressing`). Whatever
fails leaves the machine as it was.
-/
import ScriptLang.Proofs.Machine.Variables
import ScriptLang.Proofs.Store.Chains

namespace ScriptLang.Exec

section Agreement

variable {m : Machine} {frame target hops links root : Nat}

/-- At the frame where the search ends, both ways read and write the same variable. -/
theorem agree_at_nearest (hframe : target < m.store.frames.size) (name : Token) (value : Value)
    (hleads : m.store.Leads frame hops target)
    (hhere : (m.store.getHere? target name.lexeme).isSome)
    (hfind : m.store.find? frame name.lexeme = some target) :
    ∃ found s', m.store.getHere? target name.lexeme = some found ∧
      readNearest frame name m = .ok found m ∧ readAt frame hops name m = .ok found m ∧
      m.store.Sets target name.lexeme value s' ∧
      writeNearest frame name value m = .ok () { m with store := s' } ∧
      writeAt frame hops name value m = .ok () { m with store := s' } := by
  obtain ⟨found, hfound⟩ := Option.isSome_iff_exists.mp hhere
  have hancestor := Store.ancestor?_eq_some_iff.mpr hleads
  refine ⟨found, _, hfound, readBy_of_some ?_, readBy_of_some ?_,
    Store.sets_define hframe name.lexeme value, writeBy_of_some ?_, writeBy_of_some ?_⟩
  · rw [Store.get?, hfind, Option.bind_some, hfound]
  · rw [Store.getAt?, hancestor, Option.bind_some, hfound]
  · rw [Store.assign?, hfind, Option.map_some]
  · rw [Store.assignAt?, hancestor, Option.map_some]

/-- Where no frame on the way to the root has the name, there is nothing to be read or searched. -/
theorem fail_unbound (name : Token) (value : Value)
    (h : ∀ hops, ¬ m.store.BoundAt frame name.lexeme hops) :
    readNearest frame name m = .error (undefinedAt name) m ∧
      writeNearest frame name value m = .error (undefinedAt name) m ∧
      ∀ hops, readAt frame hops name m = .error (undefinedAt name) m := by
  have hfind := Store.find?_eq_none h
  refine ⟨readBy_of_none ?_, writeBy_of_none ?_, fun hops => readBy_of_none ?_⟩
  · rw [Store.get?, hfind, Option.bind_none]
  · rw [Store.assign?, hfind, Option.map_none]
  · rw [Store.getAt?, Option.bind_eq_none_iff]
    intro target hancestor
    by_contra hhere
    have hleads := Store.ancestor?_eq_some_iff.mp hancestor
    exact h hops ⟨target, hleads, Option.isSome_iff_ne_none.mpr hhere⟩

/-- A write by address reaches every frame up to the root, whatever names it has. -/
theorem writeAt_reaches (hback : m.store.LinksBack) (hframe : frame < m.store.frames.size)
    (hleads : m.store.Leads frame links root) (hroot : m.store.enclosing? root = none)
    (name : Token) (value : Value) (hle : hops ≤ links) :
    ∃ target s', m.store.Leads frame hops target ∧ m.store.Sets target name.lexeme value s' ∧
      writeAt frame hops name value m = .ok () { m with store := s' } := by
  have hsome : m.store.ancestor? hops frame ≠ none := fun hnone =>
    Nat.not_lt_of_le hle ((Store.ancestor?_eq_none_iff hleads hroot).mp hnone)
  obtain ⟨target, htarget⟩ := Option.ne_none_iff_exists'.mp hsome
  have hleads' := Store.ancestor?_eq_some_iff.mp htarget
  refine ⟨target, _, hleads', Store.sets_define (hleads'.lt hback hframe) name.lexeme value,
    writeBy_of_some ?_⟩
  rw [Store.assignAt?, htarget, Option.map_some]

/-- A write by address fails just where there are not so many links. -/
theorem writeAt_fails_iff (hback : m.store.LinksBack) (hframe : frame < m.store.frames.size)
    (hleads : m.store.Leads frame links root) (hroot : m.store.enclosing? root = none)
    (name : Token) (value : Value) :
    writeAt frame hops name value m = .error (undefinedAt name) m ↔ links < hops := by
  constructor
  · intro hfails
    by_contra hlt
    obtain ⟨_, _, -, -, hwrites⟩ :=
      writeAt_reaches hback hframe hleads hroot name value (Nat.le_of_not_lt hlt)
    rw [hwrites] at hfails
    cases hfails
  · intro hlt
    refine writeBy_of_none ?_
    rw [Store.assignAt?, (Store.ancestor?_eq_none_iff hleads hroot).mpr hlt, Option.map_none]

/-- Searching and addressing agree. From every frame of every store that was built by operations on
frames, and for every name: if so many links outward is the nearest frame that has the name, reading
by search and reading by address give the value there, and writing by search and writing by address
leave the same store behind, in which this name in this frame is all that is different. If no frame
from here to the root has the name, searches fail, reads by address fail at every distance, and all
of them leave the machine as it was. A write by address fails, and leaves the machine as it was,
exactly when there are fewer links to the root; otherwise it sets the name in the frame there, also
where it is new. -/
theorem searching_agrees_with_addressing (hbuilt : m.store.Built)
    (hframe : frame < m.store.frames.size) (name : Token) (value : Value) :
    (∀ hops, IsLeast {hops | m.store.BoundAt frame name.lexeme hops} hops →
      ∃ target found s', m.store.Leads frame hops target ∧
        m.store.getHere? target name.lexeme = some found ∧
        readNearest frame name m = .ok found m ∧ readAt frame hops name m = .ok found m ∧
        m.store.Sets target name.lexeme value s' ∧
        writeNearest frame name value m = .ok () { m with store := s' } ∧
        writeAt frame hops name value m = .ok () { m with store := s' }) ∧
    ((∀ hops, ¬ m.store.BoundAt frame name.lexeme hops) →
      readNearest frame name m = .error (undefinedAt name) m ∧
      writeNearest frame name value m = .error (undefinedAt name) m ∧
      ∀ hops, readAt frame hops name m = .error (undefinedAt name) m) ∧
    ∃ links root, m.store.Leads frame links root ∧ m.store.enclosing? root = none ∧ ∀ hops,
      (writeAt frame hops name value m = .error (undefinedAt name) m ↔ links < hops) ∧
      (hops ≤ links → ∃ target s', m.store.Leads frame hops target ∧
        m.store.Sets target name.lexeme value s' ∧
        writeAt frame hops name value m = .ok () { m with store := s' }) := by
  have hback := hbuilt.linksBack
  refine ⟨fun hops hleast => ?_, fail_unbound name value, ?_⟩
  · obtain ⟨target, hleads, hhere, hfind⟩ := Store.find?_of_isLeast hback hframe hleast
    obtain ⟨found, s', hagree⟩ :=
      agree_at_nearest (hleads.lt hback hframe) name value hleads hhere hfind
    exact ⟨target, found, s', hleads, hagree⟩
  · obtain ⟨links, root, hleads, hroot⟩ := hback.exists_root frame
    exact ⟨links, root, hleads, hroot, fun hops =>
      ⟨writeAt_fails_iff hback hframe hleads hroot name value,
        writeAt_reaches hback hframe hleads hroot name value⟩⟩

end Agreement

/-- A root, a child, a child of the child, and a second child of the root. The first child hides `x`
and has been assigned to from its own child, and the second child has given the root a `y`. -/
def hidingFrames : Store where
  frames := #[⟨⟨[("x", .text "outer"), ("y", .nil)]⟩, none⟩, ⟨⟨[("x", .bool true)]⟩, some 0⟩,
    ⟨.empty, some 1⟩, ⟨.empty, some 0⟩]
  hosts := #[]
  functions := #[]
  classes := #[]
  objects := #[]

theorem built_hidingFrames : hidingFrames.Built := by
  have hroot := Store.Built.empty.root
  have hchild := hroot.child (show 0 < _ by decide)
  have hgrandchild := hchild.child (show 1 < _ by decide)
  have hsecond := hgrandchild.child (show 0 < _ by decide)
  have hdefined := (hsecond.define 0 "x" (.text "outer")).define 1 "x" .nil
  have hassigned := hdefined.assign (show Store.assign? _ 2 "x" (.bool true) = some _ from rfl)
  exact hassigned.assignAt (show Store.assignAt? _ 3 1 "y" .nil = some hidingFrames from rfl)

theorem nearest_hidingFrames : IsLeast {hops | hidingFrames.BoundAt 2 "x" hops} 1 := by
  refine ⟨⟨1, Store.ancestor?_eq_some_iff.mp rfl, rfl⟩, fun hops hbound => ?_⟩
  refine Nat.one_le_iff_ne_zero.mpr ?_
  rintro rfl
  exact absurd (Store.boundAt_zero.mp hbound) (by decide)

theorem unbound_hidingFrames (hops : Nat) : ¬ hidingFrames.BoundAt 2 "z" hops := by
  rintro ⟨target, -, hhere⟩
  have hlt : target < 4 := hidingFrames.lt_of_getHere? hhere
  have hnowhere : ∀ target < 4, ¬ (hidingFrames.getHere? target "z").isSome := by decide
  exact hnowhere target hlt hhere

theorem searching_agrees_with_addressing_hidingFrames :
    let m := { Machine.start .unbounded (steadyClock 0) with store := hidingFrames }
    let x : Token := ⟨.identifier, "x", none, 1⟩
    let z : Token := ⟨.identifier, "z", none, 1⟩
    m.store.Built ∧ 2 < m.store.frames.size ∧
    IsLeast {hops | m.store.BoundAt 2 x.lexeme hops} 1 ∧
    readNearest 2 x m = .ok (.bool true) m ∧ readAt 2 1 x m = .ok (.bool true) m ∧
    (∃ s', writeNearest 2 x .nil m = .ok () { m with store := s' } ∧
      writeAt 2 1 x .nil m = .ok () { m with store := s' } ∧
      s'.getHere? 1 "x" = some .nil ∧ s'.getHere? 0 "x" = some (.text "outer")) ∧
    (∀ hops, ¬ m.store.BoundAt 2 z.lexeme hops) ∧
    writeNearest 2 z .nil m = .error (undefinedAt z) m ∧
    readAt 2 1 z m = .error (undefinedAt z) m ∧
    (∃ s', writeAt 2 2 z .nil m = .ok () { m with store := s' } ∧ s'.getHere? 0 "z" = some .nil) ∧
    writeAt 2 3 z .nil m = .error (undefinedAt z) m := by
  intro m x z
  have hframe : 2 < m.store.frames.size := by decide
  obtain ⟨hagree, -, -⟩ :=
    searching_agrees_with_addressing (m := m) built_hidingFrames hframe x .nil
  obtain ⟨-, hfails, links, root, hlinks, hroot, hwrites⟩ :=
    searching_agrees_with_addressing (m := m) built_hidingFrames hframe z .nil
  -- `x` is found one link outward, in the frame that hides the outermost one's
  obtain ⟨target, found, s', htarget, hfound, hread, hreadAt, hsets, hwrite, hwriteAt⟩ :=
    hagree 1 nearest_hidingFrames
  obtain rfl : 1 = target := Option.some.inj (Store.ancestor?_eq_some_iff.mpr htarget)
  obtain rfl : Value.bool true = found := Option.some.inj hfound
  have hhidden := hsets.others 0 "x" (by decide)
  -- `z` is nowhere, and two links is as far as one can go
  obtain ⟨-, hwriteZ, hreadZ⟩ := hfails unbound_hidingFrames
  have hlength : ∀ {hops}, m.store.ancestor? hops 2 = none ↔ links < hops :=
    Store.ancestor?_eq_none_iff hlinks hroot
  have hlong : 2 ≤ links := Nat.le_of_not_lt fun hlt => absurd (hlength.mpr hlt) (by decide)
  obtain ⟨top, s₀, htop, hcreated, hcreates⟩ := (hwrites 2).2 hlong
  obtain rfl : 0 = top := Option.some.inj (Store.ancestor?_eq_some_iff.mpr htop)
  exact ⟨built_hidingFrames, hframe, nearest_hidingFrames, hread, hreadAt,
    ⟨s', hwrite, hwriteAt, hsets.written, hhidden⟩, unbound_hidingFrames, hwriteZ, hreadZ 1,
    ⟨s₀, hcreates, hcreated.written⟩, (hwrites 3).1.mpr (hlength.mp rfl)⟩

end ScriptLang.Exec
