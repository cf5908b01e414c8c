import ArrayBridge.Proofs.World.Cascade

/-!
# The order of giving back

Two worlds that differ in nothing but order (`World.Reordered`), and two lists that give back the
same references: what is lost is lost in both, and what survives has the same counts
(`Reordered.perform`). Along the way the two may differ in everything, since an object that is freed
early in the one is freed late in the other.

**The argument.** The way of the one is seen from the end of the other (`Toward`). What survives at
that end still has, at every moment, as many references above the final count as are still to be
given back to it. So its last reference is not given back on the way, and nothing is lost on the way
that is not lost at that end. As this holds in both directions, the two ends agree.
-/

namespace ArrayBridge

namespace World

/-- The bridges that an object carries. -/
def carried (w : World) (o : ObjectId) : List Field := (w.object o).payload.elim [] Payload.fields

/-- Every object with a payload is kept from outside. -/
def Kept (w : World) : Prop := ∀ o, (w.object o).payload ≠ none → Variant.object o ∈ w.outside

/-- **The same but for order**: the order in which an object carries its bridges, and that in which
a bridge holds its references. -/
structure Reordered (w v : World) : Prop where
  outside : v.outside = w.outside
  bridges : v.bridges.size = w.bridges.size
  cls : ∀ o, (v.object o).cls = (w.object o).cls
  borrow : ∀ o, (v.object o).borrow = (w.object o).borrow
  alive : ∀ o, (v.object o).alive = (w.object o).alive
  refs : ∀ o, (v.object o).refs = (w.object o).refs
  payload : ∀ o, (v.object o).payload = none ↔ (w.object o).payload = none
  carried : ∀ o, (v.carried o).Perm (w.carried o)
  closed : ∀ slot, v.anyBridge? slot = none ↔ w.anyBridge? slot = none
  retained : ∀ slot, (retainedIn (v.anyBridge? slot)).Perm (retainedIn (w.anyBridge? slot))

variable {w w' v v' x x' : World} {o p : ObjectId} {pending rest : List Duty}

theorem mem_carried {f : Field} : f ∈ w.carried o ↔
    ∃ p, (w.object o).payload = some p ∧ f ∈ p.fields := by
  unfold carried
  cases (w.object o).payload <;> simp

theorem exists_mem_carried {P : Field → Prop} : (∃ f ∈ w.carried o, P f) ↔
    ∃ p, (w.object o).payload = some p ∧ ∃ f ∈ p.fields, P f := by
  unfold carried
  cases (w.object o).payload <;> simp

@[simp] theorem carried_of_none (none : (w.object o).payload = none) : w.carried o = [] := by
  rw [carried, none]
  rfl

/-- What bridges hold does not depend on the order in which they hold it. -/
theorem held_of_perm (size : v.bridges.size = w.bridges.size)
    (retained : ∀ slot, (retainedIn (v.anyBridge? slot)).Perm (retainedIn (w.anyBridge? slot)))
    (o : ObjectId) : v.heldByBridges o = w.heldByBridges o :=
  Nat.le_antisymm (held_le size fun slot => ((retained slot).count_eq o).le)
    (held_le size.symm fun slot => ((retained slot).count_eq o).ge)

namespace Reordered

theorem refl (w : World) : w.Reordered w :=
  ⟨rfl, rfl, fun _ => rfl, fun _ => rfl, fun _ => rfl, fun _ => rfl, fun _ => .rfl,
    fun _ => .refl _, fun _ => .rfl, fun _ => .refl _⟩

theorem symm (h : w.Reordered v) : v.Reordered w where
  outside := h.outside.symm
  bridges := h.bridges.symm
  cls o := (h.cls o).symm
  borrow o := (h.borrow o).symm
  alive o := (h.alive o).symm
  refs o := (h.refs o).symm
  payload o := (h.payload o).symm
  carried o := (h.carried o).symm
  closed slot := (h.closed slot).symm
  retained slot := (h.retained slot).symm

theorem counted (h : w.Reordered v) (o : ObjectId) :
    (v.object o).counted = (w.object o).counted := by
  rw [ObjectCell.counted, ObjectCell.counted, h.cls, h.alive]

theorem held (h : w.Reordered v) (o : ObjectId) : v.heldByBridges o = w.heldByBridges o :=
  held_of_perm h.bridges h.retained o

theorem kept (h : w.Reordered v) (kept : w.Kept) : v.Kept := by
  intro o some
  rw [h.outside]
  exact kept o fun none => some ((h.payload o).mpr none)

end Reordered

theorem Wanes.kept (h : w.Wanes w') (kept : w.Kept) : w'.Kept := by
  intro o some
  rw [h.outside]
  exact kept o fun none => some (h.bare none)

/-! ## On the way -/

/-- A world on the way from `v`, with duties left to do, as seen from the world `w'` in which
another way has ended. -/
structure Toward (w' v x : World) (pending : List Duty) : Prop where
  wanes : v.Wanes x
  /-- What is lost so far is lost there. -/
  dead : ∀ o, (x.object o).alive = false → (w'.object o).alive = false
  bare : ∀ o, (x.object o).payload = none → (w'.object o).payload = none
  closed : ∀ slot, x.anyBridge? slot = none → w'.anyBridge? slot = none
  /-- What is left to be given back to an object that survives there makes up the difference. -/
  level : ∀ o, (w'.object o).counted = true →
    (x.object o).refs + w'.heldByBridges o = (w'.object o).refs + x.owed pending o
  /-- Its count there is not zero, unless nothing is given back to it. -/
  room : ∀ o, (w'.object o).counted = true →
    1 ≤ (w'.object o).refs ∨ x.owed pending o ≤ w'.heldByBridges o

/-! ### Steps -/

theorem Toward.dropReference (t : Toward w' v x (.giveBack o :: rest))
    (more : ¬ (x.object o).refs ≤ 1) :
    Toward w' v (x.updateObject o ObjectCell.dropReference) rest := by
  have read := fun p => object_updateObject (w := x) (o := o) (f := ObjectCell.dropReference) rfl p
  have owed : ∀ p, (x.updateObject o ObjectCell.dropReference).owed rest p = x.owed rest p :=
    fun _ => rfl
  refine
    { wanes := t.wanes.trans (wanes_dropReference x o)
      dead := fun p dead => t.dead p ?_
      bare := fun p none => t.bare p ?_
      closed := t.closed
      level := fun p survives => ?_
      room := fun p survives => ?_ }
  · rw [read] at dead
    split at dead <;> exact dead
  · rw [read] at none
    split at none <;> exact none
  · have level := t.level p survives
    rw [owed_cons] at level
    rw [read, owed]
    by_cases here : p = o
    · subst here
      have fewer : (x.object p).dropReference.refs = (x.object p).refs - 1 := rfl
      rw [if_pos rfl] at level ⊢
      omega
    · rw [if_neg here] at level ⊢
      exact level
  · have room := t.room p survives
    rw [owed_cons] at room
    rw [owed]
    omega

/-- A duty of which nothing comes. -/
theorem Toward.skip {duty : Duty} (t : Toward w' v x (duty :: rest))
    (owed : ∀ p, (w'.object p).counted = true → x.owed (duty :: rest) p = x.owed rest p) :
    Toward w' v x rest where
  wanes := t.wanes
  dead := t.dead
  bare := t.bare
  closed := t.closed
  level p survives := owed p survives ▸ t.level p survives
  room p survives := owed p survives ▸ t.room p survives

/-- Of what is kept only containers are demolished. -/
theorem Toward.not_object {u : Variant} (t : Toward w' v x pending) (kept : v.Kept)
    (goes : x.isIntact u = true ∧ x.isHeld rest u = false) (p : ObjectId) : u ≠ .object p := by
  rintro rfl
  have some : (x.object p).payload ≠ none := by
    intro none
    have intact : (x.object p).payload.isSome = true := goes.1
    rw [none] at intact
    cases intact
  exact not_mem_outside_of_isHeld goes.2 (t.wanes.kept kept p some)

/-! ### What dies -/

section Toward

variable {duties : List Duty} {released freed : List ObjectId}
  (c : Cascade w duties released freed w') (same : w.Reordered v)

include c same

/-- At the start of the way. -/
theorem toward_start (addressed : ∀ o, pending.count (.giveBack o) = duties.count (.giveBack o)) :
    Toward w' v v pending := by
  have owed : ∀ o, v.owed pending o = w.owed duties o := by
    intro o
    rw [World.owed, World.owed, same.held, addressed]
  refine
    { wanes := .refl v
      dead := fun o dead => c.wanes.dead ((same.alive o).symm.trans dead)
      bare := fun o none => c.wanes.bare ((same.payload o).mp none)
      closed := fun slot none => c.wanes.closed ((same.closed slot).mp none)
      level := fun o counted => ?_
      room := fun o counted => ?_ }
  · have ledger := c.ledger o
    have refs := (c.refs_of_counted counted).1
    rw [same.refs, owed]
    omega
  · have ledger := c.ledger o
    obtain ⟨refs, positive⟩ := c.refs_of_counted counted
    rw [owed]
    omega

/-- The bridges that are open at the end hold no more there than on the way. -/
theorem Toward.held_le (t : Toward w' v x pending) (o : ObjectId) :
    w'.heldByBridges o ≤ x.heldByBridges o := by
  have size : w'.bridges.size = x.bridges.size := by
    rw [c.wanes.bridges, t.wanes.bridges, same.bridges]
  refine World.held_le size fun slot => ?_
  rcases c.wanes.entry slot with none | kept
  · simp [none, retainedIn]
  · rcases t.wanes.entry slot with lost | open'
    · simp [t.closed slot lost, retainedIn]
    · rw [kept, open']
      exact ((same.retained slot).count_eq o).ge

/-- What counts at the end counts on the way. -/
theorem Toward.counted (t : Toward w' v x pending) (h : (w'.object o).counted = true) :
    (x.object o).counted = true := by
  obtain ⟨refcounted, alive⟩ := Bool.and_eq_true_iff.mp h
  refine Bool.and_eq_true_iff.mpr ⟨?_, ?_⟩
  · rwa [t.wanes.cls, same.cls, ← c.wanes.cls]
  · by_contra dead
    rw [t.dead o (Bool.not_eq_true _ ▸ dead)] at alive
    cases alive

/-- **What dies on the way is dead at the end.** -/
theorem Toward.dies (t : Toward w' v x (.giveBack o :: rest))
    (counted : (x.object o).counted = true) (last : (x.object o).refs ≤ 1) :
    (w'.object o).alive = false := by
  by_contra alive
  have survives : (w'.object o).counted = true := by
    refine Bool.and_eq_true_iff.mpr ⟨?_, by simpa using alive⟩
    have refcounted := (Bool.and_eq_true_iff.mp counted).1
    rwa [t.wanes.cls, same.cls, ← c.wanes.cls] at refcounted
  have level := t.level o survives
  have room := t.room o survives
  have held := t.held_le c same o
  have owed : x.owed (.giveBack o :: rest) o =
      x.heldByBridges o + rest.count (.giveBack o) + 1 := by
    rw [owed_cons, if_pos rfl, World.owed]
  omega

/-- A bridge in a payload that is gone at the end was in it on the other way as well. -/
theorem Toward.closes (t : Toward w' v x pending) (bare : (w'.object o).payload = none)
    {q : Payload} (carries : (x.object o).payload = some q) {f : Field} (mem : f ∈ q.fields) :
    w'.anyBridge? f.target.ref.slot = none := by
  have carried : f ∈ w.carried o :=
    (same.carried o).mem_iff.mp (mem_carried.mpr ⟨q, t.wanes.had carries, mem⟩)
  obtain ⟨q', carries', mem'⟩ := mem_carried.mp carried
  exact c.wanes.closes o q' carries' bare f mem'

/-- A death on the way. -/
theorem Toward.kill (t : Toward w' v x (.giveBack o :: rest))
    (counted : (x.object o).counted = true) (last : (x.object o).refs ≤ 1) :
    Toward w' v (x.kill o).1 ((x.kill o).2 ++ rest) := by
  have dies := t.dies c same counted last
  have lives := (Bool.and_eq_true_iff.mp counted).2
  have owed : ∀ p, p ≠ o →
      (x.kill o).1.owed ((x.kill o).2 ++ rest) p = x.owed (.giveBack o :: rest) p := by
    intro p other
    have killed := held_kill x o p
    rw [owed_cons, if_neg other, World.owed, World.owed, List.count_append]
    omega
  have other : ∀ p, (w'.object p).counted = true → p ≠ o := by
    rintro p survives rfl
    rw [ObjectCell.counted, dies, Bool.and_false] at survives
    cases survives
  have bare : (x.object o).borrow = .idle → (w'.object o).payload = none := by
    intro idle
    rw [t.wanes.borrow, same.borrow] at idle
    refine c.wanes.dies o ?_ dies idle
    rw [← same.alive]
    exact t.wanes.alive o lives
  refine
    { wanes := t.wanes.trans (wanes_kill lives)
      dead := fun p dead => ?_
      bare := fun p none => ?_
      closed := fun slot none => ?_
      level := fun p survives => ?_
      room := fun p survives => ?_ }
  · rw [object_kill] at dead
    split at dead
    · rename_i here
      rw [here]
      exact dies
    · exact t.dead p dead
  · rw [object_kill] at none
    split at none
    · rename_i here
      subst here
      by_cases idle : (x.object p).borrow = .idle
      · exact bare idle
      · exact t.bare p ((if_neg idle).symm.trans none)
    · exact t.bare p none
  · rw [anyBridge?_kill] at none
    split at none
    · rename_i inside
      obtain ⟨idle, q, carries, f, mem, rfl⟩ := inside
      exact t.closes c same (bare idle) carries mem
    · exact t.closed slot none
  · have level := t.level p survives
    rwa [object_kill, if_neg (other p survives), owed p (other p survives)]
  · have room := t.room p survives
    rwa [owed p (other p survives)]

/-- What is demolished on the way, where no object is whose payload is not gone at the end. -/
theorem Toward.demolish {u : Variant} (t : Toward w' v x (.letGo u :: rest))
    (goes : x.isIntact u = true ∧ x.isHeld rest u = false)
    (gone : ∀ p, u = .object p → (w'.object p).payload = none) :
    Toward w' v (x.demolish u).1 ((x.demolish u).2 ++ rest) := by
  have owed : ∀ p, (x.demolish u).1.owed ((x.demolish u).2 ++ rest) p =
      x.owed (.letGo u :: rest) p := by
    intro p
    have ruins := held_demolish x u p
    rw [owed_cons_letGo, World.owed, World.owed, List.count_append]
    omega
  have cell : ∀ p, ((x.demolish u).1.object p).alive = (x.object p).alive ∧
      ((x.demolish u).1.object p).refs = (x.object p).refs := by
    intro p
    obtain ⟨_, same⟩ := object_demolish x u p
    rw [same]
    exact ⟨rfl, rfl⟩
  refine
    { wanes := t.wanes.trans (wanes_demolish (not_mem_outside_of_isHeld goes.2))
      dead := fun p dead => t.dead p ((cell p).1 ▸ dead)
      bare := fun p none => ?_
      closed := fun slot none => ?_
      level := fun p survives => ?_
      room := fun p survives => owed p ▸ t.room p survives }
  · cases u with
    | object q =>
      rw [World.demolish, object_dropPayload] at none
      split at none
      · rename_i here
        exact gone p (here ▸ rfl)
      · exact t.bare p none
    | _ => exact t.bare p none
  · cases u with
    | object q =>
      rw [World.demolish, anyBridge?_dropPayload] at none
      split at none
      · rename_i inside
        obtain ⟨p, carries, f, mem, rfl⟩ := inside
        exact t.closes c same (gone q rfl) carries mem
      · exact t.closed slot none
    | _ => exact t.closed slot none
  · rw [owed, (cell p).2]
    exact t.level p survives

/-- **The whole way.** -/
theorem Toward.cascade {given gone : List ObjectId} (way : Cascade x pending given gone x')
    (kept : v.Kept) (t : Toward w' v x pending) : Toward w' v x' [] := by
  induction way with
  | done x => exact t
  | frees counted last _ ih => exact ih (t.kill c same counted last)
  | counts _ more _ ih => exact ih (t.dropReference more)
  | @ignores x x' o rest _ _ uncounted _ ih =>
    refine ih (t.skip fun p survives => ?_)
    have other : p ≠ o := by
      rintro rfl
      exact uncounted (t.counted c same survives)
    rw [owed_cons, if_neg other, Nat.add_zero]
  | demolishes goes _ ih =>
    exact ih (t.demolish c same goes fun p here => absurd here (t.not_object kept goes p))
  | spares _ _ ih => exact ih (t.skip fun p _ => owed_cons_letGo ..)

end Toward

/-! ## The two ends -/

/-- **Two ways that end at each other's end** end alike. -/
theorem Reordered.of_toward (same : w.Reordered v) {duties duties' : List Duty}
    {released freed released' freed' : List ObjectId} (c : Cascade w duties released freed w')
    (c' : Cascade v duties' released' freed' v') (there : Toward w' v v' [])
    (back : Toward v' w w' []) : w'.Reordered v' := by
  have alive : ∀ o, (v'.object o).alive = (w'.object o).alive := by
    intro o
    cases h : (w'.object o).alive with
    | false => exact back.dead o h
    | true =>
      by_contra dead
      rw [there.dead o (by simpa using dead)] at h
      cases h
  have closed : ∀ slot, v'.anyBridge? slot = none ↔ w'.anyBridge? slot = none :=
    fun slot => ⟨there.closed slot, back.closed slot⟩
  have payload : ∀ o, (v'.object o).payload = none ↔ (w'.object o).payload = none :=
    fun o => ⟨there.bare o, back.bare o⟩
  have cls : ∀ o, (v'.object o).cls = (w'.object o).cls := by
    intro o
    rw [c'.wanes.cls, same.cls, c.wanes.cls]
  have retained : ∀ slot, (retainedIn (v'.anyBridge? slot)).Perm
      (retainedIn (w'.anyBridge? slot)) := by
    intro slot
    rcases c'.wanes.entry slot with none | kept
    · rw [none, (closed slot).mp none]
    · rcases c.wanes.entry slot with none | kept'
      · rw [none, (closed slot).mpr none]
      · rw [kept, kept']
        exact same.retained slot
  have bridges : v'.bridges.size = w'.bridges.size := by
    rw [c'.wanes.bridges, same.bridges, c.wanes.bridges]
  refine
    { outside := by rw [c'.wanes.outside, same.outside, c.wanes.outside]
      bridges, cls, alive, payload, closed, retained
      borrow := fun o => by rw [c'.wanes.borrow, same.borrow, c.wanes.borrow]
      refs := fun o => ?_
      carried := fun o => ?_ }
  · by_cases survives : (w'.object o).counted = true
    · have level := there.level o survives
      have held := held_of_perm bridges retained o
      have owed : v'.owed [] o = v'.heldByBridges o := rfl
      omega
    · by_cases counted : (w.object o).counted = true
      · obtain ⟨refcounted, lives⟩ := Bool.and_eq_true_iff.mp counted
        have dead : (w'.object o).alive = false := by
          rw [← c.wanes.cls] at refcounted
          simpa [ObjectCell.counted, refcounted] using survives
        rw [c.refs_of_freed ((c.mem_freed_iff o).mpr ⟨lives, dead⟩), c'.refs_of_freed
          ((c'.mem_freed_iff o).mpr ⟨(same.alive o).trans lives, (alive o).trans dead⟩)]
      · rw [c.refs_of_uncounted counted, c'.refs_of_uncounted (by rwa [same.counted]), same.refs]
  · rcases c.wanes.payload o with none | stays
    · simp [none, (payload o).mpr none]
    · rcases c'.wanes.payload o with none | stays'
      · simp [none, (payload o).mp none]
      · rw [World.carried, World.carried, stays, stays']
        exact same.carried o

/-- **The order of giving back makes no difference.** -/
theorem Reordered.perform (same : w.Reordered v) (kept : w.Kept) {duties duties' : List Duty}
    (addressed : ∀ o, duties'.count (.giveBack o) = duties.count (.giveBack o)) :
    (w.perform duties).Reordered (v.perform duties') := by
  obtain ⟨_, _, c⟩ := exists_cascade w duties
  obtain ⟨_, _, c'⟩ := exists_cascade v duties'
  have there : Toward (w.perform duties) v (v.perform duties') [] :=
    (toward_start c same addressed).cascade c same c' (same.kept kept)
  have back : Toward (v.perform duties') w (w.perform duties) [] :=
    (toward_start c' same.symm fun o => (addressed o).symm).cascade c' same.symm c kept
  exact same.of_toward c c' there back

end World

end ArrayBridge
