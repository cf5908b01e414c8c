import Mathlib.Algebra.GroupWithZero.Nat
import Mathlib.Algebra.Order.Group.Nat
import Mathlib.Algebra.Order.BigOperators.Group.List
import ArrayBridge.Proofs.World.Ledger

/-!
# Cascades

How a list of duties is done, step by step: `World.Cascade` has one rule for each thing that can be
done with the first duty, and tells which references were given back on the way and which objects
were freed. A cascade is a finite derivation, so that there is one from every world and every list
(`exists_cascade`) says that giving back always comes to an end.

**What is told of a cascade** is proved by induction on it, one law at a time: nothing is freed
twice, what is given back is what was to be given back and what the closed bridges held, and a count
that survives has gone down by what was given back to it.
-/

namespace ArrayBridge

namespace World

/-! ## What bridges hold -/

/-- All entries of the bridges, in their places. -/
theorem toList_bridges (w : World) :
    w.bridges.toList = (List.range w.bridges.size).map w.anyBridge? := by
  refine List.ext_getElem (by simp) fun slot inside _ => ?_
  have known : slot < w.bridges.size := by simpa using inside
  simp [anyBridge?, Array.getD, known]

theorem held_eq_sum (w : World) (o : ObjectId) : w.heldByBridges o =
    ((List.range w.bridges.size).map fun slot => (retainedIn (w.anyBridge? slot)).count o).sum := by
  rw [heldByBridges, toList_bridges, List.count_flatMap, List.map_map]
  rfl

/-- Where every entry holds no more, all hold no more. -/
theorem held_le {w w' : World} {o : ObjectId} (size : w'.bridges.size = w.bridges.size)
    (entries : ∀ slot, (retainedIn (w'.anyBridge? slot)).count o ≤
      (retainedIn (w.anyBridge? slot)).count o) : w'.heldByBridges o ≤ w.heldByBridges o := by
  rw [held_eq_sum, held_eq_sum, size]
  exact List.sum_le_sum fun slot _ => entries slot

/-- The references of the bridges that are there in the first world and not in the second. -/
def lostTo (w w' : World) : List ObjectId :=
  (List.range w.bridges.size).flatMap fun slot =>
    if w'.anyBridge? slot = none then retainedIn (w.anyBridge? slot) else []

/-- What bridges hold is what the open ones hold and what the closed ones held. -/
theorem held_eq_lostTo {w w' : World} (size : w'.bridges.size = w.bridges.size)
    (entries : ∀ slot, w'.anyBridge? slot = none ∨ w'.anyBridge? slot = w.anyBridge? slot)
    (o : ObjectId) : w.heldByBridges o = w'.heldByBridges o + (w.lostTo w').count o := by
  rw [lostTo, List.count_flatMap, held_eq_sum, held_eq_sum, size, ← List.sum_map_add]
  refine congrArg List.sum (List.map_congr_left fun slot _ => ?_)
  rcases entries slot with closed | same
  · simp [closed, retainedIn]
  · cases entry : w.anyBridge? slot <;> simp [same, entry, retainedIn]

/-- Of an object that is demolished only the payload goes. -/
theorem object_demolish (w : World) (v : Variant) (p : ObjectId) :
    ∃ payload, (w.demolish v).1.object p = { w.object p with payload } := by
  cases v with
  | object o =>
    rw [demolish, object_dropPayload]
    split
    · exact ⟨none, rfl⟩
    · exact ⟨_, rfl⟩
  | _ => exact ⟨_, rfl⟩

/-! ## Step by step -/

/-- **Cascades**: the first world, the duties, the references that were given back, the objects that
were freed, both in order, and the last world. -/
inductive Cascade : World → List Duty → List ObjectId → List ObjectId → World → Prop where
  | done (w : World) : Cascade w [] [] [] w
  /-- The last reference frees the object. -/
  | frees {w w' : World} {o : ObjectId} {rest : List Duty} {released freed : List ObjectId}
    (counted : (w.object o).counted = true) (last : (w.object o).refs ≤ 1)
    (next : Cascade (w.kill o).1 ((w.kill o).2 ++ rest) released freed w') :
    Cascade w (.giveBack o :: rest) (o :: released) (o :: freed) w'
  /-- Any other reference is counted off. -/
  | counts {w w' : World} {o : ObjectId} {rest : List Duty} {released freed : List ObjectId}
    (counted : (w.object o).counted = true) (more : ¬ (w.object o).refs ≤ 1)
    (next : Cascade (w.updateObject o ObjectCell.dropReference) rest released freed w') :
    Cascade w (.giveBack o :: rest) (o :: released) freed w'
  /-- A dead object, or one that does not count, is given nothing. -/
  | ignores {w w' : World} {o : ObjectId} {rest : List Duty} {released freed : List ObjectId}
    (uncounted : ¬ (w.object o).counted = true) (next : Cascade w rest released freed w') :
    Cascade w (.giveBack o :: rest) (o :: released) freed w'
  /-- The last handle takes with it what is left. -/
  | demolishes {w w' : World} {v : Variant} {rest : List Duty} {released freed : List ObjectId}
    (goes : w.isIntact v = true ∧ w.isHeld rest v = false)
    (next : Cascade (w.demolish v).1 ((w.demolish v).2 ++ rest) released freed w') :
    Cascade w (.letGo v :: rest) released freed w'
  | spares {w w' : World} {v : Variant} {rest : List Duty} {released freed : List ObjectId}
    (stays : ¬ (w.isIntact v = true ∧ w.isHeld rest v = false))
    (next : Cascade w rest released freed w') : Cascade w (.letGo v :: rest) released freed w'

/-- **Giving back comes to an end**, whatever is retained by whatever. -/
theorem exists_cascade (w : World) (pending : List Duty) :
    ∃ released freed, Cascade w pending released freed (w.perform pending) := by
  induction w, pending using perform.induct with
  | case1 w =>
    rw [perform]
    exact ⟨_, _, .done w⟩
  | case2 w o rest counted last killed ih =>
    rw [perform, dif_pos counted, if_pos last]
    obtain ⟨_, _, next⟩ := ih
    exact ⟨_, _, .frees counted last next⟩
  | case3 w o rest counted more ih =>
    rw [perform, dif_pos counted, if_neg more]
    obtain ⟨_, _, next⟩ := ih
    exact ⟨_, _, .counts counted more next⟩
  | case4 w o rest uncounted ih =>
    rw [perform, dif_neg uncounted]
    obtain ⟨_, _, next⟩ := ih
    exact ⟨_, _, .ignores uncounted next⟩
  | case5 w v rest goes ruins ih =>
    rw [perform, dif_pos goes]
    obtain ⟨_, _, next⟩ := ih
    exact ⟨_, _, .demolishes goes next⟩
  | case6 w v rest stays ih =>
    rw [perform, dif_neg stays]
    obtain ⟨_, _, next⟩ := ih
    exact ⟨_, _, .spares stays next⟩

namespace Cascade

variable {w w' : World} {pending : List Duty} {released freed : List ObjectId}

theorem eq_perform (c : Cascade w pending released freed w') : w' = w.perform pending := by
  induction c with
  | done w => rw [perform]
  | frees counted last _ ih => rw [perform, dif_pos counted, if_pos last, ih]
  | counts counted more _ ih => rw [perform, dif_pos counted, if_neg more, ih]
  | ignores uncounted _ ih => rw [perform, dif_neg uncounted, ih]
  | demolishes goes _ ih => rw [perform, dif_pos goes, ih]
  | spares stays _ ih => rw [perform, dif_neg stays, ih]

theorem wanes (c : Cascade w pending released freed w') : w.Wanes w' := by
  rw [c.eq_perform]
  exact wanes_perform w pending

/-- One reference more among those given back. -/
theorem count_release (o p : ObjectId) (released : List ObjectId) :
    (o :: released).count p = released.count p + if p = o then 1 else 0 := by
  by_cases here : p = o
  · subst here
    simp
  · simp [here, Ne.symm here]

/-- **Everything owed is given back once**, but for what is held in the end. -/
theorem ledger (c : Cascade w pending released freed w') (p : ObjectId) :
    released.count p + w'.heldByBridges p = w.owed pending p := by
  induction c with
  | done w => simp [owed]
  | @frees w w' o rest _ _ _ _ _ ih =>
    have killed := held_kill w o p
    rw [owed, List.count_append] at ih
    rw [owed_cons, count_release, owed]
    omega
  | @counts w w' o rest _ _ _ _ _ ih =>
    have same : (w.updateObject o ObjectCell.dropReference).owed rest p = w.owed rest p := rfl
    rw [owed_cons, count_release, ← same, ← ih]
    omega
  | ignores _ _ ih =>
    rw [owed_cons, count_release, ← ih]
    omega
  | @demolishes w w' v rest _ _ _ _ ih =>
    have ruins := held_demolish w v p
    rw [owed, List.count_append] at ih
    rw [owed_cons_letGo, owed]
    omega
  | spares _ _ ih =>
    rw [owed_cons_letGo]
    exact ih

/-- **What is freed has lived, and is dead in the end.** -/
theorem mem_freed_iff (c : Cascade w pending released freed w') (p : ObjectId) :
    p ∈ freed ↔ (w.object p).alive = true ∧ (w'.object p).alive = false := by
  induction c with
  | done w => simp
  | @frees w w' o rest _ _ counted _ next ih =>
    rw [List.mem_cons, ih, object_kill]
    by_cases here : p = o
    · subst here
      have dead : ((w.kill p).1.object p).alive = false := by
        rw [object_kill, if_pos rfl]
        rfl
      simp [(Bool.and_eq_true_iff.mp counted).2, next.wanes.dead dead]
    · simp [here]
  | @counts w w' o rest _ _ _ _ _ ih =>
    have same : ((w.updateObject o ObjectCell.dropReference).object p).alive =
        (w.object p).alive := by
      rw [object_updateObject rfl]
      split <;> rfl
    rw [ih, same]
  | ignores _ _ ih => exact ih
  | @demolishes w w' v rest _ _ _ _ ih =>
    obtain ⟨_, same⟩ := object_demolish w v p
    rw [ih, same]
  | spares _ _ ih => exact ih

/-- **Nothing is freed twice.** -/
theorem nodup_freed (c : Cascade w pending released freed w') : freed.Nodup := by
  induction c with
  | done w => exact .nil
  | @frees w w' o rest _ _ counted _ next ih =>
    refine List.nodup_cons.mpr ⟨fun again => ?_, ih⟩
    have lives := ((next.mem_freed_iff o).mp again).1
    rw [object_kill, if_pos rfl] at lives
    cases lives
  | counts _ _ _ ih => exact ih
  | ignores _ _ ih => exact ih
  | demolishes _ _ ih => exact ih
  | spares _ _ ih => exact ih

/-! ### Counts -/

/-- An object that counts in the end has counted all the time. -/
theorem counted_of_counted (c : Cascade w pending released freed w') {p : ObjectId}
    (h : (w'.object p).counted = true) : (w.object p).counted = true := by
  obtain ⟨refcounted, alive⟩ := Bool.and_eq_true_iff.mp h
  rw [c.wanes.cls] at refcounted
  exact Bool.and_eq_true_iff.mpr ⟨refcounted, c.wanes.alive p alive⟩

/-- **A count that survives has gone down by what was given back.** It does not reach zero. -/
theorem refs_of_counted (c : Cascade w pending released freed w') {p : ObjectId}
    (h : (w'.object p).counted = true) :
    (w.object p).refs = (w'.object p).refs + released.count p ∧
      (1 ≤ (w.object p).refs → 1 ≤ (w'.object p).refs) := by
  induction c with
  | done w => exact ⟨rfl, id⟩
  | @frees w w' o rest _ _ counted _ next ih =>
    obtain ⟨refs, positive⟩ := ih h
    have other : p ≠ o := by
      rintro rfl
      have lives := Bool.and_eq_true_iff.mp (next.counted_of_counted h)
      rw [object_kill, if_pos rfl] at lives
      cases lives.2
    rw [object_kill, if_neg other] at refs positive
    rw [count_release, if_neg other]
    exact ⟨refs, positive⟩
  | @counts w w' o rest _ _ counted more next ih =>
    obtain ⟨refs, positive⟩ := ih h
    rw [object_updateObject rfl] at refs positive
    rw [count_release]
    by_cases here : p = o
    · subst here
      rw [if_pos rfl] at refs positive ⊢
      have fewer : (w.object p).dropReference.refs = (w.object p).refs - 1 := rfl
      omega
    · rw [if_neg here] at refs positive ⊢
      exact ⟨refs, positive⟩
  | @ignores w w' o rest _ _ uncounted next ih =>
    have other : p ≠ o := by
      rintro rfl
      exact uncounted (next.counted_of_counted h)
    rw [count_release, if_neg other]
    exact ih h
  | @demolishes w w' v rest _ _ _ _ ih =>
    obtain ⟨_, same⟩ := object_demolish w v p
    rw [same] at ih
    exact ih h
  | spares _ _ ih => exact ih h

/-- An object that did not count keeps its number. -/
theorem refs_of_uncounted (c : Cascade w pending released freed w') {p : ObjectId}
    (h : ¬ (w.object p).counted = true) : (w'.object p).refs = (w.object p).refs := by
  induction c with
  | done w => rfl
  | @frees w w' o rest _ _ counted _ next ih =>
    have other : p ≠ o := by
      rintro rfl
      exact h counted
    rw [object_kill, if_neg other] at ih
    exact ih h
  | @counts w w' o rest _ _ counted _ next ih =>
    have other : p ≠ o := by
      rintro rfl
      exact h counted
    rw [object_updateObject rfl, if_neg other] at ih
    exact ih h
  | ignores _ _ ih => exact ih h
  | @demolishes w w' v rest _ _ _ _ ih =>
    obtain ⟨_, same⟩ := object_demolish w v p
    rw [same] at ih
    exact ih h
  | spares _ _ ih => exact ih h

/-- An object that was freed has no references. -/
theorem refs_of_freed (c : Cascade w pending released freed w') {p : ObjectId}
    (h : p ∈ freed) : (w'.object p).refs = 0 := by
  induction c with
  | done w => cases h
  | @frees w w' o rest _ _ _ _ next ih =>
    rcases List.mem_cons.mp h with rfl | later
    · have none : ¬ ((w.kill p).1.object p).counted = true := by
        rw [object_kill, if_pos rfl]
        simp [ObjectCell.counted, ObjectCell.killed]
      rw [next.refs_of_uncounted none, object_kill, if_pos rfl]
      rfl
    · exact ih later
  | counts _ _ _ ih => exact ih h
  | ignores _ _ ih => exact ih h
  | demolishes _ _ ih => exact ih h
  | spares _ _ ih => exact ih h

end Cascade

end World

end ArrayBridge
