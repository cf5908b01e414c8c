import ArrayBridge.Proofs.World.Waning

/-!
# The ledger of references

Who owns the references to an object: the first one came with it, the others were taken and given
back by hand, or are held by bridges. This module keeps the account through `World.perform`, where
references are given back in bulk, where giving one back may free an object, and where a freed
object closes bridges that have references of their own to give back.

**The account** (`World.Balanced`). References still to be given back count as owed, so a bridge
that is closed only moves what it holds from one side to the other, and the sum never changes. For
an object that lives, the count is that sum, and it is not zero.

**The dead.** An object on which nobody outside gave back more than he had, and which was not freed
by hand, has died only with its last reference, so nothing is owed to it any more.
-/

namespace ArrayBridge

namespace World

/-- What an entry of the bridges holds references on. A closed bridge holds none. -/
def retainedIn (entry : Option AnyBridge) : List ObjectId :=
  entry.elim [] fun b => b.bridge.retained

/-- The number of references that bridges hold on an object. -/
def heldByBridges (w : World) (o : ObjectId) : Nat :=
  (w.bridges.toList.flatMap retainedIn).count o

/-- The references that bridges hold, and those that are still to be given back. -/
def owed (w : World) (pending : List Duty) (o : ObjectId) : Nat :=
  w.heldByBridges o + pending.count (.giveBack o)

/-- **The account**: `taken` and `given` tell how many references were taken and given back by
hand. The objects that are `kept` were not freed by hand, and nobody gave back more than he had. -/
structure Balanced (w : World) (pending : List Duty) (taken given : ObjectId → Nat)
    (kept : ObjectId → Prop) : Prop where
  counts : ∀ o, (w.object o).counted = true →
    (w.object o).refs + given o = 1 + taken o + w.owed pending o
  positive : ∀ o, (w.object o).counted = true → 1 ≤ (w.object o).refs
  settled : ∀ o, (w.object o).alive = false → kept o → w.owed pending o = 0

/-- A reference that is still to be given back is owed. -/
theorem owed_cons (w : World) (o p : ObjectId) (rest : List Duty) :
    w.owed (.giveBack o :: rest) p = w.owed rest p + if p = o then 1 else 0 := by
  rw [owed, owed, List.count_cons]
  by_cases h : p = o
  · subst h
    simp [Nat.add_assoc]
  · simp [h, Ne.symm h]

/-- A handle that is still to be let go of is no reference. -/
theorem owed_cons_letGo (w : World) (v : Variant) (p : ObjectId) (rest : List Duty) :
    w.owed (.letGo v :: rest) p = w.owed rest p := by
  rw [owed, owed, List.count_cons]
  simp

/-! ## Counting -/

@[simp] theorem count_givingBack (held : List ObjectId) (o : ObjectId) :
    (Duty.givingBack held).count (.giveBack o) = held.count o := by
  induction held with
  | nil => rfl
  | cons p rest ih =>
    have step : Duty.givingBack (p :: rest) =
        .giveBack p :: .letGo (.object p) :: Duty.givingBack rest := rfl
    rw [step, List.count_cons, List.count_cons, ih, List.count_cons]
    by_cases h : p = o
    · subst h
      simp
    · simp [h]

@[simp] theorem count_lettingGo (handles : List Variant) (o : ObjectId) :
    (Duty.lettingGo handles).count (.giveBack o) = 0 := by
  rw [List.count_eq_zero]
  intro h
  obtain ⟨v, _, hv⟩ := List.mem_map.mp h
  cases hv

/-- A bridge that is closed has to give back what it holds. -/
theorem count_duties (b : AnyBridge) (o : ObjectId) :
    b.duties.count (.giveBack o) = (retainedIn (some b)).count o := by
  simp [AnyBridge.duties, retainedIn]

/-- A change in one place changes the number by what that place holds. -/
theorem count_flatMap_set {α : Type} (f : α → List ObjectId) {entries : List α} {i : Nat} {old : α}
    (new : α) (h : entries[i]? = some old) (o : ObjectId) :
    ((entries.set i new).flatMap f).count o + (f old).count o =
      (entries.flatMap f).count o + (f new).count o := by
  induction entries generalizing i with
  | nil => cases h
  | cons entry rest ih =>
    cases i with
    | zero =>
      obtain rfl : entry = old := by simpa using h
      simp only [List.set_cons_zero, List.flatMap_cons, List.count_append]
      omega
    | succ i =>
      have := ih (i := i) (by simpa using h)
      simp only [List.set_cons_succ, List.flatMap_cons, List.count_append]
      omega

theorem getElem?_of_anyBridge? {w : World} {slot : Nat} {b : AnyBridge}
    (h : w.anyBridge? slot = some b) : w.bridges.toList[slot]? = some (some b) := by
  have hs := lt_of_anyBridge? h
  simp only [anyBridge?, Array.getD, hs, dif_pos] at h
  rw [Array.getElem?_toList, Array.getElem?_eq_getElem hs]
  exact congrArg some h

/-- Another bridge in the place of one holds its own references instead. -/
theorem held_setBridge {w : World} {T : ElementType} {r : BridgeRef T} {b : Bridge T}
    (b' : Bridge T) (h : w.bridge? r = some b) (o : ObjectId) :
    (w.setBridge r b').heldByBridges o + b.retained.count o =
      w.heldByBridges o + b'.retained.count o := by
  have place := getElem?_of_anyBridge? (bridge?_eq_some_iff.mp h)
  simp only [heldByBridges, setBridge, Array.toList_setIfInBounds]
  exact count_flatMap_set retainedIn (some ⟨T, b'⟩) place o

/-- Closing a bridge leaves the sum of what is held and what is to be given back. -/
theorem held_closeBridge (w : World) (slot : Nat) (o : ObjectId) :
    (w.closeBridge slot).1.heldByBridges o + (w.closeBridge slot).2.count (.giveBack o) =
      w.heldByBridges o := by
  unfold closeBridge
  split
  · rename_i b hb
    have here : w.anyBridge? slot = some b := hb
    have place := getElem?_of_anyBridge? here
    simp only [count_duties, heldByBridges, Array.toList_setIfInBounds]
    exact count_flatMap_set retainedIn none place o
  · rfl

theorem held_closeFields (w : World) (fields : List Field) (o : ObjectId) :
    (w.closeFields fields).1.heldByBridges o + (w.closeFields fields).2.count (.giveBack o) =
      w.heldByBridges o := by
  induction fields generalizing w with
  | nil => rfl
  | cons field rest ih =>
    have first := held_closeBridge w field.target.ref.slot o
    have others := ih (w.closeBridge field.target.ref.slot).1
    simp only [closeFields, List.count_append]
    omega

/-- What bridges hold does not depend on the objects. -/
theorem held_congr {w w' : World} (h : w'.bridges = w.bridges) (o : ObjectId) :
    w'.heldByBridges o = w.heldByBridges o := by
  unfold heldByBridges
  rw [h]

theorem held_dropPayload (w : World) (o p : ObjectId) :
    (w.dropPayload o).1.heldByBridges p + (w.dropPayload o).2.count (.giveBack p) =
      w.heldByBridges p := by
  unfold dropPayload
  split
  · exact held_closeFields _ _ p
  · rfl

theorem held_kill (w : World) (o p : ObjectId) :
    (w.kill o).1.heldByBridges p + (w.kill o).2.count (.giveBack p) = w.heldByBridges p := by
  rw [kill_eq]
  split
  · exact held_dropPayload (w.marked o) o p
  · rfl

theorem held_demolish (w : World) (v : Variant) (p : ObjectId) :
    (w.demolish v).1.heldByBridges p + (w.demolish v).2.count (.giveBack p) =
      w.heldByBridges p := by
  cases v with
  | object o => exact held_dropPayload w o p
  | array a =>
    simp only [demolish, count_lettingGo]
    rfl
  | _ => rfl

/-! ## Keeping the account -/

section Performing

variable {w : World} {taken given : ObjectId → Nat} {kept : ObjectId → Prop}

/-- The account of a world in which the objects have the same counts and as much is owed. -/
theorem Balanced.congr {w' : World} {pending pending' : List Duty}
    (h : w.Balanced pending taken given kept)
    (alive : ∀ o, (w'.object o).alive = (w.object o).alive)
    (counted : ∀ o, (w'.object o).counted = (w.object o).counted)
    (refs : ∀ o, (w'.object o).refs = (w.object o).refs)
    (owed : ∀ o, w'.owed pending' o = w.owed pending o) :
    w'.Balanced pending' taken given kept where
  counts o ho := by
    rw [refs, owed]
    exact h.counts o (by rw [← counted]; exact ho)
  positive o ho := by
    rw [refs]
    exact h.positive o (by rw [← counted]; exact ho)
  settled o ho hk := by
    rw [owed]
    exact h.settled o (by rw [← alive]; exact ho) hk

/-- A payload that goes leaves the account as it was. -/
theorem Balanced.dropPayload {rest : List Duty} (h : w.Balanced rest taken given kept)
    (o : ObjectId) :
    (w.dropPayload o).1.Balanced ((w.dropPayload o).2 ++ rest) taken given kept := by
  have read := object_dropPayload w o
  refine h.congr (fun p => ?_) (fun p => ?_) (fun p => ?_) fun p => ?_
  · rw [read]
    split <;> rfl
  · rw [read]
    split <;> rfl
  · rw [read]
    split <;> rfl
  · have := held_dropPayload w o p
    simp only [World.owed, List.count_append]
    omega

/-- What is demolished leaves the account as it was. -/
theorem Balanced.demolish {rest : List Duty} (h : w.Balanced rest taken given kept)
    (v : Variant) : (w.demolish v).1.Balanced ((w.demolish v).2 ++ rest) taken given kept := by
  cases v with
  | object o => exact h.dropPayload o
  | array a =>
    refine h.congr (fun _ => rfl) (fun _ => rfl) (fun _ => rfl) fun p => ?_
    have := held_demolish w (.array a) p
    simp only [World.owed, List.count_append]
    omega
  | _ => exact h

/-- A death leaves the account of all others as it was. For the dead itself there has to be nothing
owed if it is still to be kept. -/
theorem Balanced.kill {pending rest : List Duty} {kept' : ObjectId → Prop} {o : ObjectId}
    (h : w.Balanced pending taken given kept) (fewer : ∀ p, kept' p → kept p)
    (others : ∀ p, p ≠ o → w.owed rest p = w.owed pending p)
    (last : kept' o → w.owed rest o = 0) :
    (w.kill o).1.Balanced ((w.kill o).2 ++ rest) taken given kept' := by
  have read := object_kill w o
  have owed : ∀ p, (w.kill o).1.owed ((w.kill o).2 ++ rest) p = w.owed rest p := by
    intro p
    have := held_kill w o p
    simp only [World.owed, List.count_append]
    omega
  have other : ∀ p, ((w.kill o).1.object p).counted = true →
      p ≠ o ∧ (w.object p).counted = true := by
    intro p hp
    rw [read] at hp
    split at hp
    · exact absurd hp (by simp [ObjectCell.counted, ObjectCell.killed])
    · rename_i hne
      exact ⟨hne, hp⟩
  refine ⟨?_, ?_, ?_⟩
  · intro p hp
    obtain ⟨hne, hp⟩ := other p hp
    rw [owed, others p hne, read, if_neg hne]
    exact h.counts p hp
  · intro p hp
    obtain ⟨hne, hp⟩ := other p hp
    rw [read, if_neg hne]
    exact h.positive p hp
  · intro p dead hk
    rw [owed]
    by_cases hp : p = o
    · subst hp
      exact last hk
    · rw [read, if_neg hp] at dead
      rw [others p hp]
      exact h.settled p dead (fewer p hk)

/-- One reference less to give back, and one reference less. -/
theorem Balanced.dropReference {rest : List Duty} {o : ObjectId}
    (h : w.Balanced (.giveBack o :: rest) taken given kept)
    (counted : (w.object o).counted = true) (more : ¬ (w.object o).refs ≤ 1) :
    (w.updateObject o ObjectCell.dropReference).Balanced rest taken given kept := by
  have read := fun p => object_updateObject (w := w) (o := o) (f := ObjectCell.dropReference) rfl p
  have same : ∀ p, (w.updateObject o ObjectCell.dropReference).owed rest p = w.owed rest p :=
    fun p => rfl
  refine ⟨?_, ?_, ?_⟩
  · intro p hp
    rw [same, read]
    rw [read] at hp
    by_cases hpo : p = o
    · subst hpo
      have := h.counts p counted
      rw [owed_cons, if_pos rfl] at this
      rw [if_pos rfl, ObjectCell.dropReference]
      show (w.object p).refs - 1 + given p = 1 + taken p + w.owed rest p
      omega
    · rw [if_neg hpo] at hp ⊢
      have := h.counts p hp
      rwa [owed_cons, if_neg hpo] at this
  · intro p hp
    rw [read] at hp ⊢
    by_cases hpo : p = o
    · subst hpo
      rw [if_pos rfl, ObjectCell.dropReference]
      show 1 ≤ (w.object p).refs - 1
      omega
    · rw [if_neg hpo] at hp ⊢
      exact h.positive p hp
  · intro p dead hk
    rw [same]
    rw [read] at dead
    by_cases hpo : p = o
    · subst hpo
      rw [if_pos rfl] at dead
      have lives := (Bool.and_eq_true_iff.mp counted).2
      exact absurd (lives.symm.trans dead) (by decide)
    · rw [if_neg hpo] at dead
      have := h.settled p dead hk
      rwa [owed_cons, if_neg hpo] at this

/-- A reference to something that does not count is owed to nobody. -/
theorem Balanced.skip {rest : List Duty} {o : ObjectId}
    (h : w.Balanced (.giveBack o :: rest) taken given kept)
    (uncounted : ¬ (w.object o).counted = true) : w.Balanced rest taken given kept := by
  refine ⟨?_, h.positive, ?_⟩
  · intro p hp
    have hpo : p ≠ o := by
      rintro rfl
      exact uncounted hp
    have := h.counts p hp
    rwa [owed_cons, if_neg hpo] at this
  · intro p dead hk
    have := h.settled p dead hk
    rw [owed_cons] at this
    omega

/-- A handle to be let go of does not count. -/
theorem Balanced.forget {rest : List Duty} {v : Variant}
    (h : w.Balanced (.letGo v :: rest) taken given kept) : w.Balanced rest taken given kept :=
  h.congr (fun _ => rfl) (fun _ => rfl) (fun _ => rfl) fun p => (owed_cons_letGo w v p rest).symm

/-- **The account is kept while duties are done**: in the end nothing is left to be given back. -/
theorem Balanced.perform {pending : List Duty} (h : w.Balanced pending taken given kept)
    (careful : ∀ o, kept o → given o ≤ taken o + 1) :
    (w.perform pending).Balanced [] taken given kept := by
  induction w, pending using World.perform.induct with
  | case1 w =>
    rw [World.perform]
    exact h
  | case2 w o rest counted last killed ih =>
    rw [World.perform, dif_pos counted, if_pos last]
    refine ih (h.kill (fun _ hk => hk) (fun p hp => ?_) fun hk => ?_)
    · rw [owed_cons, if_neg hp, Nat.add_zero]
    -- the count was one, and one reference was owed: that is all, unless too many were given back
    · have sum := h.counts o counted
      have few := careful o hk
      rw [owed_cons, if_pos rfl] at sum
      omega
  | case3 w o rest counted last ih =>
    rw [World.perform, dif_pos counted, if_neg last]
    exact ih (h.dropReference counted last)
  | case4 w o rest counted ih =>
    rw [World.perform, dif_neg counted]
    exact ih (h.skip counted)
  | case5 w v rest goes ruins ih =>
    rw [World.perform, dif_pos goes]
    exact ih (h.forget.demolish v)
  | case6 w v rest stays ih =>
    rw [World.perform, dif_neg stays]
    exact ih h.forget

end Performing

/-! ## Taking references -/

theorem lt_of_alive {w : World} {o : ObjectId} (h : (w.object o).alive = true) :
    o.slot < w.objects.size := by
  rcases Nat.lt_or_ge o.slot w.objects.size with hs | hs
  · exact hs
  · simp [object, Array.getD, Nat.not_lt.mpr hs, default] at h

theorem lt_of_counted {w : World} {o : ObjectId} (h : (w.object o).counted = true) :
    o.slot < w.objects.size :=
  lt_of_alive (Bool.and_eq_true_iff.mp h).2

/-- A reference is taken where references are counted, and nothing else is changed. -/
theorem object_reference (w : World) (o p : ObjectId) :
    (w.reference o).1.object p =
      if p = o ∧ (w.object p).counted = true then (w.object p).addReference else w.object p := by
  unfold reference
  by_cases counted : (w.object o).counted = true
  · rw [if_pos counted]
    by_cases hp : p = o
    · subst hp
      simp [counted, lt_of_counted counted]
    · simp [hp]
  · rw [if_neg counted, if_neg]
    rintro ⟨rfl, h⟩
    exact counted h

/-- Taking a reference touches the table of the objects only. -/
@[simp] theorem reference_tables (w : World) (o : ObjectId) :
    (w.reference o).1.objects.size = w.objects.size ∧
      (w.reference o).1.containers = w.containers ∧ (w.reference o).1.bridges = w.bridges ∧
      (w.reference o).1.outside = w.outside := by
  unfold reference
  split
  · exact ⟨by simp [updateObject], rfl, rfl, rfl⟩
  · exact ⟨rfl, rfl, rfl, rfl⟩

@[simp] theorem referenceAll_tables (w : World) (objects : List ObjectId) :
    (w.referenceAll objects).1.objects.size = w.objects.size ∧
      (w.referenceAll objects).1.containers = w.containers ∧
      (w.referenceAll objects).1.bridges = w.bridges ∧
      (w.referenceAll objects).1.outside = w.outside := by
  induction objects generalizing w with
  | nil => exact ⟨rfl, rfl, rfl, rfl⟩
  | cons o rest ih =>
    obtain ⟨h₁, h₂, h₃, h₄⟩ := reference_tables w o
    obtain ⟨h₁', h₂', h₃', h₄'⟩ := ih (w.reference o).1
    exact ⟨h₁'.trans h₁, h₂'.trans h₂, h₃'.trans h₃, h₄'.trans h₄⟩

/-- Of an object only the count changes. -/
theorem object_referenceAll (w : World) (objects : List ObjectId) (p : ObjectId) :
    (w.referenceAll objects).1.object p =
      { w.object p with refs := ((w.referenceAll objects).1.object p).refs } := by
  induction objects generalizing w with
  | nil => rfl
  | cons o rest ih =>
    have first : ((w.reference o).1.object p) =
        { w.object p with refs := ((w.reference o).1.object p).refs } := by
      rw [object_reference]
      split <;> rfl
    have others := ih (w.reference o).1
    rw [first] at others
    exact others

@[simp] theorem counted_referenceAll (w : World) (objects : List ObjectId) (p : ObjectId) :
    ((w.referenceAll objects).1.object p).counted = (w.object p).counted := by
  rw [object_referenceAll]
  rfl

@[simp] theorem counted_reference (w : World) (o p : ObjectId) :
    ((w.reference o).1.object p).counted = (w.object p).counted := by
  rw [object_reference]
  split <;> rfl

/-- What is held afterwards are the objects that count their references. -/
theorem held_referenceAll (w : World) (objects : List ObjectId) :
    (w.referenceAll objects).2 = objects.filter fun o => (w.object o).counted := by
  induction objects generalizing w with
  | nil => rfl
  | cons o rest ih =>
    have same : (fun p => ((w.reference o).1.object p).counted) = fun p => (w.object p).counted :=
      funext (counted_reference w o)
    have taken : (w.reference o).2 = (w.object o).counted := by
      unfold reference
      split
      · rename_i h
        exact h.symm
      · rename_i h
        exact (Bool.not_eq_true _ ▸ h).symm
    rw [List.filter_cons, ← same, ← ih (w.reference o).1, ← taken]
    rfl

/-- A count that has reached its most stays there while references are taken. -/
theorem most_le_refs_referenceAll {w : World} {p : ObjectId} (objects : List ObjectId)
    (h : maxReferences ≤ (w.object p).refs) :
    maxReferences ≤ ((w.referenceAll objects).1.object p).refs := by
  induction objects generalizing w with
  | nil => exact h
  | cons o rest ih =>
    apply ih (w := (w.reference o).1)
    rw [object_reference]
    split
    · show maxReferences ≤ min ((w.object p).refs + 1) maxReferences
      omega
    · exact h

/-- As long as the most is not reached, every reference taken is counted. -/
theorem refs_referenceAll {w : World} {objects : List ObjectId} {p : ObjectId}
    (unsaturated : ((w.referenceAll objects).1.object p).refs < maxReferences) :
    ((w.referenceAll objects).1.object p).refs =
      (w.object p).refs + if (w.object p).counted = true then objects.count p else 0 := by
  induction objects generalizing w with
  | nil => simp [referenceAll]
  | cons o rest ih =>
    have others := ih (w := (w.reference o).1) unsaturated
    have first : ((w.reference o).1.object p).refs < maxReferences := by
      rcases Nat.lt_or_ge ((w.reference o).1.object p).refs maxReferences with h | h
      · exact h
      · exact absurd unsaturated (Nat.not_lt.mpr (most_le_refs_referenceAll rest h))
    have whole : ((w.referenceAll (o :: rest)).1.object p).refs =
        (((w.reference o).1.referenceAll rest).1.object p).refs := rfl
    rw [whole, others, counted_reference, List.count_cons]
    rw [object_reference] at first ⊢
    by_cases counted : (w.object p).counted = true
    · by_cases hp : p = o
      · subst hp
        rw [if_pos ⟨rfl, counted⟩] at first ⊢
        have one : (w.object p).addReference.refs = (w.object p).refs + 1 := by
          have : min ((w.object p).refs + 1) maxReferences < maxReferences := first
          show min ((w.object p).refs + 1) maxReferences = (w.object p).refs + 1
          omega
        simp [counted, one, Nat.add_assoc, Nat.add_comm 1]
      · rw [if_neg fun h => hp h.1]
        simp [counted, Ne.symm hp]
    · rw [if_neg fun h => counted h.2]
      simp [counted]

end World

end ArrayBridge
