import ArrayBridge.World.Release

/-!
# What giving back and letting go can do

Whatever stands in a list of duties, and whatever comes up while they are done, the world only
loses: lives, payloads, bridges and containers. `World.Wanes` names that once, so that nothing
about bridges or runs has to look into `World.perform` again.

**What is lost and when.** A payload is lost either by the death of its object, while nobody looks
at it, or because there is no handle on the object any more. The bridges in a payload that is lost
are closed, and no others are.

**What stays.** Classes, ids, and how payloads are lent out; the tags, the elements and the
revisions of all containers; every bridge that is not closed, as it is.

**What this does not say.** Counts of references are kept apart, in the ledger.
-/

namespace ArrayBridge

namespace World

/-- What stands in a place of the bridges, whatever its element type. -/
def anyBridge? (w : World) (slot : Nat) : Option AnyBridge := w.bridges.getD slot none

/-- A bridge is looked up as an entry of its element type. -/
theorem bridge?_eq_some_iff {w : World} {T : ElementType} {r : BridgeRef T} {b : Bridge T} :
    w.bridge? r = some b ↔ w.anyBridge? r.slot = some ⟨T, b⟩ := by
  unfold bridge? anyBridge?
  cases h : w.bridges.getD r.slot none with
  | none => simp
  | some entry =>
    obtain ⟨U, c⟩ := entry
    by_cases hT : U = T
    · subst hT
      simp
    · simp [hT]

/-- What a lookup answers depends on the entry alone. -/
theorem bridge?_congr {w w' : World} {T : ElementType} {r : BridgeRef T}
    (h : w'.anyBridge? r.slot = w.anyBridge? r.slot) : w'.bridge? r = w.bridge? r := by
  unfold bridge?
  unfold anyBridge? at h
  rw [h]

@[simp] theorem anyBridge?_setBridge_self {w : World} {T : ElementType} {r : BridgeRef T}
    {b : Bridge T} (h : r.slot < w.bridges.size) :
    (w.setBridge r b).anyBridge? r.slot = some ⟨T, b⟩ := by
  simp [anyBridge?, setBridge, Array.getD, h]

@[simp] theorem anyBridge?_setBridge_of_ne {w : World} {T : ElementType} {r : BridgeRef T}
    {b : Bridge T} {slot : Nat} (h : slot ≠ r.slot) :
    (w.setBridge r b).anyBridge? slot = w.anyBridge? slot := by
  simp [anyBridge?, setBridge, h.symm]

/-- There is something only in a place of the table. -/
theorem lt_of_anyBridge? {w : World} {slot : Nat} {entry : AnyBridge}
    (h : w.anyBridge? slot = some entry) : slot < w.bridges.size := by
  rcases Nat.lt_or_ge slot w.bridges.size with hs | hs
  · exact hs
  · simp [anyBridge?, Array.getD, Nat.not_lt.mpr hs] at h

theorem lt_of_bridge? {w : World} {T : ElementType} {r : BridgeRef T} {b : Bridge T}
    (h : w.bridge? r = some b) : r.slot < w.bridges.size :=
  lt_of_anyBridge? (bridge?_eq_some_iff.mp h)

/-- What is written over a bridge is found in its place. -/
theorem bridge?_setBridge {w : World} {T : ElementType} {r : BridgeRef T} {b b' : Bridge T}
    (h : w.bridge? r = some b) : (w.setBridge r b').bridge? r = some b' :=
  bridge?_setBridge_self (lt_of_bridge? h)

theorem anyBridge?_setBridge {w : World} {T : ElementType} {r : BridgeRef T} {b b' : Bridge T}
    (h : w.bridge? r = some b) : (w.setBridge r b').anyBridge? r.slot = some ⟨T, b'⟩ :=
  anyBridge?_setBridge_self (lt_of_bridge? h)

/-! ## The relation -/

/-- **Waning**: the second world is the first with lives, payloads, bridges and containers lost. -/
structure Wanes (w w' : World) : Prop where
  outside : w'.outside = w.outside
  objects : w'.objects.size = w.objects.size
  containers : w'.containers.size = w.containers.size
  bridges : w'.bridges.size = w.bridges.size
  cls : ∀ o, (w'.object o).cls = (w.object o).cls
  borrow : ∀ o, (w'.object o).borrow = (w.object o).borrow
  alive : ∀ o, (w'.object o).alive = true → (w.object o).alive = true
  payload : ∀ o, (w'.object o).payload = none ∨ (w'.object o).payload = (w.object o).payload
  /-- With its life an object loses its payload, unless that is lent out. -/
  dies : ∀ o, (w.object o).alive = true → (w'.object o).alive = false →
    (w.object o).borrow = .idle → (w'.object o).payload = none
  /-- As long as a handle is kept outside, nothing but that takes a payload away. -/
  spares : ∀ o, Variant.object o ∈ w.outside →
    (w'.object o).payload = (w.object o).payload ∨
      ((w.object o).borrow = .idle ∧ (w.object o).alive = true ∧ (w'.object o).alive = false)
  container : ∀ a, (w'.container a).tag = (w.container a).tag ∧
    (w'.container a).items = (w.container a).items ∧
    (w'.container a).revision = (w.container a).revision
  entry : ∀ slot, w'.anyBridge? slot = none ∨ w'.anyBridge? slot = w.anyBridge? slot
  /-- A payload that is lost takes its bridges with it. -/
  closes : ∀ o p, (w.object o).payload = some p → (w'.object o).payload = none →
    ∀ f ∈ p.fields, w'.anyBridge? f.target.ref.slot = none
  /-- No other bridges are closed. -/
  keeps : ∀ slot, w'.anyBridge? slot = w.anyBridge? slot ∨
    ∃ o p, (w.object o).payload = some p ∧ (w'.object o).payload = none ∧
      ∃ f ∈ p.fields, f.target.ref.slot = slot

namespace Wanes

variable {w w' w'' : World}

/-- What stands in the journal makes no difference. -/
theorem of_tables (outside : w'.outside = w.outside) (objects : w'.objects = w.objects)
    (containers : w'.containers = w.containers) (bridges : w'.bridges = w.bridges) :
    w.Wanes w' := by
  have object : w'.object = w.object := by unfold World.object; rw [objects]
  have container : w'.container = w.container := by unfold World.container; rw [containers]
  have entry : w'.anyBridge? = w.anyBridge? := by unfold anyBridge?; rw [bridges]
  refine
    { outside
      objects := by rw [objects]
      containers := by rw [containers]
      bridges := by rw [bridges]
      cls := fun o => by rw [object]
      borrow := fun o => by rw [object]
      alive := fun o h => by rwa [object] at h
      payload := fun o => .inr (by rw [object])
      dies := fun o lives dead _ => ?_
      spares := fun o _ => .inl (by rw [object])
      container := fun a => by rw [container]; exact ⟨rfl, rfl, rfl⟩
      entry := fun slot => .inr (by rw [entry])
      closes := fun o p h none => ?_
      keeps := fun slot => .inl (by rw [entry]) }
  · rw [object, lives] at dead
    cases dead
  · rw [object, h] at none
    cases none

theorem refl (w : World) : w.Wanes w := of_tables rfl rfl rfl rfl

/-- What was dead stays dead. -/
theorem dead (h : w.Wanes w') {o : ObjectId} (ho : (w.object o).alive = false) :
    (w'.object o).alive = false := by
  cases hn : (w'.object o).alive with
  | false => rfl
  | true => rw [h.alive o hn] at ho; cases ho

/-- What had no payload gets none. -/
theorem bare (h : w.Wanes w') {o : ObjectId} (ho : (w.object o).payload = none) :
    (w'.object o).payload = none := by
  rcases h.payload o with hn | hs
  · exact hn
  · rw [hs, ho]

/-- A payload that is still there was there. -/
theorem had (h : w.Wanes w') {o : ObjectId} {p : Payload} (ho : (w'.object o).payload = some p) :
    (w.object o).payload = some p := by
  rcases h.payload o with hn | hs
  · rw [hn] at ho; cases ho
  · rw [← hs, ho]

/-- A bridge that was closed stays closed. -/
theorem closed (h : w.Wanes w') {slot : Nat} (hs : w.anyBridge? slot = none) :
    w'.anyBridge? slot = none := by
  rcases h.entry slot with hn | he
  · exact hn
  · rw [he, hs]

theorem trans (h : w.Wanes w') (h' : w'.Wanes w'') : w.Wanes w'' where
  outside := h'.outside.trans h.outside
  objects := h'.objects.trans h.objects
  containers := h'.containers.trans h.containers
  bridges := h'.bridges.trans h.bridges
  cls o := (h'.cls o).trans (h.cls o)
  borrow o := (h'.borrow o).trans (h.borrow o)
  alive o ho := h.alive o (h'.alive o ho)
  payload o := by
    rcases h'.payload o with hn | hs
    · exact .inl hn
    · rw [hs]
      exact h.payload o
  dies o lives dead idle := by
    cases hm : (w'.object o).alive with
    | true => exact h'.dies o hm dead (by rw [h.borrow, idle])
    | false => exact h'.bare (h.dies o lives hm idle)
  spares o held := by
    rcases h.spares o held with hs | ⟨idle, lives, dead⟩
    · rcases h'.spares o (by rw [h.outside]; exact held) with hs' | ⟨idle, lives, dead⟩
      · exact .inl (hs'.trans hs)
      · exact .inr ⟨by rw [← h.borrow, idle], h.alive o lives, dead⟩
    · exact .inr ⟨idle, lives, h'.dead dead⟩
  container a := by
    obtain ⟨ht, hi, hr⟩ := h.container a
    obtain ⟨ht', hi', hr'⟩ := h'.container a
    exact ⟨ht'.trans ht, hi'.trans hi, hr'.trans hr⟩
  entry slot := by
    rcases h'.entry slot with hn | hs
    · exact .inl hn
    · rw [hs]
      exact h.entry slot
  closes o p ho hn f hf := by
    rcases h.payload o with hm | hm
    · exact h'.closed (h.closes o p ho hm f hf)
    · exact h'.closes o p (hm.trans ho) hn f hf
  keeps slot := by
    rcases h'.keeps slot with hs' | ⟨o, p, ho, hn, hf⟩
    · rcases h.keeps slot with hs | ⟨o, p, ho, hn, hf⟩
      · exact .inl (hs'.trans hs)
      · exact .inr ⟨o, p, ho, h'.bare hn, hf⟩
    · exact .inr ⟨o, p, h.had ho, hn, hf⟩

end Wanes

/-! ## Single steps -/

/-- A change to one object is read back there and nowhere else. -/
theorem object_updateObject_of_lt {w : World} {o : ObjectId} {f : ObjectCell → ObjectCell}
    {p : ObjectId} (h : p.slot < w.objects.size) :
    (w.updateObject o f).object p = if p = o then f (w.object p) else w.object p := by
  by_cases hp : p = o
  · subst hp
    simp [h]
  · simp [hp]

/-- An id that has no place reads the object that stands where none is, so that is read back too if
the change leaves that one as it is. -/
theorem object_updateObject {w : World} {o : ObjectId} {f : ObjectCell → ObjectCell}
    (hf : f default = default) (p : ObjectId) :
    (w.updateObject o f).object p = if p = o then f (w.object p) else w.object p := by
  by_cases hs : p.slot < w.objects.size
  · exact object_updateObject_of_lt hs
  · by_cases hp : p = o
    · subst hp
      simp [object, updateObject, Array.getD, hs, hf]
    · simp [hp]

/-- Whatever the change, an object is as it was or is changed. -/
theorem object_updateObject_or {w : World} {o : ObjectId} {f : ObjectCell → ObjectCell}
    (p : ObjectId) : (w.updateObject o f).object p = w.object p ∨
      (w.updateObject o f).object p = f (w.object p) := by
  by_cases hs : p.slot < w.objects.size
  · rw [object_updateObject_of_lt hs]
    split
    · exact .inr rfl
    · exact .inl rfl
  · refine .inl ?_
    simp [object, updateObject, Array.getD, hs]

theorem wanes_note (w : World) (n : Notice) : w.Wanes (w.note n) :=
  .of_tables rfl rfl rfl rfl

theorem wanes_dropReference (w : World) (o : ObjectId) :
    w.Wanes (w.updateObject o ObjectCell.dropReference) := by
  have read := fun p => object_updateObject (w := w) (o := o) (f := ObjectCell.dropReference) rfl p
  have same : ∀ p, ((w.updateObject o ObjectCell.dropReference).object p).payload =
      (w.object p).payload := by
    intro p
    rw [read p]
    split <;> rfl
  refine
    { outside := rfl
      objects := by simp [updateObject]
      containers := rfl
      bridges := rfl
      cls := fun p => by rw [read p]; split <;> rfl
      borrow := fun p => by rw [read p]; split <;> rfl
      alive := fun p h => by rw [read p] at h; split at h <;> exact h
      payload := fun p => .inr (same p)
      dies := fun p lives dead _ => ?_
      spares := fun p _ => .inl (same p)
      container := fun a => ⟨rfl, rfl, rfl⟩
      entry := fun slot => .inr rfl
      closes := fun p q h none => ?_
      keeps := fun slot => .inl rfl }
  · rw [read p] at dead
    split at dead <;> exact absurd (lives.symm.trans dead) (by decide)
  · rw [same p, h] at none
    cases none

/-! ### Closing bridges -/

@[simp] theorem closeBridge_outside (w : World) (slot : Nat) :
    (w.closeBridge slot).1.outside = w.outside := by
  unfold closeBridge
  split <;> rfl

@[simp] theorem closeBridge_size (w : World) (slot : Nat) :
    (w.closeBridge slot).1.bridges.size = w.bridges.size := by
  unfold closeBridge
  split <;> simp

@[simp] theorem object_closeBridge (w : World) (slot : Nat) (o : ObjectId) :
    (w.closeBridge slot).1.object o = w.object o := by
  simp [object]

@[simp] theorem container_closeBridge (w : World) (slot : Nat) (a : ArrayId) :
    (w.closeBridge slot).1.container a = w.container a := by
  simp [container]

/-- Closing empties one place. -/
theorem anyBridge?_closeBridge (w : World) (slot s : Nat) :
    (w.closeBridge slot).1.anyBridge? s = if s = slot then none else w.anyBridge? s := by
  unfold closeBridge
  by_cases h : s = slot
  · subst h
    rw [if_pos rfl]
    split
    · by_cases hs : s < w.bridges.size <;> simp [anyBridge?, Array.getD, hs]
    · rename_i hn
      exact hn
  · rw [if_neg h]
    split
    · simp [anyBridge?, Ne.symm h]
    · rfl

@[simp] theorem closeFields_outside (w : World) (fields : List Field) :
    (w.closeFields fields).1.outside = w.outside := by
  induction fields generalizing w with
  | nil => rfl
  | cons field rest ih => simp [closeFields, ih]

@[simp] theorem closeFields_size (w : World) (fields : List Field) :
    (w.closeFields fields).1.bridges.size = w.bridges.size := by
  induction fields generalizing w with
  | nil => rfl
  | cons field rest ih => simp [closeFields, ih]

/-- Closing the bridges of a payload empties their places and no others. -/
theorem anyBridge?_closeFields (w : World) (fields : List Field) (s : Nat) :
    (w.closeFields fields).1.anyBridge? s =
      if ∃ f ∈ fields, f.target.ref.slot = s then none else w.anyBridge? s := by
  induction fields generalizing w with
  | nil => simp [closeFields]
  | cons field rest ih =>
    simp only [closeFields, ih, anyBridge?_closeBridge, List.mem_cons, exists_eq_or_imp]
    by_cases hr : ∃ f ∈ rest, f.target.ref.slot = s
    · simp [hr]
    · by_cases hs : s = field.target.ref.slot
      · simp [hs]
      · simp [hr, hs, Ne.symm hs]

/-! ### Dropping a payload -/

@[simp] theorem object_closeFields (w : World) (fields : List Field) (p : ObjectId) :
    (w.closeFields fields).1.object p = w.object p := by
  simp [object]

/-- Without its payload an object is otherwise what it was, and so are all others. -/
theorem object_dropPayload (w : World) (o p : ObjectId) :
    (w.dropPayload o).1.object p =
      if p = o then { w.object p with payload := none } else w.object p := by
  unfold dropPayload
  split
  · simpa using object_updateObject rfl p
  · rename_i hn
    split
    · rename_i hp
      subst hp
      rw [← hn]
    · rfl

@[simp] theorem dropPayload_outside (w : World) (o : ObjectId) :
    (w.dropPayload o).1.outside = w.outside := by
  unfold dropPayload
  split <;> simp [updateObject]

@[simp] theorem dropPayload_objects (w : World) (o : ObjectId) :
    (w.dropPayload o).1.objects.size = w.objects.size := by
  unfold dropPayload
  split <;> simp [updateObject]

@[simp] theorem dropPayload_containers (w : World) (o : ObjectId) :
    (w.dropPayload o).1.containers = w.containers := by
  unfold dropPayload
  split <;> simp [updateObject]

@[simp] theorem container_dropPayload (w : World) (o : ObjectId) (a : ArrayId) :
    (w.dropPayload o).1.container a = w.container a := by
  simp [container]

@[simp] theorem dropPayload_bridges (w : World) (o : ObjectId) :
    (w.dropPayload o).1.bridges.size = w.bridges.size := by
  unfold dropPayload
  split <;> simp [updateObject]

/-- The bridges of the payload are closed, and no others. -/
theorem anyBridge?_dropPayload (w : World) (o : ObjectId) (s : Nat) :
    (w.dropPayload o).1.anyBridge? s =
      if ∃ p, (w.object o).payload = some p ∧ ∃ f ∈ p.fields, f.target.ref.slot = s then none
      else w.anyBridge? s := by
  unfold dropPayload
  split
  · rename_i p hp
    rw [anyBridge?_closeFields]
    simp only [hp, Option.some.injEq, exists_eq_left']
    rfl
  · rename_i hn
    simp [hn]

/-- A payload is dropped where no handle is kept outside, or with the life of its object. -/
theorem wanes_dropPayload {w : World} {o : ObjectId} (unheld : Variant.object o ∉ w.outside) :
    w.Wanes (w.dropPayload o).1 where
  outside := by simp
  objects := by simp
  containers := by simp
  bridges := by simp
  cls p := by rw [object_dropPayload]; split <;> rfl
  borrow p := by rw [object_dropPayload]; split <;> rfl
  alive p h := by rw [object_dropPayload] at h; split at h <;> exact h
  payload p := by
    rw [object_dropPayload]
    split
    · exact .inl rfl
    · exact .inr rfl
  dies p lives dead := by
    rw [object_dropPayload] at dead
    split at dead <;> exact absurd (lives.symm.trans dead) (by decide)
  spares p held := by
    have hp : p ≠ o := fun h => unheld (h ▸ held)
    rw [object_dropPayload, if_neg hp]
    exact .inl rfl
  container a := by simp
  entry s := by
    rw [anyBridge?_dropPayload]
    split
    · exact .inl rfl
    · exact .inr rfl
  closes p q hq hn f hf := by
    by_cases hp : p = o
    · subst hp
      rw [anyBridge?_dropPayload, if_pos ⟨q, hq, f, hf, rfl⟩]
    · rw [object_dropPayload, if_neg hp, hq] at hn
      cases hn
  keeps s := by
    rw [anyBridge?_dropPayload]
    split
    · rename_i h
      obtain ⟨q, hq, hf⟩ := h
      refine .inr ⟨o, q, hq, ?_, hf⟩
      rw [object_dropPayload, if_pos rfl]
    · exact .inl rfl

/-! ### Deaths -/

/-- The world in which the object is marked as dead and nothing else has happened yet. -/
def marked (w : World) (o : ObjectId) : World :=
  let w := w.updateObject o ObjectCell.killed
  w.note (.freeing (w.label o))

theorem object_marked (w : World) (o p : ObjectId) :
    (w.marked o).object p = if p = o then (w.object p).killed else w.object p :=
  object_updateObject rfl p

/-- A death is the mark, and the loss of the payload unless that is lent out. -/
theorem kill_eq (w : World) (o : ObjectId) :
    w.kill o = if (w.object o).borrow = .idle then (w.marked o).dropPayload o
      else (w.marked o, []) := by
  have same : ((w.marked o).object o).borrow = (w.object o).borrow := by
    rw [object_marked, if_pos rfl]
    rfl
  rw [← same]
  rfl

/-- After a death the object is marked, and its payload is gone unless it is lent out. -/
theorem object_kill (w : World) (o p : ObjectId) :
    (w.kill o).1.object p =
      if p = o then
        { (w.object p).killed with
          payload := if (w.object o).borrow = .idle then none else (w.object p).payload }
      else w.object p := by
  rw [kill_eq]
  by_cases idle : (w.object o).borrow = .idle
  · rw [if_pos idle, object_dropPayload, object_marked]
    by_cases hp : p = o
    · simp only [if_pos hp, if_pos idle]
    · simp only [if_neg hp]
  · rw [if_neg idle, object_marked]
    by_cases hp : p = o
    · simp only [if_pos hp, if_neg idle]
      rfl
    · simp only [if_neg hp]

/-- A death closes the bridges of a payload that is not lent out, and no others. -/
theorem anyBridge?_kill (w : World) (o : ObjectId) (s : Nat) :
    (w.kill o).1.anyBridge? s =
      if (w.object o).borrow = .idle ∧
          ∃ p, (w.object o).payload = some p ∧ ∃ f ∈ p.fields, f.target.ref.slot = s then none
      else w.anyBridge? s := by
  have payload : ((w.marked o).object o).payload = (w.object o).payload := by
    rw [object_marked, if_pos rfl]
    rfl
  rw [kill_eq]
  by_cases idle : (w.object o).borrow = .idle
  · rw [if_pos idle, anyBridge?_dropPayload, payload]
    simp only [idle, true_and]
    rfl
  · rw [if_neg idle, if_neg fun h => idle h.1]
    rfl

@[simp] theorem kill_outside (w : World) (o : ObjectId) : (w.kill o).1.outside = w.outside := by
  rw [kill_eq]
  split <;> simp [marked, note, updateObject]

@[simp] theorem kill_objects (w : World) (o : ObjectId) :
    (w.kill o).1.objects.size = w.objects.size := by
  rw [kill_eq]
  split <;> simp [marked, note, updateObject]

@[simp] theorem kill_containers (w : World) (o : ObjectId) :
    (w.kill o).1.containers = w.containers := by
  rw [kill_eq]
  split <;> simp [marked, note, updateObject]

@[simp] theorem container_kill (w : World) (o : ObjectId) (a : ArrayId) :
    (w.kill o).1.container a = w.container a := by
  simp [container]

@[simp] theorem kill_bridges (w : World) (o : ObjectId) :
    (w.kill o).1.bridges.size = w.bridges.size := by
  rw [kill_eq]
  split <;> simp [marked, note, updateObject]

theorem wanes_kill {w : World} {o : ObjectId} (lives : (w.object o).alive = true) :
    w.Wanes (w.kill o).1 where
  outside := by simp
  objects := by simp
  containers := by simp
  bridges := by simp
  cls p := by rw [object_kill]; split <;> rfl
  borrow p := by rw [object_kill]; split <;> rfl
  alive p h := by
    rw [object_kill] at h
    split at h
    · cases h
    · exact h
  payload p := by
    rw [object_kill]
    split
    · rename_i hp
      subst hp
      by_cases idle : (w.object p).borrow = .idle
      · exact .inl (if_pos idle)
      · exact .inr (if_neg idle)
    · exact .inr rfl
  dies p here dead idle := by
    rw [object_kill] at dead ⊢
    split at dead
    · rename_i hp
      subst hp
      rw [if_pos rfl]
      exact if_pos idle
    · exact absurd (here.symm.trans dead) (by decide)
  spares p _ := by
    rw [object_kill]
    split
    · rename_i hp
      subst hp
      by_cases idle : (w.object p).borrow = .idle
      · exact .inr ⟨idle, lives, rfl⟩
      · exact .inl (if_neg idle)
    · exact .inl rfl
  container a := by simp
  entry s := by
    rw [anyBridge?_kill]
    split
    · exact .inl rfl
    · exact .inr rfl
  closes p q hq hn f hf := by
    rw [object_kill] at hn
    split at hn
    · rename_i hp
      subst hp
      by_cases idle : (w.object p).borrow = .idle
      · rw [anyBridge?_kill, if_pos ⟨idle, q, hq, f, hf, rfl⟩]
      · have hn : (w.object p).payload = none := (if_neg idle).symm.trans hn
        rw [hq] at hn
        cases hn
    · rw [hq] at hn
      cases hn
  keeps s := by
    rw [anyBridge?_kill]
    split
    · rename_i h
      obtain ⟨idle, q, hq, hf⟩ := h
      refine .inr ⟨o, q, hq, ?_, hf⟩
      rw [object_kill, if_pos rfl]
      exact if_pos idle
    · exact .inl rfl

/-! ### The end of a container -/

/-- A container that is dropped keeps its tag, its elements and its revision. -/
theorem container_drop (w : World) (a b : ArrayId) :
    ((w.updateContainer a fun c => { c with dropped := true }).container b).tag =
        (w.container b).tag ∧
      ((w.updateContainer a fun c => { c with dropped := true }).container b).items =
        (w.container b).items ∧
      ((w.updateContainer a fun c => { c with dropped := true }).container b).revision =
        (w.container b).revision := by
  by_cases hb : b = a
  · subst hb
    by_cases hs : b.slot < w.containers.size
    · simp [hs]
    · simp [container, updateContainer, Array.getD, hs]
  · simp [hb]

theorem wanes_dropContainer (w : World) (a : ArrayId) :
    w.Wanes (w.updateContainer a fun c => { c with dropped := true }) where
  outside := rfl
  objects := rfl
  containers := by simp [updateContainer]
  bridges := rfl
  cls _ := rfl
  borrow _ := rfl
  alive _ h := h
  payload _ := .inr rfl
  dies p lives dead := absurd (lives.symm.trans dead) (by decide)
  spares _ _ := .inl rfl
  container b := container_drop w a b
  entry _ := .inr rfl
  closes p q hq hn := absurd (hq.symm.trans hn) (by simp)
  keeps _ := .inl rfl

/-- What is demolished is not held, least of all from outside. -/
theorem wanes_demolish {w : World} {v : Variant} (unheld : v ∉ w.outside) :
    w.Wanes (w.demolish v).1 := by
  cases v with
  | object o => exact wanes_dropPayload unheld
  | array a => exact wanes_dropContainer w a
  | _ => exact Wanes.refl w

/-- What is not held is not kept outside. -/
theorem not_mem_outside_of_isHeld {w : World} {pending : List Duty} {v : Variant}
    (h : w.isHeld pending v = false) : v ∉ w.outside := by
  intro hv
  simp [isHeld, handles, hv] at h

/-! ## All that is to be done -/

/-- **Doing all duties only takes away.** -/
theorem wanes_perform (w : World) (pending : List Duty) : w.Wanes (w.perform pending) := by
  induction w, pending using perform.induct with
  | case1 w =>
    rw [perform]
    exact Wanes.refl w
  | case2 w o rest counted last killed ih =>
    rw [perform, dif_pos counted, if_pos last]
    have lives : (w.object o).alive = true := (Bool.and_eq_true_iff.mp counted).2
    exact (wanes_kill lives).trans ih
  | case3 w o rest counted last ih =>
    rw [perform, dif_pos counted, if_neg last]
    exact (wanes_dropReference w o).trans ih
  | case4 w o rest counted ih =>
    rw [perform, dif_neg counted]
    exact ih
  | case5 w v rest goes ruins ih =>
    rw [perform, dif_pos goes]
    exact (wanes_demolish (not_mem_outside_of_isHeld goes.2)).trans ih
  | case6 w v rest stays ih =>
    rw [perform, dif_neg stays]
    exact ih

theorem wanes_letGo (w : World) (handles : List Variant) : w.Wanes (w.letGo handles) :=
  wanes_perform w _

theorem wanes_release (w : World) (held : List ObjectId) : w.Wanes (w.release held) :=
  wanes_perform w _

theorem wanes_unreference (w : World) (o : ObjectId) : w.Wanes (w.unreference o).1 :=
  wanes_perform w _

theorem wanes_free (w : World) (o : ObjectId) : w.Wanes (w.free o) := by
  unfold free
  split
  · rename_i lives
    exact (wanes_kill lives).trans (wanes_perform _ _)
  · exact Wanes.refl w

end World

end ArrayBridge
