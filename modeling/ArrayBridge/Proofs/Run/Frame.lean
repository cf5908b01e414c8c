import ArrayBridge.Proofs.Run
import ArrayBridge.Proofs.World.Ledger

/-!
# What an action leaves alone

Each action has a footprint: the bridge it works on, the container it changes, the object whose
payload it lends or returns, the handles it takes. `World.Evolves` says what stays the same outside
of a footprint, and what can happen to anything at all: tables grow, the dead stay dead, a payload
that went stays away, a closed bridge stays closed.

`evolves_step` is the one place where the actions are gone through for that. Everything said of
runs is derived from it and from what the one action does to its own footprint.
-/

namespace ArrayBridge

/-- What an action is about. -/
structure Footprint where
  bridges : Nat → Prop
  arrays : ArrayId → Prop
  borrows : ObjectId → Prop
  handles : Variant → Prop

namespace Footprint

def nothing : Footprint := ⟨fun _ => False, fun _ => False, fun _ => False, fun _ => False⟩

def bridge (slot : Nat) : Footprint := { nothing with bridges := (· = slot) }

def array (a : ArrayId) : Footprint := { nothing with arrays := (· = a) }

def payload (o : ObjectId) : Footprint := { nothing with borrows := (· = o) }

def taking (handles : List Variant) : Footprint := { nothing with handles := (· ∈ handles) }

/-- No payload is lent or returned, and no handle is taken. -/
structure Quiet (fp : Footprint) : Prop where
  borrows : ∀ o, ¬ fp.borrows o
  handles : ∀ v, ¬ fp.handles v

theorem quiet_nothing : nothing.Quiet := ⟨fun _ h => h, fun _ h => h⟩

theorem quiet_bridge (slot : Nat) : (bridge slot).Quiet := ⟨fun _ h => h, fun _ h => h⟩

theorem quiet_array (a : ArrayId) : (array a).Quiet := ⟨fun _ h => h, fun _ h => h⟩

end Footprint

/-- The footprint of an action. A new object, container or bridge is in no footprint, since it takes
a place that nothing had. -/
def Action.footprint : Action → Footprint
  | .lendExclusively o | .lendToReader o | .returnExclusive o | .returnFromReader o => .payload o
  | .append a _ | .tryAppend a _ | .setAt a _ _ | .insertAt a _ _ | .removeAt a _ | .clear a =>
    .array a
  | .setPolicy r _ | .dropBridge r | .readNative r | .writeNative r _ | .pushNative r _
  | .openSession r | .closeSession r _ | .writeUntyped r _ | .setAccessor r _ => .bridge r.slot
  | .keep handles => .taking handles
  | .allocate .. | .free .. | .reference .. | .unreference .. | .setValue .. | .newArray ..
  | .duplicate .. | .newBridge .. | .letGo .. | .settle | .note .. => .nothing

namespace World

/-- **Evolution**: what the second world has in common with the first. -/
structure Evolves (fp : Footprint) (w w' : World) : Prop where
  outside : ∀ v, v ∈ w'.outside → v ∈ w.outside ∨ fp.handles v
  objects : w.objects.size ≤ w'.objects.size
  containers : w.containers.size ≤ w'.containers.size
  bridges : w.bridges.size ≤ w'.bridges.size
  cls : ∀ o, o.slot < w.objects.size → (w'.object o).cls = (w.object o).cls
  born : ∀ o, w.objects.size ≤ o.slot → (w'.object o).borrow = .idle
  borrow : ∀ o, o.slot < w.objects.size → ¬ fp.borrows o →
    (w'.object o).borrow = (w.object o).borrow
  alive : ∀ o, o.slot < w.objects.size → (w'.object o).alive = true → (w.object o).alive = true
  fields : ∀ o, o.slot < w.objects.size → w'.fields? o = none ∨ w'.fields? o = w.fields? o
  /-- With its life an object loses its payload, unless that is lent out. -/
  dies : ∀ o, (w.object o).alive = true → (w'.object o).alive = false →
    (w.object o).borrow = .idle → w'.fields? o = none
  /-- As long as a handle is kept outside, nothing but that takes a payload away. -/
  spares : ∀ o, o.slot < w.objects.size → Variant.object o ∈ w'.outside →
    w'.fields? o = w.fields? o ∨
      ((w.object o).borrow = .idle ∧ (w.object o).alive = true ∧ (w'.object o).alive = false)
  /-- A payload that is lost takes its bridges with it. -/
  closes : ∀ o fields, w.fields? o = some fields → w'.fields? o = none →
    ∀ f ∈ fields, f.target.ref.slot < w.bridges.size → w'.anyBridge? f.target.ref.slot = none
  closed : ∀ slot, slot < w.bridges.size → w.anyBridge? slot = none → w'.anyBridge? slot = none
  entry : ∀ slot, slot < w.bridges.size → ¬ fp.bridges slot →
    w'.anyBridge? slot = none ∨ w'.anyBridge? slot = w.anyBridge? slot
  tag : ∀ a, a.slot < w.containers.size → (w'.container a).tag = (w.container a).tag
  container : ∀ a, a.slot < w.containers.size → ¬ fp.arrays a →
    (w'.container a).items = (w.container a).items ∧
      (w'.container a).revision = (w.container a).revision

/-- There is a payload only where there is an object. -/
theorem lt_of_fields? {w : World} {o : ObjectId} {fields : List Field}
    (h : w.fields? o = some fields) : o.slot < w.objects.size := by
  rcases Nat.lt_or_ge o.slot w.objects.size with hs | hs
  · exact hs
  · simp [fields?, object, Array.getD, Nat.not_lt.mpr hs, default] at h

theorem object_of_ge {w : World} {o : ObjectId} (h : w.objects.size ≤ o.slot) :
    w.object o = default := by
  simp [object, Array.getD, Nat.not_lt.mpr h]

namespace Evolves

variable {fp : Footprint} {w w' w'' : World}

/-- What was dead stays dead. -/
theorem dead (h : w.Evolves fp w') {o : ObjectId} (ho : o.slot < w.objects.size)
    (hd : (w.object o).alive = false) : (w'.object o).alive = false := by
  cases hn : (w'.object o).alive with
  | false => rfl
  | true => rw [h.alive o ho hn] at hd; cases hd

/-- What had no payload gets none. -/
theorem bare (h : w.Evolves fp w') {o : ObjectId} (ho : o.slot < w.objects.size)
    (hn : w.fields? o = none) : w'.fields? o = none := by
  rcases h.fields o ho with h' | h'
  · exact h'
  · rw [h', hn]

/-- Where the objects and the bridges are the same, and the elements of containers too, nothing has
happened but that tables have grown. -/
theorem of_tables (outside : ∀ v, v ∈ w'.outside → v ∈ w.outside ∨ fp.handles v)
    (objects : w'.objects = w.objects) (containers : w.containers.size ≤ w'.containers.size)
    (bridges : w.bridges.size ≤ w'.bridges.size)
    (entry : ∀ slot, slot < w.bridges.size → w'.anyBridge? slot = w.anyBridge? slot)
    (container : ∀ a, a.slot < w.containers.size → w'.container a = w.container a) :
    w.Evolves fp w' := by
  have object : w'.object = w.object := by unfold World.object; rw [objects]
  have fields : w'.fields? = w.fields? := by unfold World.fields?; rw [object]
  refine
    { outside, containers, bridges
      objects := Nat.le_of_eq (by rw [objects])
      cls := fun o _ => by rw [object]
      born := fun o ho => by rw [object, object_of_ge ho]; rfl
      borrow := fun o _ _ => by rw [object]
      alive := fun o _ h => by rwa [object] at h
      fields := fun o _ => .inr (by rw [fields])
      dies := fun o lives dead _ => ?_
      spares := fun o _ _ => .inl (by rw [fields])
      closes := fun o fs h none => ?_
      closed := fun slot hs h => by rw [entry slot hs, h]
      entry := fun slot hs _ => .inr (entry slot hs)
      tag := fun a ha => by rw [container a ha]
      container := fun a ha _ => by rw [container a ha]; exact ⟨rfl, rfl⟩ }
  · rw [object, lives] at dead
    cases dead
  · rw [fields, h] at none
    cases none

theorem refl (fp : Footprint) (w : World) : w.Evolves fp w :=
  .of_tables (fun _ h => .inl h) rfl (Nat.le_refl _) (Nat.le_refl _) (fun _ _ => rfl)
    fun _ _ => rfl

theorem trans (quiet : fp.Quiet) (h : w.Evolves fp w') (h' : w'.Evolves fp w'') :
    w.Evolves fp w'' where
  outside v hv := by
    rcases h'.outside v hv with hv | hv
    · exact h.outside v hv
    · exact (quiet.handles v hv).elim
  objects := Nat.le_trans h.objects h'.objects
  containers := Nat.le_trans h.containers h'.containers
  bridges := Nat.le_trans h.bridges h'.bridges
  cls o ho := (h'.cls o (Nat.lt_of_lt_of_le ho h.objects)).trans (h.cls o ho)
  born o ho := by
    rcases Nat.lt_or_ge o.slot w'.objects.size with hs | hs
    · rw [h'.borrow o hs (quiet.borrows o)]
      exact h.born o ho
    · exact h'.born o hs
  borrow o ho hb :=
    (h'.borrow o (Nat.lt_of_lt_of_le ho h.objects) hb).trans (h.borrow o ho hb)
  alive o ho ha := h.alive o ho (h'.alive o (Nat.lt_of_lt_of_le ho h.objects) ha)
  fields o ho := by
    rcases h'.fields o (Nat.lt_of_lt_of_le ho h.objects) with hn | hs
    · exact .inl hn
    · rw [hs]
      exact h.fields o ho
  dies o lives dead idle := by
    have ho := lt_of_alive lives
    have ho' := Nat.lt_of_lt_of_le ho h.objects
    cases hm : (w'.object o).alive with
    | true => exact h'.dies o hm dead (by rw [h.borrow o ho (quiet.borrows o), idle])
    | false => exact h'.bare ho' (h.dies o lives hm idle)
  spares o ho held := by
    have ho' := Nat.lt_of_lt_of_le ho h.objects
    have held' : Variant.object o ∈ w'.outside := by
      rcases h'.outside _ held with hv | hv
      · exact hv
      · exact (quiet.handles _ hv).elim
    rcases h.spares o ho held' with hs | ⟨idle, lives, dead⟩
    · rcases h'.spares o ho' held with hs' | ⟨idle, lives, dead⟩
      · exact .inl (hs'.trans hs)
      · exact .inr ⟨by rw [← h.borrow o ho (quiet.borrows o), idle], h.alive o ho lives, dead⟩
    · exact .inr ⟨idle, lives, h'.dead ho' dead⟩
  closes o fs ho hn f hf hs := by
    have hlt := lt_of_fields? ho
    rcases h.fields o hlt with hm | hm
    · exact h'.closed _ (Nat.lt_of_lt_of_le hs h.bridges) (h.closes o fs ho hm f hf hs)
    · exact h'.closes o fs (hm.trans ho) hn f hf (Nat.lt_of_lt_of_le hs h.bridges)
  closed slot hs hn := h'.closed slot (Nat.lt_of_lt_of_le hs h.bridges) (h.closed slot hs hn)
  entry slot hs hf := by
    rcases h'.entry slot (Nat.lt_of_lt_of_le hs h.bridges) hf with hn | he
    · exact .inl hn
    · rw [he]
      exact h.entry slot hs hf
  tag a ha := (h'.tag a (Nat.lt_of_lt_of_le ha h.containers)).trans (h.tag a ha)
  container a ha hf := by
    obtain ⟨hi, hr⟩ := h.container a ha hf
    obtain ⟨hi', hr'⟩ := h'.container a (Nat.lt_of_lt_of_le ha h.containers) hf
    exact ⟨hi'.trans hi, hr'.trans hr⟩

/-- A footprint may be replaced by one that covers what was there before. -/
theorem within {fp' : Footprint} (h : w.Evolves fp w') (handles : ∀ v, fp.handles v → fp'.handles v)
    (borrows : ∀ o, fp.borrows o → fp'.borrows o) (arrays : ∀ a, fp.arrays a → fp'.arrays a)
    (bridges : ∀ slot, slot < w.bridges.size → fp.bridges slot → fp'.bridges slot) :
    w.Evolves fp' w' :=
  { h with
    outside := fun v hv => (h.outside v hv).imp_right (handles v)
    borrow := fun o ho hf => h.borrow o ho fun hb => hf (borrows o hb)
    entry := fun slot hs hf => h.entry slot hs fun hb => hf (bridges slot hs hb)
    container := fun a ha hf => h.container a ha fun hb => hf (arrays a hb) }

end Evolves

/-! ## Single changes -/

/-- To wane is to evolve, whatever the footprint. -/
theorem Wanes.evolves {w w' : World} (h : w.Wanes w') (fp : Footprint) : w.Evolves fp w' where
  outside v hv := .inl (by rwa [h.outside] at hv)
  objects := Nat.le_of_eq h.objects.symm
  containers := Nat.le_of_eq h.containers.symm
  bridges := Nat.le_of_eq h.bridges.symm
  cls o _ := h.cls o
  born o ho := by rw [h.borrow, object_of_ge ho]; rfl
  borrow o _ _ := h.borrow o
  alive o _ := h.alive o
  fields o _ := by
    unfold fields?
    rcases h.payload o with hn | hs
    · rw [hn]
      exact .inl rfl
    · rw [hs]
      exact .inr rfl
  dies o lives dead idle := by rw [fields?, h.dies o lives dead idle]; rfl
  spares o _ held := by
    rcases h.spares o (by rwa [h.outside] at held) with hs | hd
    · exact .inl (by rw [fields?, hs]; rfl)
    · exact .inr hd
  closes o fs ho hn f hf _ := by
    obtain ⟨p, hp, rfl⟩ := Option.map_eq_some_iff.mp ho
    exact h.closes o p hp (Option.map_eq_none_iff.mp hn) f hf
  closed slot _ := h.closed
  entry slot _ _ := h.entry slot
  tag a _ := (h.container a).1
  container a _ _ := (h.container a).2

theorem evolves_note (fp : Footprint) (w : World) (n : Notice) : w.Evolves fp (w.note n) :=
  (wanes_note w n).evolves fp

/-- A change to one object that leaves its class, its life and its bridges, and its borrow unless
that is in the footprint. -/
theorem evolves_updateObject {fp : Footprint} (w : World) (o : ObjectId)
    {f : ObjectCell → ObjectCell} (cls : ∀ c, (f c).cls = c.cls)
    (alive : ∀ c, (f c).alive = c.alive)
    (fields : ∀ c, (f c).payload.map Payload.fields = c.payload.map Payload.fields)
    (borrow : fp.borrows o ∨ ∀ c, (f c).borrow = c.borrow) :
    w.Evolves fp (w.updateObject o f) := by
  have size : (w.updateObject o f).objects.size = w.objects.size := by simp [updateObject]
  have read : ∀ p, p.slot < w.objects.size →
      (w.updateObject o f).object p = if p = o then f (w.object p) else w.object p :=
    fun _ => object_updateObject_of_lt
  have same : ∀ p, p.slot < w.objects.size → (w.updateObject o f).fields? p = w.fields? p := by
    intro p hs
    rw [fields?, read p hs]
    split
    · exact fields _
    · rfl
  have lives : ∀ p, p.slot < w.objects.size →
      ((w.updateObject o f).object p).alive = (w.object p).alive := by
    intro p hs
    rw [read p hs]
    split
    · exact alive _
    · rfl
  refine
    { outside := fun v hv => .inl hv
      objects := Nat.le_of_eq size.symm
      containers := Nat.le_refl _
      bridges := Nat.le_refl _
      cls := fun p hs => ?_
      born := fun p hs => ?_
      borrow := fun p hs hb => ?_
      alive := fun p hs h => by rwa [lives p hs] at h
      fields := fun p hs => .inr (same p hs)
      dies := fun p h h' => ?_
      spares := fun p hs _ => .inl (same p hs)
      closes := fun p fs h h' => ?_
      closed := fun _ _ h => h
      entry := fun _ _ _ => .inr rfl
      tag := fun _ _ => rfl
      container := fun _ _ _ => ⟨rfl, rfl⟩ }
  · rw [read p hs]
    split
    · exact cls _
    · rfl
  · rw [object_of_ge (by rw [size]; exact hs)]
    rfl
  · rw [read p hs]
    split
    · rename_i hp
      rcases borrow with hf | hf
      · exact (hb (hp ▸ hf)).elim
      · exact hf _
    · rfl
  · rw [lives p (lt_of_alive h), h] at h'
    cases h'
  · rw [same p (lt_of_fields? h), h] at h'
    cases h'

theorem evolves_reference (fp : Footprint) (w : World) (o : ObjectId) :
    w.Evolves fp (w.reference o).1 := by
  unfold reference
  split
  · exact evolves_updateObject w o (fun _ => rfl) (fun _ => rfl) (fun _ => rfl)
      (.inr fun _ => rfl)
  · exact .refl fp w

theorem evolves_referenceAll {fp : Footprint} (quiet : fp.Quiet) (w : World)
    (objects : List ObjectId) : w.Evolves fp (w.referenceAll objects).1 := by
  induction objects generalizing w with
  | nil => exact .refl fp w
  | cons o rest ih => exact (evolves_reference fp w o).trans quiet (ih (w.reference o).1)

/-- A new container moves nothing. -/
theorem evolves_addContainer (fp : Footprint) (w : World) (c : Container) :
    w.Evolves fp (w.addContainer c).1 :=
  .of_tables (fun _ h => .inl h) rfl (by simp [addContainer]) (Nat.le_refl _) (fun _ _ => rfl)
    fun _ => container_addContainer_of_lt

/-- A new bridge moves nothing. -/
theorem evolves_addBridge (fp : Footprint) (w : World) {T : ElementType} (b : Bridge T) :
    w.Evolves fp (w.addBridge b).1 :=
  .of_tables (fun _ h => .inl h) rfl (Nat.le_refl _) (by simp [addBridge])
    (fun slot hs => by
      simp [anyBridge?, addBridge, Array.getD, hs, Nat.lt_succ_of_lt hs, Array.getElem_push_lt hs])
    fun _ _ => rfl

/-- With a new object every other is looked up as before. -/
theorem object_addObject {w : World} (cell : ObjectCell) (o : ObjectId) :
    ((w.addObject cell).1.object o = cell ∧ o.slot = w.objects.size) ∨
      (w.addObject cell).1.object o = w.object o := by
  rcases Nat.lt_trichotomy o.slot w.objects.size with before | last | beyond
  · exact .inr (object_addObject_of_lt before)
  · have new : o = (w.addObject cell).2 := ObjectId.eq_of_slot last
    exact .inl ⟨by simp [new], last⟩
  · have out : (w.addObject cell).1.objects.size ≤ o.slot := by
      simp only [addObject, Array.size_push]
      exact beyond
    rw [object_of_ge out, object_of_ge (Nat.le_of_lt beyond)]
    exact .inr rfl

/-- A new object moves nothing. Nobody looks at its payload yet. -/
theorem evolves_addObject (fp : Footprint) (w : World) {cell : ObjectCell}
    (idle : cell.borrow = .idle) : w.Evolves fp (w.addObject cell).1 := by
  have same : ∀ o, o.slot < w.objects.size → (w.addObject cell).1.object o = w.object o :=
    fun _ => object_addObject_of_lt
  have fields : ∀ o, o.slot < w.objects.size → (w.addObject cell).1.fields? o = w.fields? o := by
    intro o ho
    rw [fields?, same o ho]
    rfl
  refine
    { outside := fun v hv => .inl hv
      objects := by simp [addObject]
      containers := Nat.le_refl _
      bridges := Nat.le_refl _
      cls := fun o ho => by rw [same o ho]
      born := fun o ho => ?_
      borrow := fun o ho _ => by rw [same o ho]
      alive := fun o ho h => by rwa [same o ho] at h
      fields := fun o ho => .inr (fields o ho)
      dies := fun o h h' => ?_
      spares := fun o ho _ => .inl (fields o ho)
      closes := fun o fs h h' => ?_
      closed := fun _ _ h => h
      entry := fun _ _ _ => .inr rfl
      tag := fun _ _ => rfl
      container := fun _ _ _ => ⟨rfl, rfl⟩ }
  · rcases object_addObject cell o with ⟨new, _⟩ | old
    · rw [new, idle]
    · rw [old, object_of_ge ho]
      rfl
  · rw [same o (lt_of_alive h), h] at h'
    cases h'
  · rw [fields o (lt_of_fields? h), h] at h'
    cases h'

/-- A bridge in the footprint is replaced. -/
theorem evolves_setBridge {fp : Footprint} {w : World} {T : ElementType} {r : BridgeRef T}
    {b : Bridge T} (b' : Bridge T) (open' : w.bridge? r = some b) (touched : fp.bridges r.slot) :
    w.Evolves fp (w.setBridge r b') where
  outside _ hv := .inl hv
  objects := Nat.le_refl _
  containers := Nat.le_refl _
  bridges := by simp [setBridge]
  cls _ _ := rfl
  born o ho := by
    show (w.object o).borrow = .idle
    rw [object_of_ge ho]
    rfl
  borrow _ _ _ := rfl
  alive _ _ h := h
  fields _ _ := .inr rfl
  dies _ h h' := absurd (h.symm.trans h') (by decide)
  spares _ _ _ := .inl rfl
  closes _ _ h h' := absurd (h.symm.trans h') (by simp)
  closed slot _ hn := by
    have hne : slot ≠ r.slot := by
      rintro rfl
      rw [bridge?_eq_some_iff.mp open'] at hn
      cases hn
    simp [hne, hn]
  entry slot _ hf := by
    have hne : slot ≠ r.slot := by
      rintro rfl
      exact hf touched
    exact .inr (anyBridge?_setBridge_of_ne hne)
  tag _ _ := rfl
  container _ _ _ := ⟨rfl, rfl⟩

/-- A bridge in the footprint is closed. -/
theorem evolves_closeBridge {fp : Footprint} (w : World) {slot : Nat} (touched : fp.bridges slot) :
    w.Evolves fp (w.closeBridge slot).1 := by
  have objects : (w.closeBridge slot).1.object = w.object := by
    funext o
    simp
  have containers : (w.closeBridge slot).1.container = w.container := by
    funext a
    simp
  have fields : (w.closeBridge slot).1.fields? = w.fields? := by
    unfold World.fields?
    rw [objects]
  refine
    { outside := fun v hv => .inl (by simpa using hv)
      objects := by simp
      containers := by simp
      bridges := by simp
      cls := fun o _ => by rw [objects]
      born := fun o ho => by rw [objects, object_of_ge ho]; rfl
      borrow := fun o _ _ => by rw [objects]
      alive := fun o _ h => by rwa [objects] at h
      fields := fun o _ => .inr (by rw [fields])
      dies := fun o h h' => ?_
      spares := fun o _ _ => .inl (by rw [fields])
      closes := fun o fs h h' => ?_
      closed := fun s _ h => ?_
      entry := fun s _ hf => ?_
      tag := fun a _ => by rw [containers]
      container := fun a _ _ => by rw [containers]; exact ⟨rfl, rfl⟩ }
  · rw [objects, h] at h'
    cases h'
  · rw [fields, h] at h'
    cases h'
  · rw [anyBridge?_closeBridge, h]
    split <;> rfl
  · have hne : s ≠ slot := by
      rintro rfl
      exact hf touched
    rw [anyBridge?_closeBridge, if_neg hne]
    exact .inr rfl

/-- A container in the footprint is changed and keeps its tag. -/
theorem evolves_updateContainer {fp : Footprint} (w : World) (a : ArrayId)
    {f : Container → Container} (tag : (f (w.container a)).tag = (w.container a).tag)
    (touched : fp.arrays a) : w.Evolves fp (w.updateContainer a f) where
  outside _ hv := .inl hv
  objects := Nat.le_refl _
  containers := by simp [updateContainer]
  bridges := Nat.le_refl _
  cls _ _ := rfl
  born o ho := by
    show (w.object o).borrow = .idle
    rw [object_of_ge ho]
    rfl
  borrow _ _ _ := rfl
  alive _ _ h := h
  fields _ _ := .inr rfl
  dies _ h h' := absurd (h.symm.trans h') (by decide)
  spares _ _ _ := .inl rfl
  closes _ _ h h' := absurd (h.symm.trans h') (by simp)
  closed _ _ h := h
  entry _ _ _ := .inr rfl
  tag b hb := by
    by_cases h : b = a
    · subst h
      simp [hb, tag]
    · simp [h]
  container b _ hf := by
    have hne : b ≠ a := fun h => hf (h ▸ touched)
    simp [hne]

end World

end ArrayBridge
