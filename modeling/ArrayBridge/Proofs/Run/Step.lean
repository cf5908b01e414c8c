import ArrayBridge.Proofs.World.Edits

/-!
# What one action does

The step lemmas of runs. Most actions are courses (`course_step`); the others make objects or end
them, count references, lend and return payloads, open and close bridges, or are about the handles
kept outside. Each action stays inside its footprint (`evolves_step`) and keeps a world sound
(`Sound.step`), so that every world a run leads to is sound (`Run.sound`).
-/

namespace ArrayBridge

/-- The actions that are courses. -/
def Action.isCourse : Action → Bool
  | .allocate .. | .free .. | .reference .. | .unreference .. | .setValue .. | .lendExclusively ..
  | .lendToReader .. | .returnExclusive .. | .returnFromReader .. | .newBridge .. | .dropBridge ..
  | .keep .. | .letGo .. => false
  | _ => true

/-- A course lends nothing, returns nothing, and takes no handle. -/
theorem Action.quiet {a : Action} (h : a.isCourse = true) : a.footprint.Quiet := by
  cases a with
  | append | tryAppend | setAt | insertAt | removeAt | clear => exact Footprint.quiet_array _
  | setPolicy | readNative | writeNative | pushNative | openSession | closeSession | writeUntyped
  | setAccessor => exact Footprint.quiet_bridge _
  | newArray | duplicate | settle | note => exact Footprint.quiet_nothing
  | _ => cases h

namespace World

variable {w w' : World}

/-- The actions that are courses, with the looks they take. -/
theorem course_step (s : w.Sound) {a : Action} (h : a.isCourse = true) (allowed : a.Allowed w) :
    Course a.footprint w (w.looks a) (w.step a) := by
  have quiet := a.quiet h
  cases a with
  | newArray tag items => exact .addContainer w _ allowed
  | duplicate a => exact .addContainer w _ (s.items a)
  | append a v => exact (edits_append s a allowed).course rfl
  | tryAppend a v => exact (edits_tryAppend s a allowed).course rfl
  | setAt a index v => exact (edits_setAt s a index allowed).course rfl
  | insertAt a index v => exact (edits_insertAt s a index allowed).course rfl
  | removeAt a index => exact (edits_removeAt s a index).course rfl
  | clear a => exact (edits_clear a).course rfl
  | setPolicy r policy => exact course_setPolicy s rfl policy
  | readNative r => exact course_readNative s rfl
  | writeNative r values => exact course_writeNative s rfl allowed.2
  | pushNative r x => exact course_pushNative s quiet rfl allowed.2
  | openSession r => exact course_openSession s quiet rfl
  | closeSession r values => exact course_writeNative s rfl allowed.2
  | writeUntyped r candidate => exact course_writeUntyped s quiet rfl allowed.2
  | setAccessor r arguments => exact course_setAccessor s quiet rfl allowed.2
  | settle => exact .letGo w _
  | note n => exact .note w n
  | _ => cases h

/-! ## The other actions -/

/-- A new object, and a notice of it. -/
theorem allocate_eq (h : Heap) (w : World) (cls : ClassInfo) (payload : Payload) :
    ∃ id n, (h.allocate w cls payload).2.1 =
      (w.addObject ⟨id, cls, if cls.refcounted then 1 else 0, true, some payload, .idle⟩).1.note
        n := ⟨_, _, rfl⟩

/-- The table frees the object that an id leads to, or nothing. -/
theorem heapFree_eq (h : Heap) (w : World) (id : InstanceId) :
    (h.free w id).2.1 = w ∨ ∃ o, (h.free w id).2.1 = w.free o := by
  unfold Heap.free
  split
  · exact .inr ⟨_, rfl⟩
  · exact .inl rfl

theorem wanes_heapFree (h : Heap) (w : World) (id : InstanceId) :
    w.Wanes (h.free w id).2.1 := by
  rcases heapFree_eq h w id with he | ⟨o, he⟩
  · rw [he]
    exact .refl w
  · rw [he]
    exact wanes_free w o

/-- What is left outside was outside. -/
theorem mem_of_mem_foldl_erase {handles outside : List Variant} {v : Variant}
    (h : v ∈ handles.foldl List.erase outside) : v ∈ outside := by
  induction handles generalizing outside with
  | nil => exact h
  | cons u rest ih => exact List.mem_of_mem_erase (ih h)

theorem evolves_newBridge (w : World) (T : ElementType) (values : List T.Carrier)
    (policy : RejectionPolicy) : w.Evolves .nothing (w.newBridge T values policy).1 := by
  have quiet := Footprint.quiet_bridge w.bridges.size
  have wrap : w.Evolves (.bridge w.bridges.size) (w.wrapAll T values).1 := by
    rw [wrapAll_eq]
    exact evolves_addContainer _ w _
  have new : w.Evolves (.bridge w.bridges.size) (w.openBridge T values policy).1 :=
    wrap.trans quiet (evolves_addBridge _ _ _)
  have slot : (w.openBridge T values policy).2.slot = w.bridges.size := by simp
  have whole := new.trans quiet
    (evolves_retainBacking quiet _ (w.openBridge T values policy).2 slot)
  exact whole.within (fun _ h => h) (fun _ h => h) (fun _ h => h)
    fun _ hs he => absurd he (Nat.ne_of_lt hs)

/-- **An action stays inside its footprint.** -/
theorem evolves_step (s : w.Sound) {a : Action} (allowed : a.Allowed w) :
    w.Evolves a.footprint (w.step a) := by
  by_cases course : a.isCourse = true
  · exact (course_step s course allowed).evolves (a.quiet course)
  cases a with
  | allocate h cls payload =>
    obtain ⟨id, n, he⟩ := allocate_eq h w cls payload
    show w.Evolves .nothing (h.allocate w cls payload).2.1
    rw [he]
    exact (evolves_addObject _ w rfl).trans Footprint.quiet_nothing (evolves_note _ _ n)
  | free h id => exact (wanes_heapFree h w id).evolves _
  | reference o => exact evolves_reference _ w o
  | unreference o => exact (wanes_unreference w o).evolves _
  | setValue o n =>
    refine evolves_updateObject w o (fun _ => rfl) (fun _ => rfl) (fun c => ?_) (.inr fun _ => rfl)
    cases h : c.payload with
    | none => rfl
    | some p => rfl
  | lendExclusively o | lendToReader o | returnExclusive o | returnFromReader o =>
    exact evolves_updateObject w o (fun _ => rfl) (fun _ => rfl) (fun _ => rfl) (.inl rfl)
  | newBridge T values policy => exact evolves_newBridge w T values policy
  | dropBridge r =>
    have close : w.Evolves (.bridge r.slot) (w.closeBridge r.slot).1 := evolves_closeBridge w rfl
    exact close.trans (Footprint.quiet_bridge _) ((wanes_perform _ _).evolves _)
  | keep handles =>
    refine .of_tables (fun v hv => ?_) rfl (Nat.le_refl _) (Nat.le_refl _) (fun _ _ => rfl)
      fun _ _ => rfl
    exact (List.mem_append.mp hv).symm
  | letGo handles =>
    have fewer : w.Evolves .nothing { w with outside := handles.foldl List.erase w.outside } :=
      .of_tables (fun v hv => .inl (mem_of_mem_foldl_erase hv)) rfl (Nat.le_refl _)
        (Nat.le_refl _) (fun _ _ => rfl) fun _ _ => rfl
    exact fewer.trans Footprint.quiet_nothing ((wanes_letGo _ _).evolves _)
  | _ => exact absurd rfl course

/-- An action that is no course and no construction leaves every bridge or closes it, and makes no
new one. -/
theorem entry_step {a : Action} (course : ¬ a.isCourse = true)
    (new : ∀ T values policy, a ≠ .newBridge T values policy) :
    (w.step a).bridges.size = w.bridges.size ∧
      ∀ slot, (w.step a).anyBridge? slot = none ∨
        (w.step a).anyBridge? slot = w.anyBridge? slot := by
  cases a with
  | free heap id => exact ⟨(wanes_heapFree heap w id).bridges, (wanes_heapFree heap w id).entry⟩
  | unreference o => exact ⟨(wanes_unreference w o).bridges, (wanes_unreference w o).entry⟩
  | reference o =>
    have bridges : (w.step (.reference o)).bridges = w.bridges := (reference_tables w o).2.2.1
    exact ⟨by simp [bridges], fun slot => .inr (by simp [anyBridge?, bridges])⟩
  | newBridge T values policy => exact absurd rfl (new T values policy)
  | dropBridge r =>
    have wanes := wanes_perform (w.closeBridge r.slot).1 (w.closeBridge r.slot).2
    refine ⟨wanes.bridges.trans (by simp), ?_⟩
    intro slot
    rcases wanes.entry slot with hn | he
    · exact .inl hn
    · rw [anyBridge?_closeBridge] at he
      split at he
      · exact .inl he
      · exact .inr he
  | letGo handles =>
    have wanes := wanes_letGo { w with outside := handles.foldl List.erase w.outside } handles
    exact ⟨wanes.bridges, wanes.entry⟩
  | allocate | setValue | lendExclusively | lendToReader | returnExclusive | returnFromReader
  | keep => exact ⟨rfl, fun _ => .inr rfl⟩
  | _ => exact absurd rfl course

/-- **What an action does to a container that exists**: nothing, or one change. -/
theorem step_container (s : w.Sound) {x : Action} (allowed : x.Allowed w) {a : ArrayId}
    (known : w.Knows (.array a)) :
    (((w.step x).container a).items = (w.container a).items ∧
        ((w.step x).container a).revision = (w.container a).revision) ∨
      ((w.step x).container a).revision = (w.container a).revision + 1 := by
  by_cases touched : x.footprint.arrays a
  · cases x with
    | append c v => cases touched; exact (edits_append s _ allowed).revision known
    | tryAppend c v => cases touched; exact (edits_tryAppend s _ allowed).revision known
    | setAt c i v => cases touched; exact (edits_setAt s _ i allowed).revision known
    | insertAt c i v => cases touched; exact (edits_insertAt s _ i allowed).revision known
    | removeAt c i => cases touched; exact (edits_removeAt s _ i).revision known
    | clear c => cases touched; exact (edits_clear _).revision known
    | _ => exact touched.elim
  · exact .inl ((evolves_step s allowed).container a known touched)

/-- A bridge that is dropped is closed. -/
theorem anyBridge?_dropBridge {T : ElementType} (w : World) (r : BridgeRef T) :
    (w.dropBridge r).anyBridge? r.slot = none := by
  have shut : (w.closeBridge r.slot).1.anyBridge? r.slot = none := by
    rw [anyBridge?_closeBridge, if_pos rfl]
  rcases (wanes_perform (w.closeBridge r.slot).1 (w.closeBridge r.slot).2).entry r.slot with
    none | same
  · exact none
  · exact same.trans shut

/-! ## Soundness -/

/-- A change to one object that leaves its bridges, and after which the object is lent out only if
its payload is there and a handle is outside. -/
theorem Sound.updateObject (s : w.Sound) (o : ObjectId) {f : ObjectCell → ObjectCell}
    (fields : ∀ c, (f c).payload.map Payload.fields = c.payload.map Payload.fields)
    (lent : (f (w.object o)).borrow ≠ .idle →
      Variant.object o ∈ w.outside ∧ (w.fields? o).isSome) : (w.updateObject o f).Sound := by
  have size : (w.updateObject o f).objects.size = w.objects.size := by simp [World.updateObject]
  have read : ∀ p, p.slot < w.objects.size →
      (w.updateObject o f).object p = if p = o then f (w.object p) else w.object p :=
    fun _ => object_updateObject_of_lt
  have same : ∀ p, p.slot < w.objects.size → (w.updateObject o f).fields? p = w.fields? p := by
    intro p hs
    rw [fields?, read p hs]
    split
    · exact fields _
    · rfl
  have kept : ∀ p, ((w.updateObject o f).object p).borrow ≠ .idle →
      Variant.object p ∈ w.outside ∧ ((w.updateObject o f).fields? p).isSome := by
    intro p hp
    have hs : p.slot < w.objects.size := by
      rw [← size]
      exact lt_of_lent hp
    rw [same p hs]
    rw [read p hs] at hp
    split at hp
    · rename_i heq
      subst heq
      exact lent hp
    · exact ⟨s.held p hp, s.lent p hp⟩
  exact
    { items := fun a v hv => (s.items a v hv).mono (Nat.le_of_eq size.symm) (Nat.le_refl _)
      bridge := fun slot T b hb => by
        obtain ⟨backing, tag, values, retained⟩ := s.bridge slot T b hb
        exact ⟨backing, tag,
          fun x hx => (values x hx).mono (Nat.le_of_eq size.symm) (Nat.le_refl _),
          fun p hp => by rw [size]; exact retained p hp⟩
      fields := fun p fs h => by
        rw [same p (by rw [← size]; exact lt_of_fields? h)] at h
        exact s.fields p fs h
      held := fun p hp => (kept p hp).1
      lent := fun p hp => (kept p hp).2 }

/-- A new object that nobody looks at yet, with bridges that exist. -/
theorem Sound.addObject (s : w.Sound) {cell : ObjectCell} (idle : cell.borrow = .idle)
    (fields : ∀ p, cell.payload = some p → ∀ f ∈ p.fields,
      f.target.ref.slot < w.bridges.size) : (w.addObject cell).1.Sound := by
  have step := evolves_addObject .nothing w idle
  have old : ∀ o, ((w.addObject cell).1.object o).borrow ≠ .idle →
      (w.addObject cell).1.object o = w.object o := by
    intro o ho
    rcases object_addObject cell o with ⟨hc, _⟩ | hs
    · rw [hc] at ho
      exact absurd idle ho
    · exact hs
  exact
    { items := fun a v hv => step.knows (s.items a v hv)
      bridge := fun slot T b hb => (s.bridge slot T b hb).evolve step
      fields := fun o fs h f hf => by
        rcases object_addObject cell o with ⟨hc, _⟩ | hs
        · rw [World.fields?, hc] at h
          obtain ⟨p, hp, rfl⟩ := Option.map_eq_some_iff.mp h
          exact fields p hp f hf
        · rw [World.fields?, hs] at h
          exact s.fields o fs h f hf
      held := fun o ho => s.held o (by rwa [old o ho] at ho)
      lent := fun o ho => by
        rw [World.fields?, old o ho]
        exact s.lent o (by rwa [old o ho] at ho) }

theorem Sound.note (s : w.Sound) (n : Notice) : (w.note n).Sound := s.wane (wanes_note w n)

/-- Other handles outside, with one on every object whose payload is lent out. -/
theorem Sound.withOutside (s : w.Sound) {outside : List Variant}
    (held : ∀ o, (w.object o).borrow ≠ .idle → Variant.object o ∈ outside) :
    { w with outside }.Sound where
  items := s.items
  bridge slot T b hb := by
    obtain ⟨backing, tag, values, retained⟩ := s.bridge slot T b hb
    exact ⟨backing, tag, values, retained⟩
  fields := s.fields
  held := held
  lent := s.lent

/-- A new bridge that fits. -/
theorem Sound.addBridge (s : w.Sound) {T : ElementType} {b : Bridge T} (fits : w.Fits b) :
    (w.addBridge b).1.Sound := by
  have step := evolves_addBridge .nothing w b
  refine
    { items := s.items
      bridge := fun slot U c hc => ?_
      fields := fun o fs h f hf => Nat.lt_of_lt_of_le (s.fields o fs h f hf) step.bridges
      held := s.held
      lent := s.lent }
  rcases Nat.lt_trichotomy slot w.bridges.size with hl | he | hg
  · have same : (w.addBridge b).1.anyBridge? slot = w.anyBridge? slot := by
      simp [anyBridge?, World.addBridge, Array.getD, hl, Nat.lt_succ_of_lt hl,
        Array.getElem_push_lt hl]
    rw [same] at hc
    exact (s.bridge slot U c hc).evolve step
  · subst he
    have new : (w.addBridge b).1.anyBridge? w.bridges.size = some ⟨T, b⟩ := by
      simp [anyBridge?, World.addBridge]
    rw [new] at hc
    cases hc
    exact fits.evolve step
  · have out := lt_of_anyBridge? hc
    simp only [World.addBridge, Array.size_push] at out
    omega

theorem Sound.openBridge (s : w.Sound) {T : ElementType} {values : List T.Carrier}
    (known : ∀ x ∈ values, w.Knows (T.encode x)) (policy : RejectionPolicy) :
    (w.openBridge T values policy).1.Sound := by
  have wrap : Course .nothing w [] (w.wrapAll T values).1 := course_wrapAll _ known
  have evolves := wrap.evolves Footprint.quiet_nothing
  rw [openBridge_eq]
  refine (wrap.sound Footprint.quiet_nothing s).addBridge
    ⟨lt_wrapAll w values, ⟨T.tag, by simp, by simp⟩, fun x hx => evolves.knows (known x hx),
      fun o ho => absurd ho List.not_mem_nil⟩

/-- A bridge is closed. -/
theorem Sound.closeBridge (s : w.Sound) (slot : Nat) : (w.closeBridge slot).1.Sound := by
  have step : w.Evolves (.bridge slot) (w.closeBridge slot).1 := evolves_closeBridge w rfl
  refine s.evolve step (Footprint.quiet_bridge slot) (by simp) (by simp) (fun a v hv => ?_)
    fun s' T b hb => ?_
  · rw [container_closeBridge] at hv
    exact step.knows (s.items a v hv)
  · rw [anyBridge?_closeBridge] at hb
    split at hb
    · cases hb
    · exact (s.bridge s' T b hb).evolve step

/-- **An action keeps a world sound.** -/
theorem Sound.step (s : w.Sound) {a : Action} (allowed : a.Allowed w) : (w.step a).Sound := by
  by_cases course : a.isCourse = true
  · exact (course_step s course allowed).sound (a.quiet course) s
  cases a with
  | allocate h cls payload =>
    obtain ⟨id, n, he⟩ := allocate_eq h w cls payload
    show World.Sound (h.allocate w cls payload).2.1
    rw [he]
    refine (s.addObject rfl fun p hp => ?_).note n
    cases hp
    exact allowed
  | free h id => exact s.wane (wanes_heapFree h w id)
  | reference o =>
    show World.Sound (w.reference o).1
    unfold reference
    split
    · exact s.updateObject o (fun _ => rfl) fun lent => ⟨s.held o lent, s.lent o lent⟩
    · exact s
  | unreference o => exact s.wane (wanes_unreference w o)
  | setValue o n =>
    refine s.updateObject o (fun c => ?_) fun lent => ⟨s.held o lent, s.lent o lent⟩
    cases h : c.payload with
    | none => rfl
    | some p => rfl
  | lendExclusively o =>
    refine s.updateObject o (fun _ => rfl) fun _ => ⟨allowed.1, ?_⟩
    have there := allowed.2
    unfold writable? at there
    split at there
    · simpa [fields?] using there
    · cases there
  | lendToReader o =>
    refine s.updateObject o (fun _ => rfl) fun _ => ⟨allowed.1, ?_⟩
    have there := allowed.2
    unfold readable? at there
    split at there
    · cases there
    · simpa [fields?] using there
  | returnExclusive o => exact s.updateObject o (fun _ => rfl) fun lent => absurd rfl lent
  | returnFromReader o =>
    obtain ⟨readers, hr⟩ := allowed
    have lent : (w.object o).borrow ≠ .idle := by
      rw [hr]
      exact Borrow.noConfusion
    exact s.updateObject o (fun _ => rfl) fun _ => ⟨s.held o lent, s.lent o lent⟩
  | newBridge T values policy =>
    have new := s.openBridge allowed policy
    have look : Course (.bridge (w.openBridge T values policy).2.slot) _ _ _ :=
      .look (w.openBridge T values policy).1 (w.openBridge T values policy).2 rfl
    exact look.sound (Footprint.quiet_bridge _) new
  | dropBridge r => exact (s.closeBridge r.slot).wane (wanes_perform _ _)
  | keep handles =>
    exact s.withOutside fun o lent => List.mem_append.mpr (.inr (s.held o lent))
  | letGo handles => exact (s.withOutside allowed).wane (wanes_letGo _ _)
  | _ => exact absurd rfl course

end World

/-- **Every world that a run leads to is sound.** -/
theorem Run.sound {past : List Event} {w : World} (run : Run past w) : w.Sound := by
  induction run with
  | start => exact World.sound_empty
  | step run a allowed ih => exact ih.step allowed

end ArrayBridge
