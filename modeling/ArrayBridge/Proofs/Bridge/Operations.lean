import ArrayBridge.Proofs.Bridge.Course
import ArrayBridge.Proofs.Bridge.Validation

/-!
# The operations on bridges are courses

One lemma for each operation: from a sound world, it is a course inside the footprint of the bridge,
and the looks on the way are those that `World.looks` lists.

A native write needs to know that what is written exists, and a write from the engine that the array
does. Nothing is asked about the bridge: on one that is closed, or of another element type, an
operation does nothing.
-/

namespace ArrayBridge

namespace World

variable {T : ElementType} {fp : Footprint} {w : World} {r : BridgeRef T}

/-! ## New containers -/

theorem append_addContainer (w : World) (c : Container) (v : Variant) :
    (w.addContainer c).1.append (w.addContainer c).2 v = (w.addContainer (c.append v)).1 := by
  have places : (w.containers.push c).modify w.containers.size (·.append v) =
      w.containers.push (c.append v) := by
    refine Array.ext (by simp) fun i hi _ => ?_
    rw [Array.getElem_modify, Array.getElem_push, Array.getElem_push]
    by_cases hl : i < w.containers.size
    · simp only [hl, dif_pos, Nat.ne_of_gt hl, if_false]
    · have last : w.containers.size = i := by
        simp only [Array.size_modify, Array.size_push] at hi
        omega
      rw [if_pos last, dif_neg hl, dif_neg hl]
  show { w with containers := (w.containers.push c).modify w.containers.size (·.append v) } =
    { w with containers := w.containers.push (c.append v) }
  rw [places]

/-- Values that are wrapped one by one end up in one new container, with one change for each. -/
theorem wrapAll_eq (w : World) (T : ElementType) (values : List T.Carrier) :
    w.wrapAll T values =
      w.addContainer ⟨some T.tag, T.encodeAll values, UInt64.ofNat values.length, false⟩ := by
  have fill : ∀ (values : List T.Carrier) (items : List Variant) (n : Nat),
      values.foldl (fun w' x => w'.append ⟨w.containers.size⟩ (T.encode x))
          (w.addContainer ⟨some T.tag, items, UInt64.ofNat n, false⟩).1 =
        (w.addContainer ⟨some T.tag, items ++ T.encodeAll values,
          UInt64.ofNat (n + values.length), false⟩).1 := by
    intro values
    induction values with
    | nil =>
      intro items n
      simp [ElementType.encodeAll]
    | cons x rest ih =>
      intro items n
      have one : (⟨some T.tag, items, UInt64.ofNat n, false⟩ : Container).append (T.encode x) =
          ⟨some T.tag, items ++ [T.encode x], UInt64.ofNat (n + 1), false⟩ := by
        simp [Container.append, Container.changed, UInt64.ofNat_add]
      have first := append_addContainer w ⟨some T.tag, items, UInt64.ofNat n, false⟩ (T.encode x)
      rw [one] at first
      rw [List.foldl_cons]
      refine (congrArg (List.foldl _ · rest) first).trans ((ih _ _).trans ?_)
      have length : n + 1 + rest.length = n + (x :: rest).length := by
        rw [List.length_cons, Nat.add_assoc, Nat.add_comm 1]
      rw [length, List.append_assoc]
      rfl
  have all := fill values [] 0
  rw [List.nil_append, Nat.zero_add] at all
  exact Prod.ext all rfl

theorem knows_encodeAll {values : List T.Carrier} (known : ∀ x ∈ values, w.Knows (T.encode x)) :
    ∀ v ∈ T.encodeAll values, w.Knows v := by
  intro v hv
  obtain ⟨x, hx, rfl⟩ := List.mem_map.mp hv
  exact known x hx

theorem course_wrapAll (fp : Footprint) {values : List T.Carrier}
    (known : ∀ x ∈ values, w.Knows (T.encode x)) : Course fp w [] (w.wrapAll T values).1 := by
  rw [wrapAll_eq]
  exact .addContainer w _ (knows_encodeAll known)

@[simp] theorem backing_wrapAll (w : World) (values : List T.Carrier) :
    (w.wrapAll T values).2 = ⟨w.containers.size⟩ := by
  rw [wrapAll_eq]
  rfl

/-- The container of wrapped values. -/
@[simp] theorem container_wrapAll (w : World) (values : List T.Carrier) :
    (w.wrapAll T values).1.container ⟨w.containers.size⟩ =
      ⟨some T.tag, T.encodeAll values, UInt64.ofNat values.length, false⟩ := by
  rw [wrapAll_eq]
  exact container_addContainer_self w _

@[simp] theorem size_wrapAll (w : World) (values : List T.Carrier) :
    (w.wrapAll T values).1.containers.size = w.containers.size + 1 := by
  simp [wrapAll_eq, addContainer]

@[simp] theorem objects_wrapAll (w : World) (T : ElementType) (values : List T.Carrier) :
    (w.wrapAll T values).1.objects = w.objects := by
  rw [wrapAll_eq]
  rfl

@[simp] theorem bridges_wrapAll (w : World) (T : ElementType) (values : List T.Carrier) :
    (w.wrapAll T values).1.bridges = w.bridges := by
  rw [wrapAll_eq]
  rfl

@[simp] theorem bridge?_wrapAll (values : List T.Carrier) :
    (w.wrapAll T values).1.bridge? r = w.bridge? r := by
  simp [bridge?]

/-- Tags agree with themselves. -/
@[simp] theorem same_self (tag : TypeTag) : tag.same tag = true := by
  simp [TypeTag.same]

theorem lt_wrapAll (w : World) (values : List T.Carrier) :
    (w.wrapAll T values).2.slot < (w.wrapAll T values).1.containers.size := by
  simp

/-! ## New bridges -/

/-- A bridge that is opened stands on a new container. -/
theorem openBridge_eq (w : World) (T : ElementType) (values : List T.Carrier)
    (policy : RejectionPolicy) :
    w.openBridge T values policy =
      (w.wrapAll T values).1.addBridge
        { values
          revision := some ((w.wrapAll T values).1.container (w.wrapAll T values).2).revision
          backing := (w.wrapAll T values).2
          retained := []
          policy } := rfl

@[simp] theorem slot_openBridge (w : World) (T : ElementType) (values : List T.Carrier)
    (policy : RejectionPolicy) : (w.openBridge T values policy).2.slot = w.bridges.size :=
  congrArg Array.size (bridges_wrapAll w T values)

@[simp] theorem size_openBridge (w : World) (T : ElementType) (values : List T.Carrier)
    (policy : RejectionPolicy) :
    (w.openBridge T values policy).1.bridges.size = w.bridges.size + 1 := by
  simp [openBridge_eq, addBridge]

@[simp] theorem size_newBridge (w : World) (T : ElementType) (values : List T.Carrier)
    (policy : RejectionPolicy) :
    (w.newBridge T values policy).1.bridges.size = w.bridges.size + 1 := by
  let opened := w.openBridge T values policy
  have look : Course (.bridge opened.2.slot) opened.1 _ (w.newBridge T values policy).1 :=
    .look opened.1 opened.2 rfl
  exact look.tables.2.1.trans (by simp [opened])

/-- The bridge that was opened, as it is before its first look. -/
theorem bridge?_openBridge (w : World) (T : ElementType) (values : List T.Carrier)
    (policy : RejectionPolicy) :
    (w.openBridge T values policy).1.bridge? (w.openBridge T values policy).2 =
      some
        { values
          revision := some (UInt64.ofNat values.length)
          backing := ⟨w.containers.size⟩
          retained := []
          policy } := by
  simp [openBridge_eq]

/-- All others are where they were. -/
theorem anyBridge?_openBridge_of_ne (w : World) (T : ElementType) (values : List T.Carrier)
    (policy : RejectionPolicy) {slot : Nat} (h : slot ≠ w.bridges.size) :
    (w.openBridge T values policy).1.anyBridge? slot = w.anyBridge? slot := by
  show ((w.wrapAll T values).1.bridges.push _).getD slot none = w.bridges.getD slot none
  rw [bridges_wrapAll]
  by_cases hl : slot < w.bridges.size
  · simp [Array.getD, hl, Nat.lt_succ_of_lt hl, Array.getElem_push_lt hl]
  · have out : ¬ slot < w.bridges.size + 1 := by omega
    simp [Array.getD, hl, out]

/-! ## The native view -/

/-- What is unwrapped leads nowhere that the variant does not. -/
theorem knows_of_decode {v : Variant} {x : T.Carrier} (h : w.decode T v = .ok x)
    (hv : w.Knows v) : w.Knows (T.encode x) := by
  have handle : ∀ {cls : ClassInfo} {v : Variant} {h : Handle cls},
      w.decodeHandle cls v = .ok h → v = .object h.object := by
    intro cls v h hd
    cases v with
    | object o =>
      simp only [decodeHandle, handleTo] at hd
      split at hd
      · cases hd
      · split at hd <;> cases hd
        rfl
    | _ => cases hd
  cases T with
  | handle cls =>
    have := handle (h := x) h
    subst this
    exact hv
  | optionalHandle cls =>
    cases v with
    | nil =>
      cases h
      trivial
    | _ =>
      simp only [decode, Except.map] at h
      split at h
      · cases h
      · rename_i y hy
        have := handle hy
        cases h
        rw [this] at hv
        exact hv
  | _ => trivial

theorem knows_decodeAll {items : List Variant} (known : ∀ v ∈ items, w.Knows v) :
    ∀ x ∈ w.decodeAll T items, w.Knows (T.encode x) := by
  intro x hx
  obtain ⟨v, hv, hd⟩ := List.mem_filterMap.mp hx
  refine knows_of_decode (v := v) ?_ (known v hv)
  unfold decode? at hd
  cases h : w.decode T v with
  | ok y =>
    rw [h] at hd
    cases hd
    rfl
  | error e =>
    rw [h] at hd
    cases hd

theorem course_derive (s : w.Sound) (touched : fp.bridges r.slot) :
    Course fp w [] (w.derive r) := by
  unfold derive
  cases h : w.bridge? r with
  | none => exact .refl w
  | some b =>
    have fits := s.bridge r.slot T b (bridge?_eq_some_iff.mp h)
    refine .trans (.setBridge w r h touched (by rfl) ?_) (.letGo _ _)
    exact
      { backing := fits.backing
        tag := fits.tag
        values := knows_decodeAll (s.items b.backing)
        retained := fits.retained }

/-- A native list that is derived again is derived, and then a notice says so. -/
theorem refreshed?_eq_some {w' : World} (h : w.refreshed? r = some w') :
    ∃ n, w' = (w.derive r).note n := by
  unfold refreshed? at h
  split at h
  · simp only at h
    split at h
    · cases h
    · cases h
      exact ⟨_, rfl⟩
  · cases h

theorem course_sync (s : w.Sound) (touched : fp.bridges r.slot) :
    Course fp w (w.syncLooks r) (w.sync r) := by
  unfold syncLooks sync
  cases h : w.refreshed? r with
  | none => exact .refl w
  | some w' =>
    obtain ⟨n, rfl⟩ := refreshed?_eq_some h
    have course := ((course_derive s touched).trans (.note (w.derive r) n)).trans
      (.look _ r touched)
    rwa [List.append_nil, List.append_nil] at course

theorem course_readNative (s : w.Sound) (touched : fp.bridges r.slot) :
    Course fp w (w.syncLooks r) (w.readNative r).1 := course_sync s touched

theorem course_rebuild (s : w.Sound) (touched : fp.bridges r.slot) {values : List T.Carrier}
    (known : ∀ x ∈ values, w.Knows (T.encode x)) : Course fp w [] (w.rebuild r values) := by
  unfold rebuild
  cases h : w.bridge? r with
  | none => exact .refl w
  | some b =>
    have wrap := course_wrapAll fp known
    have here : (w.wrapAll T values).1.bridge? r = some b := by simp [h]
    have fits := s.bridge r.slot T b (bridge?_eq_some_iff.mp h)
    refine (wrap.trans (.setBridge _ r here touched (by rfl) ?_)).trans (.letGo _ _)
    refine ⟨lt_wrapAll w values, ⟨T.tag, by simp, by simp⟩, fun x hx => ?_, fun o ho => ?_⟩
    · exact (known x hx).mono (by simp) (by simp)
    · simpa using fits.retained o ho

/-- Nothing is built for a bridge that is closed. -/
@[simp] theorem rebuild_of_none (h : w.bridge? r = none) (values : List T.Carrier) :
    w.rebuild r values = w := by
  unfold rebuild
  rw [h]

theorem course_writeNative (s : w.Sound) (touched : fp.bridges r.slot) {values : List T.Carrier}
    (known : ∀ x ∈ values, w.Knows (T.encode x)) :
    Course fp w (w.writeLooks r values) (w.writeNative r values) := by
  unfold writeNative
  cases h : w.bridge? r with
  | none =>
    simp only [writeLooks, rebuild_of_none, lookAt, h]
    exact .refl w
  | some b =>
    have course := ((course_rebuild s touched known).trans (.look _ r touched)).trans
      (.note _ (.rebuilt T.tag values.length))
    rwa [List.append_nil, List.nil_append] at course

theorem course_openSession (s : w.Sound) (quiet : fp.Quiet) (touched : fp.bridges r.slot) :
    Course fp w (w.syncLooks r) (w.openSession r).1 := by
  have sync := course_sync s touched
  have s' := sync.sound quiet s
  unfold openSession
  cases h : (w.sync r).bridge? r with
  | none =>
    simp only [h]
    exact sync
  | some b =>
    simp only [h]
    have fits := s'.bridge r.slot T b (bridge?_eq_some_iff.mp h)
    let bare : Bridge T := { b with values := [], revision := none }
    have fits' : (w.sync r).Fits bare :=
      { backing := fits.backing
        tag := fits.tag
        values := fun x hx => absurd hx List.not_mem_nil
        retained := fits.retained }
    have same : bare.retained = b.retained := rfl
    exact sync.trans (.setBridge (w.sync r) r h touched same fits')

/-- What a session hands out is known. -/
theorem knows_openSession (s : w.Sound) (quiet : fp.Quiet) (touched : fp.bridges r.slot) :
    ∀ x ∈ (w.openSession r).2, (w.openSession r).1.Knows (T.encode x) := by
  have s' := (course_sync s touched).sound quiet s
  unfold openSession
  cases h : (w.sync r).bridge? r with
  | none =>
    simp only [h]
    exact fun x hx => absurd hx List.not_mem_nil
  | some b =>
    simp only [h]
    intro x hx
    have fits := s'.bridge r.slot T b (bridge?_eq_some_iff.mp h)
    exact (fits.values x hx).mono (Nat.le_refl _) (Nat.le_refl _)

theorem course_pushNative (s : w.Sound) (quiet : fp.Quiet) (touched : fp.bridges r.slot)
    {x : T.Carrier} (known : w.Knows (T.encode x)) :
    Course fp w (w.pushLooks r x) (w.pushNative r x) := by
  have session := course_openSession s quiet touched
  refine session.trans (course_writeNative (session.sound quiet s) touched fun y hy => ?_)
  rcases List.mem_append.mp hy with hy | hy
  · exact knows_openSession s quiet touched y hy
  · obtain rfl : y = x := by simpa using hy
    exact (session.evolves quiet).knows known

/-! ## Arrays that come from the engine -/

theorem course_moveTo (s : w.Sound) (touched : fp.bridges r.slot) {candidate : ArrayId}
    (known : w.Knows (.array candidate)) (marked : w.MarkedFor T candidate) :
    Course fp w [] (w.moveTo r candidate) := by
  unfold moveTo
  cases h : w.bridge? r with
  | none => exact .refl w
  | some b =>
    have fits := s.bridge r.slot T b (bridge?_eq_some_iff.mp h)
    refine .trans (.setBridge w r h touched (by rfl) ?_) (.letGo _ _)
    exact ⟨known, marked, fits.values, fits.retained⟩

theorem course_takeOver (s : w.Sound) (quiet : fp.Quiet) (touched : fp.bridges r.slot)
    {candidate : ArrayId} (known : w.Knows (.array candidate))
    (marked : w.MarkedFor T candidate) : Course fp w [] (w.takeOver r candidate) := by
  have move := course_moveTo s touched known marked
  exact move.trans (course_derive (move.sound quiet s) touched)

theorem course_adopting (s : w.Sound) (quiet : fp.Quiet) (touched : fp.bridges r.slot)
    {candidate : ArrayId} (known : w.Knows (.array candidate))
    (valid : w.validate T candidate = .ok ()) : Course fp w [] (w.adopting r candidate) := by
  have note : Course fp w [] (w.note (.adopted T.tag (w.container candidate).items.length)) :=
    .note w _
  have marked := (validate_eq_ok_iff.mp valid).1
  exact note.trans (course_takeOver (note.sound quiet s) quiet touched known marked)

@[simp] theorem moveTo_of_none (h : w.bridge? r = none) (candidate : ArrayId) :
    w.moveTo r candidate = w := by
  unfold moveTo
  rw [h]

@[simp] theorem derive_of_none (h : w.bridge? r = none) : w.derive r = w := by
  unfold derive
  rw [h]

theorem course_adopt (s : w.Sound) (quiet : fp.Quiet) (touched : fp.bridges r.slot)
    {candidate : ArrayId} (known : w.Knows (.array candidate))
    (valid : w.validate T candidate = .ok ()) :
    Course fp w ((w.adopting r candidate).lookAt r) (w.adopt r candidate) := by
  cases h : w.bridge? r with
  | none =>
    have same : w.adopting r candidate =
        w.note (.adopted T.tag (w.container candidate).items.length) := by
      have h' : (w.note (.adopted T.tag (w.container candidate).items.length)).bridge? r = none := h
      simp [adopting, takeOver, h']
    have closed : (w.adopting r candidate).bridge? r = none := by
      rw [same]
      exact h
    rw [adopt, h, lookAt, closed]
    exact .refl w
  | some b =>
    have course := (course_adopting s quiet touched known valid).trans (.look _ r touched)
    rw [List.append_nil] at course
    rw [adopt, h]
    exact course

theorem course_reject (s : w.Sound) (quiet : fp.Quiet) (touched : fp.bridges r.slot)
    (reason : BridgeError) : Course fp w (w.rejectLooks r reason) (w.reject r reason) := by
  unfold rejectLooks reject
  split
  · rename_i h
    rw [h]
    have note : Course fp w [] (w.note (.rejectedResetting T.tag reason)) := .note w _
    have known : ∀ x ∈ ([] : List T.Carrier),
        (w.note (.rejectedResetting T.tag reason)).Knows (T.encode x) :=
      fun x hx => absurd hx List.not_mem_nil
    have course := note.trans (course_writeNative (note.sound quiet s) touched known)
    rwa [List.append_nil] at course
  · rename_i h
    split
    · exact .note w _
    · rename_i h'
      exact absurd h' h
    · exact .refl w

theorem course_writeUntyped (s : w.Sound) (quiet : fp.Quiet) (touched : fp.bridges r.slot)
    {candidate : ArrayId} (known : w.Knows (.array candidate)) :
    Course fp w (w.untypedLooks r candidate) (w.writeUntyped r candidate).1 := by
  unfold untypedLooks writeUntyped
  cases h : w.validate T candidate with
  | ok _ => exact course_adopt s quiet touched known h
  | error reason =>
    simp only
    split
    · have note : Course fp w [] (w.note (.rejectedOwnBacking T.tag reason)) := .note w _
      have course := note.trans (course_sync (note.sound quiet s) touched (r := r))
      rwa [List.append_nil] at course
    · exact course_reject s quiet touched reason

theorem course_setAccessor (s : w.Sound) (quiet : fp.Quiet) (touched : fp.bridges r.slot)
    {arguments : List Variant} (known : ∀ v ∈ arguments, w.Knows v) :
    Course fp w (w.setterLooks r arguments) (w.setAccessor r arguments).1 := by
  unfold setterLooks setAccessor
  cases h : arguments.head? with
  | none => exact course_reject s quiet touched _
  | some v =>
    have hv := known v (List.mem_of_head? h)
    cases v with
    | array candidate =>
      have course := course_writeUntyped s quiet touched hv
      simp only
      split
      · rename_i heq
        rw [heq] at course
        exact course
      · rename_i heq
        rw [heq] at course
        exact course
    | _ => exact course_reject s quiet touched _

/-! ## The policy -/

theorem setPolicy_eq {b : Bridge T} (h : w.bridge? r = some b) (policy : RejectionPolicy) :
    w.setPolicy r policy = w.setBridge r { b with policy } := by
  unfold setPolicy
  rw [h]

@[simp] theorem setPolicy_of_none (h : w.bridge? r = none) (policy : RejectionPolicy) :
    w.setPolicy r policy = w := by
  unfold setPolicy
  rw [h]

theorem course_setPolicy (s : w.Sound) (touched : fp.bridges r.slot) (policy : RejectionPolicy) :
    Course fp w [] (w.setPolicy r policy) := by
  cases h : w.bridge? r with
  | none =>
    rw [setPolicy_of_none h]
    exact .refl w
  | some b =>
    rw [setPolicy_eq h]
    obtain ⟨backing, tag, values, retained⟩ := s.bridge r.slot T b (bridge?_eq_some_iff.mp h)
    exact .setBridge w r h touched (by rfl) ⟨backing, tag, values, retained⟩

end World

end ArrayBridge
