import ArrayBridge.Proofs.Bridge.Operations
import ArrayBridge.Proofs.World.Codec

/-!
# What a bridge holds after an operation

For a bridge that is open and guarded, each operation leaves an entry that can be written down:
which container, which native list, which revision, which references. One lemma for each operation
says so, and later modules unfold no operation any more.

What else may happen, to other objects and other bridges, is the business of `Course`.
-/

namespace ArrayBridge

namespace World

variable {T : ElementType} {w : World} {r : BridgeRef T} {b : Bridge T}

/-- What a bridge shows when its list is derived from its container. -/
def derived (w : World) (b : Bridge T) : Bridge T :=
  { b with
    values := w.decodeAll T (w.container b.backing).items
    revision := some (w.container b.backing).revision }

/-- A bridge on the next new container, with the values. -/
def rebuilt (w : World) (b : Bridge T) (values : List T.Carrier) : Bridge T :=
  { b with
    values
    revision := some (UInt64.ofNat values.length)
    backing := ⟨w.containers.size⟩ }

/-- The native list is that of the container as it is. -/
def IsCurrent (w : World) (b : Bridge T) : Prop :=
  b.revision = some (w.container b.backing).revision

instance (w : World) (b : Bridge T) : Decidable (w.IsCurrent b) :=
  inferInstanceAs (Decidable (b.revision = some (w.container b.backing).revision))

theorem bridge?_letGo (g : w.Guarded r.slot) (handles : List Variant) :
    (w.letGo handles).bridge? r = w.bridge? r := (wanes_letGo w handles).bridge? g

/-- Another entry for a bridge leaves it as guarded as it was. -/
theorem Guarded.setBridge {slot : Nat} (g : w.Guarded slot) (b : Bridge T) :
    (w.setBridge r b).Guarded slot := g

theorem Guarded.note {slot : Nat} (g : w.Guarded slot) (n : Notice) : (w.note n).Guarded slot := g

theorem Guarded.derive (g : w.Guarded r.slot) : (w.derive r).Guarded r.slot := by
  unfold World.derive
  split
  · exact (g.setBridge _).wane (wanes_letGo _ _)
  · exact g

theorem bridge?_derive (g : w.Guarded r.slot) (h : w.bridge? r = some b) :
    (w.derive r).bridge? r = some (w.derived b) := by
  unfold derive
  rw [h]
  exact (bridge?_letGo (g.setBridge _) _).trans (bridge?_setBridge h)

theorem bridge?_retainBacking (g : w.Guarded r.slot) (h : w.bridge? r = some b) :
    (w.retainBacking r).bridge? r = some { b with retained := w.inSight b } := by
  have quiet := Footprint.quiet_bridge r.slot
  have secured : w.Evolves (.bridge r.slot) (w.secured r b) := evolves_secured quiet h rfl
  obtain ⟨objects, _, _, outside⟩ := secured_tables w r b
  have guarded := g.evolve secured quiet objects outside
  rw [(wanes_retainBacking h).bridge? guarded, bridge?_eq_some_iff, anyBridge?_secured h,
    if_pos rfl]

theorem Guarded.retainBacking (g : w.Guarded r.slot) : (w.retainBacking r).Guarded r.slot := by
  have look : Course (.bridge r.slot) w _ (w.retainBacking r) := .look w r rfl
  exact look.guarded (Footprint.quiet_bridge r.slot) g

/-! ## Reading -/

theorem refreshed?_of_current (h : w.bridge? r = some b) (current : w.IsCurrent b) :
    w.refreshed? r = none := by
  unfold refreshed?
  rw [h]
  exact if_pos current

theorem refreshed?_of_stale (h : w.bridge? r = some b) (stale : ¬ w.IsCurrent b) :
    ∃ n, w.refreshed? r = some ((w.derive r).note n) := by
  unfold refreshed?
  rw [h]
  exact ⟨_, if_neg stale⟩

/-- A bridge that is current is left alone. -/
theorem sync_of_current (h : w.bridge? r = some b) (current : w.IsCurrent b) : w.sync r = w := by
  unfold sync
  rw [refreshed?_of_current h current]

/-- A bridge that is not is derived again, and looks. -/
theorem bridge?_sync_of_stale (g : w.Guarded r.slot) (h : w.bridge? r = some b)
    (stale : ¬ w.IsCurrent b) :
    ∃ retained, (w.sync r).bridge? r = some { w.derived b with retained } := by
  obtain ⟨n, hn⟩ := refreshed?_of_stale h stale
  have here : ((w.derive r).note n).bridge? r = some (w.derived b) := bridge?_derive g h
  have guarded : ((w.derive r).note n).Guarded r.slot := g.derive.note n
  unfold sync
  rw [hn]
  exact ⟨_, bridge?_retainBacking guarded here⟩

/-- A closed bridge is left alone. -/
@[simp] theorem sync_of_none (h : w.bridge? r = none) : w.sync r = w := by
  unfold sync refreshed?
  rw [h]

theorem nativeValues_eq (h : w.bridge? r = some b) : w.nativeValues r = b.values := by
  unfold nativeValues
  rw [h]

/-- **What a native read answers.** -/
theorem readNative_eq (g : w.Guarded r.slot) (h : w.bridge? r = some b) :
    (w.readNative r).2 =
      if w.IsCurrent b then b.values else w.decodeAll T (w.container b.backing).items := by
  show (w.sync r).nativeValues r = _
  by_cases current : w.IsCurrent b
  · rw [sync_of_current h current, nativeValues_eq h, if_pos current]
  · obtain ⟨retained, synced⟩ := bridge?_sync_of_stale g h current
    rw [nativeValues_eq synced, if_neg current]
    rfl

/-! ## Writing -/

theorem Guarded.wrapAll {slot : Nat} (g : w.Guarded slot) (values : List T.Carrier) :
    (w.wrapAll T values).1.Guarded slot := by
  rw [wrapAll_eq]
  exact g

theorem bridge?_rebuild (g : w.Guarded r.slot) (h : w.bridge? r = some b)
    (values : List T.Carrier) :
    (w.rebuild r values).bridge? r = some (w.rebuilt b values) := by
  have place : r.slot < (w.wrapAll T values).1.bridges.size := by simp [lt_of_bridge? h]
  have entry : ({ b with
      values
      revision := some ((w.wrapAll T values).1.container (w.wrapAll T values).2).revision
      backing := (w.wrapAll T values).2 } : Bridge T) = w.rebuilt b values := by
    simp [rebuilt]
  unfold rebuild
  rw [h]
  refine (bridge?_letGo ((g.wrapAll values).setBridge _) _).trans ?_
  exact (bridge?_setBridge_self place).trans (congrArg some entry)

/-- The new container holds the values, with the mark of the type, and nothing else. -/
theorem container_rebuild (h : w.bridge? r = some b) (values : List T.Carrier) :
    ((w.rebuild r values).container ⟨w.containers.size⟩).tag = some T.tag ∧
      ((w.rebuild r values).container ⟨w.containers.size⟩).items = T.encodeAll values ∧
      ((w.rebuild r values).container ⟨w.containers.size⟩).revision =
        UInt64.ofNat values.length := by
  have new := container_wrapAll (T := T) w values
  unfold rebuild
  rw [h]
  obtain ⟨tag, items, revision⟩ := (wanes_letGo ((w.wrapAll T values).1.setBridge r _)
    (.array b.backing :: T.encodeAll b.values)).container ⟨w.containers.size⟩
  refine ⟨tag.trans (congrArg Container.tag new), items.trans (congrArg Container.items new),
    revision.trans (congrArg Container.revision new)⟩

theorem Guarded.rebuild (g : w.Guarded r.slot) (values : List T.Carrier) :
    (w.rebuild r values).Guarded r.slot := by
  unfold World.rebuild
  split
  · exact ((g.wrapAll values).setBridge _).wane (wanes_letGo _ _)
  · exact g

theorem bridge?_writeNative (g : w.Guarded r.slot) (h : w.bridge? r = some b)
    (values : List T.Carrier) :
    (w.writeNative r values).bridge? r =
      some { w.rebuilt b values with
        retained := (w.rebuild r values).inSight (w.rebuilt b values) } := by
  unfold writeNative
  rw [h]
  exact bridge?_retainBacking (g.rebuild values) (bridge?_rebuild g h values)

/-- Looking leaves every container. -/
theorem container_retainBacking (w : World) (r : BridgeRef T) (a : ArrayId) :
    ((w.retainBacking r).container a).tag = (w.container a).tag ∧
      ((w.retainBacking r).container a).items = (w.container a).items ∧
      ((w.retainBacking r).container a).revision = (w.container a).revision := by
  cases h : w.bridge? r with
  | none => simp [h]
  | some b => simpa [World.container] using (wanes_retainBacking h).container a

theorem Guarded.writeNative (g : w.Guarded r.slot) (values : List T.Carrier) :
    (w.writeNative r values).Guarded r.slot := by
  unfold World.writeNative
  split
  · exact (g.rebuild values).retainBacking.note _
  · exact g

theorem container_writeNative (h : w.bridge? r = some b) (values : List T.Carrier) :
    ((w.writeNative r values).container ⟨w.containers.size⟩).tag = some T.tag ∧
      ((w.writeNative r values).container ⟨w.containers.size⟩).items = T.encodeAll values ∧
      ((w.writeNative r values).container ⟨w.containers.size⟩).revision =
        UInt64.ofNat values.length := by
  obtain ⟨tag, items, revision⟩ := container_rebuild h values
  obtain ⟨tag', items', revision'⟩ :=
    container_retainBacking (w.rebuild r values) r ⟨w.containers.size⟩
  unfold writeNative
  rw [h]
  exact ⟨tag'.trans tag, items'.trans items, revision'.trans revision⟩

/-- A closed bridge is not written to. -/
@[simp] theorem writeNative_of_none (h : w.bridge? r = none) (values : List T.Carrier) :
    w.writeNative r values = w := by
  unfold writeNative
  rw [h]

/-! ## Sessions -/

theorem openSession_eq (h : (w.sync r).bridge? r = some b) :
    w.openSession r =
      ((w.sync r).setBridge r { b with values := [], revision := none }, b.values) := by
  unfold openSession
  simp only [h]

@[simp] theorem openSession_of_none (h : w.bridge? r = none) : w.openSession r = (w, []) := by
  simp [openSession, h]

@[simp] theorem pushNative_of_none (h : w.bridge? r = none) (x : T.Carrier) :
    w.pushNative r x = w := by
  simp [pushNative, closeSession, h]

/-! ## Construction -/

/-- Nothing has the place of the next bridge in its payload. -/
theorem Sound.guarded_new (s : w.Sound) (values : List T.Carrier) (policy : RejectionPolicy) :
    (w.openBridge T values policy).1.Guarded w.bridges.size := by
  rintro o fields ho ⟨f, hf, hs⟩
  have before : w.fields? o = some fields := by
    rw [openBridge_eq, wrapAll_eq] at ho
    exact ho
  exact absurd hs (Nat.ne_of_lt (s.fields o fields before f hf))

theorem Sound.guarded_opened (s : w.Sound) (values : List T.Carrier) (policy : RejectionPolicy) :
    (w.openBridge T values policy).1.Guarded (w.openBridge T values policy).2.slot := by
  simpa using s.guarded_new values policy

theorem Sound.guarded_newBridge (s : w.Sound) (values : List T.Carrier) (policy : RejectionPolicy) :
    (w.newBridge T values policy).1.Guarded (w.newBridge T values policy).2.slot :=
  (s.guarded_opened values policy).retainBacking

theorem bridge?_newBridge (s : w.Sound) (values : List T.Carrier) (policy : RejectionPolicy) :
    ∃ retained, (w.newBridge T values policy).1.bridge? (w.newBridge T values policy).2 =
      some
        { values
          revision := some (UInt64.ofNat values.length)
          backing := ⟨w.containers.size⟩
          retained
          policy } :=
  ⟨_, bridge?_retainBacking (s.guarded_opened values policy) (bridge?_openBridge w T values policy)⟩

theorem container_newBridge (w : World) (values : List T.Carrier) (policy : RejectionPolicy) :
    ((w.newBridge T values policy).1.container ⟨w.containers.size⟩).tag = some T.tag ∧
      ((w.newBridge T values policy).1.container ⟨w.containers.size⟩).items =
        T.encodeAll values ∧
      ((w.newBridge T values policy).1.container ⟨w.containers.size⟩).revision =
        UInt64.ofNat values.length := by
  have new := container_wrapAll (T := T) w values
  obtain ⟨tag, items, revision⟩ := container_retainBacking (w.openBridge T values policy).1
    (w.openBridge T values policy).2 ⟨w.containers.size⟩
  exact ⟨tag.trans (congrArg Container.tag new), items.trans (congrArg Container.items new),
    revision.trans (congrArg Container.revision new)⟩

/-! ## Taking over -/

/-- A bridge on the container of someone else, with its list and its references still as before. -/
def moved (b : Bridge T) (candidate : ArrayId) : Bridge T := { b with backing := candidate }

theorem bridge?_moveTo (g : w.Guarded r.slot) (h : w.bridge? r = some b) (candidate : ArrayId) :
    (w.moveTo r candidate).bridge? r = some (moved b candidate) := by
  unfold moveTo
  rw [h]
  exact (bridge?_letGo (g.setBridge _) _).trans (bridge?_setBridge h)

theorem Guarded.moveTo (g : w.Guarded r.slot) (candidate : ArrayId) :
    (w.moveTo r candidate).Guarded r.slot := by
  unfold World.moveTo
  split
  · exact (g.setBridge _).wane (wanes_letGo _ _)
  · exact g

/-- Moving a bridge leaves every container. -/
theorem container_moveTo (w : World) (r : BridgeRef T) (candidate a : ArrayId) :
    ((w.moveTo r candidate).container a).tag = (w.container a).tag ∧
      ((w.moveTo r candidate).container a).items = (w.container a).items ∧
      ((w.moveTo r candidate).container a).revision = (w.container a).revision := by
  unfold moveTo
  split
  · exact (wanes_letGo (w.setBridge r _) _).container a
  · exact ⟨rfl, rfl, rfl⟩

/-- The moment of a write that passed the check, when the former container was let go of and the new
elements were not yet unwrapped. -/
def between (w : World) (r : BridgeRef T) (candidate : ArrayId) : World :=
  (w.note (.adopted T.tag (w.container candidate).items.length)).moveTo r candidate

theorem course_between {fp : Footprint} (s : w.Sound) (quiet : fp.Quiet)
    (touched : fp.bridges r.slot) {candidate : ArrayId} (known : w.Knows (.array candidate))
    (valid : w.validate T candidate = .ok ()) : Course fp w [] (w.between r candidate) := by
  have note : Course fp w [] (w.note (.adopted T.tag (w.container candidate).items.length)) :=
    .note w _
  have marked := (validate_eq_ok_iff.mp valid).1
  exact note.trans (course_moveTo (note.sound quiet s) touched known marked)

/-- **What a bridge is after it took a container over**: the list is what its elements unwrap to
once the former container was let go of. -/
theorem bridge?_adopt (g : w.Guarded r.slot) (h : w.bridge? r = some b) (candidate : ArrayId) :
    let seen := (w.between r candidate).derived (moved b candidate)
    (w.adopt r candidate).bridge? r =
      some { seen with retained := (w.adopting r candidate).inSight seen } := by
  intro seen
  let n := w.note (.adopted T.tag (w.container candidate).items.length)
  have noted : n.bridge? r = some b := h
  have guarded : n.Guarded r.slot := g.note _
  have there : (w.between r candidate).bridge? r = some (moved b candidate) :=
    bridge?_moveTo guarded noted candidate
  have derived := bridge?_derive (guarded.moveTo candidate) there
  unfold adopt
  rw [h]
  exact bridge?_retainBacking (guarded.moveTo candidate).derive derived

@[simp] theorem adopt_of_none (h : w.bridge? r = none) (candidate : ArrayId) :
    w.adopt r candidate = w := by
  unfold adopt
  rw [h]

end World

end ArrayBridge
