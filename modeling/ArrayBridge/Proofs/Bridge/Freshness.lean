import ArrayBridge.Proofs.Bridge.Writes

/-!
# How far a native list is behind its container

A bridge notes the revision that its native list is of, and not the container. The list may be read
as it is only if the container shows that revision *and* has not been changed since. So what is kept
of a bridge is a distance: how often its container was changed since the list was noted, up to a
bound (`Behind`). At distance zero the list is that of the container (`Tracks`). A revision has 64
bits, so one that is shown again after fewer than `UInt64.size` changes is at distance zero
(`Behind.agree`).

Each access to the native list, and each write from the engine that changes anything, brings the
distance back to zero, or leaves the bridge without a list.
-/

namespace ArrayBridge

namespace World

variable {T : ElementType} {w w' : World} {r : BridgeRef T} {b : Bridge T} {fp : Footprint}

/-- A native list shows what a container holds: in order and as often, without handles on freed
objects, and with one NaN for all. -/
def Shows (w : World) (T : ElementType) (values : List T.Carrier) (items : List Variant) : Prop :=
  (values.filter (w.standing T)).map T.canonical = (w.decodeAll T items).map T.canonical

/-- A list that shows what a container holds does so whatever falls. -/
theorem Shows.evolve {values : List T.Carrier} {items : List Variant} (h : w.Shows T values items)
    (step : w.Evolves fp w') (values_known : ∀ x ∈ values, w.Knows (T.encode x))
    (items_known : ∀ v ∈ items, w.Knows v) : w'.Shows T values items := by
  calc (values.filter (w'.standing T)).map T.canonical
    _ = ((values.filter (w.standing T)).filter (w'.standing T)).map T.canonical := by
        rw [filter_standing_evolve step values_known]
    _ = ((values.filter (w.standing T)).map T.canonical).filter (w'.standing T) :=
        (filter_map_canonical w' _).symm
    _ = ((w.decodeAll T items).map T.canonical).filter (w'.standing T) := by rw [h]
    _ = ((w.decodeAll T items).filter (w'.standing T)).map T.canonical := filter_map_canonical w' _
    _ = (w'.decodeAll T items).map T.canonical := by rw [decodeAll_evolve step items_known]

/-- Where nothing can fall, the two are equal. -/
theorem Shows.of_scalar {values : List T.Carrier} {items : List Variant}
    (h : w.Shows T values items) (scalar : T.class? = none) :
    values.map T.canonical = (w.decodeAll T items).map T.canonical := by
  have all : values.filter (w.standing T) = values :=
    List.filter_eq_self.mpr fun x _ => standing_of_scalar scalar x
  rw [Shows, all] at h
  exact h

/-! ## Distances -/

/-- Fewer changes than there are revisions lead back to a revision only if there were none. -/
theorem eq_zero_of_shown_again {n : UInt64} {k : Nat} (few : k < UInt64.size)
    (again : n + UInt64.ofNat k = n) : k = 0 := by
  have zero : UInt64.ofNat k = 0 := UInt64.add_eq_left.mp again
  have back : (UInt64.ofNat k).toNat = k := UInt64.toNat_ofNat_of_lt' few
  rw [zero] at back
  exact back.symm

/-- A bridge is behind its container by no more changes than a bound, and at distance zero the two
agree, in whatever sense. A bridge without a list is behind by nothing. -/
def Behind (w : World) (changes : Nat) (b : Bridge T) (agree : Prop) : Prop :=
  ∀ n, b.revision = some n → ∃ m ≤ changes,
    (w.container b.backing).revision = n + UInt64.ofNat m ∧ (m = 0 → agree)

namespace Behind

variable {k l : Nat} {P Q : Prop}

theorem mono (h : w.Behind k b P) (le : k ≤ l) : w.Behind l b P := by
  intro n hn
  obtain ⟨m, hm, rest⟩ := h n hn
  exact ⟨m, Nat.le_trans hm le, rest⟩

theorem of_current (current : w.IsCurrent b) (agree : P) : w.Behind 0 b P := by
  intro n hn
  refine ⟨0, Nat.le_refl 0, ?_, fun _ => agree⟩
  cases hn.symm.trans current
  exact (UInt64.add_zero _).symm

theorem of_none (revision : b.revision = none) : w.Behind 0 b P := by
  intro n hn
  rw [revision] at hn
  cases hn

/-- **A revision tells.** A container that shows the noted revision, after fewer changes than there
are revisions, was not changed. -/
theorem agree (h : w.Behind k b P) (few : k < UInt64.size) (current : w.IsCurrent b) : P := by
  obtain ⟨m, hm, revision, agree⟩ := h _ current
  exact agree (eq_zero_of_shown_again (Nat.lt_of_le_of_lt hm few) revision.symm)

/-- The distance stays where the container is left alone. -/
theorem still (h : w.Behind k b P)
    (revision : (w'.container b.backing).revision = (w.container b.backing).revision)
    (agree : P → Q) : w'.Behind k b Q := by
  intro n hn
  obtain ⟨m, hm, distance, before⟩ := h n hn
  exact ⟨m, hm, revision.trans distance, fun zero => agree (before zero)⟩

/-- The distance grows by one where the container is changed. -/
theorem further (h : w.Behind k b P)
    (revision : (w'.container b.backing).revision = (w.container b.backing).revision + 1) :
    w'.Behind (k + 1) b Q := by
  intro n hn
  obtain ⟨m, hm, distance, _⟩ := h n hn
  refine ⟨m + 1, Nat.succ_le_succ hm, ?_, fun zero => absurd zero (Nat.succ_ne_zero m)⟩
  rw [revision, distance, UInt64.ofNat_add, UInt64.add_assoc]
  rfl

end Behind

/-- **The distance of a list from its container.** -/
structure Tracks (w : World) (changes : Nat) (b : Bridge T) : Prop where
  befits : ∀ x ∈ b.values, w.Befits T x
  distance : ∀ n, b.revision = some n → ∃ m ≤ changes,
    (w.container b.backing).revision = n + UInt64.ofNat m ∧
      (m = 0 → w.Shows T b.values (w.container b.backing).items)

namespace Tracks

variable {k l : Nat}

/-- The distance of a list, as that of the bridge. -/
theorem behind (h : w.Tracks k b) :
    w.Behind k b (w.Shows T b.values (w.container b.backing).items) := h.distance

theorem mono (h : w.Tracks k b) (le : k ≤ l) : w.Tracks l b where
  befits := h.befits
  distance := h.behind.mono le

/-- A list that was just noted. -/
theorem of_current (befits : ∀ x ∈ b.values, w.Befits T x) (current : w.IsCurrent b)
    (shows : w.Shows T b.values (w.container b.backing).items) : w.Tracks 0 b where
  befits := befits
  distance := Behind.of_current current shows

/-- A bridge without a list. -/
theorem of_session (values : b.values = []) (revision : b.revision = none) : w.Tracks 0 b where
  befits x hx := by
    rw [values] at hx
    cases hx
  distance := Behind.of_none revision

/-- A list at the revision that its container shows is that of the container. -/
theorem shows (h : w.Tracks k b) (few : k < UInt64.size) (current : w.IsCurrent b) :
    w.Shows T b.values (w.container b.backing).items := h.behind.agree few current

/-- The distance stays where the container is left alone. -/
theorem still (h : w.Tracks k b) (s : w.Sound) (fits : w.Fits b) (step : w.Evolves fp w')
    (items : (w'.container b.backing).items = (w.container b.backing).items)
    (revision : (w'.container b.backing).revision = (w.container b.backing).revision) :
    w'.Tracks k b where
  befits x hx := (h.befits x hx).evolve step (fits.values x hx)
  distance := h.behind.still revision fun shows => by
    rw [items]
    exact shows.evolve step fits.values (s.items b.backing)

end Tracks

/-! ## Lists that were just derived or written -/

/-- A list that was derived shows its container, then and in later worlds. -/
theorem tracks_of_derived (s : w.Sound) (step : w.Evolves fp w')
    (known : w.Knows (.array b.backing)) (untouched : ¬ fp.arrays b.backing)
    (values : b.values = w.decodeAll T (w.container b.backing).items)
    (revision : b.revision = some (w.container b.backing).revision) :
    w'.IsCurrent b ∧ w'.Tracks 0 b := by
  obtain ⟨items, revision'⟩ := step.container b.backing known untouched
  have current : w'.IsCurrent b := revision.trans (congrArg some revision'.symm)
  refine ⟨current, .of_current (fun x hx => ?_) current ?_⟩
  · rw [values] at hx
    obtain ⟨v, _, hv⟩ := List.mem_filterMap.mp hx
    have there := knows_decodeAll (s.items b.backing) x hx
    exact (of_decode hv).1.evolve step there
  · rw [Shows, items, decodeAll_evolve step (s.items b.backing), values]

/-- A list that was wrapped shows its container. -/
theorem tracks_of_written {values : List T.Carrier} (fit : ∀ x ∈ values, w.Befits T x)
    (holds : b.values = values)
    (items : (w.container b.backing).items = T.encodeAll values) (current : w.IsCurrent b) :
    w.Tracks 0 b := by
  refine .of_current ?_ current ?_
  · rw [holds]
    exact fit
  · rw [Shows, items, holds]
    exact (decodeAll_encodeAll fit).symm

/-! ## Each access -/

section Accesses

variable (s : w.Sound) (g : w.Guarded r.slot) (h : w.bridge? r = some b)

include s g h

/-- **A list that was brought up to date** is that of the same container. -/
theorem tracks_sync {k : Nat} (tracks : w.Tracks k b) (few : k < UInt64.size) :
    ∃ b', (w.sync r).bridge? r = some b' ∧ b'.backing = b.backing ∧
      (w.sync r).IsCurrent b' ∧ (w.sync r).Tracks 0 b' := by
  by_cases current : w.IsCurrent b
  · rw [sync_of_current h current]
    exact ⟨b, h, rfl, current, .of_current tracks.befits current (tracks.shows few current)⟩
  · obtain ⟨retained, entry⟩ := bridge?_sync_of_stale g h current
    have quiet := Footprint.quiet_bridge r.slot
    have step : w.Evolves (.bridge r.slot) (w.sync r) := (course_sync s rfl).evolves quiet
    have known := (s.bridge r.slot T b (bridge?_eq_some_iff.mp h)).backing
    have derived : (w.sync r).IsCurrent { w.derived b with retained } ∧
        (w.sync r).Tracks 0 { w.derived b with retained } :=
      tracks_of_derived s step known (fun h => h) rfl rfl
    exact ⟨_, entry, rfl, derived⟩

/-- **A list that was written** is on a container of its own. -/
theorem tracks_writeNative {values : List T.Carrier} (fit : ∀ x ∈ values, w.Befits T x)
    (known : ∀ x ∈ values, w.Knows (T.encode x)) :
    ∃ b', (w.writeNative r values).bridge? r = some b' ∧ b'.values = values ∧
      (w.writeNative r values).IsCurrent b' ∧ (w.writeNative r values).Tracks 0 b' := by
  have step : w.Evolves (.bridge r.slot) (w.writeNative r values) :=
    (course_writeNative s rfl known).evolves (Footprint.quiet_bridge r.slot)
  obtain ⟨_, items, revision⟩ := container_writeNative h values
  have current : (w.writeNative r values).IsCurrent { w.rebuilt b values with
      retained := (w.rebuild r values).inSight (w.rebuilt b values) } :=
    congrArg some revision.symm
  refine ⟨_, bridge?_writeNative g h values, rfl, current, ?_⟩
  exact tracks_of_written (fun x hx => (fit x hx).evolve step (known x hx)) rfl items current

/-- A session leaves the bridge without a list, and what it hands out befits. -/
theorem tracks_openSession {k : Nat} (tracks : w.Tracks k b) (few : k < UInt64.size) :
    (∃ b', (w.openSession r).1.bridge? r = some b' ∧ (w.openSession r).1.Tracks 0 b') ∧
      ∀ x ∈ (w.openSession r).2, (w.openSession r).1.Befits T x := by
  obtain ⟨b', entry, _, _, synced⟩ := tracks_sync s g h tracks few
  rw [openSession_eq entry]
  refine ⟨⟨_, bridge?_setBridge entry, .of_session rfl rfl⟩, ?_⟩
  exact synced.befits

theorem tracks_pushNative {k : Nat} (tracks : w.Tracks k b) (few : k < UInt64.size) {x : T.Carrier}
    (fit : w.Befits T x) (known : w.Knows (T.encode x)) :
    ∃ b', (w.pushNative r x).bridge? r = some b' ∧ (w.pushNative r x).Tracks 0 b' := by
  have quiet := Footprint.quiet_bridge r.slot
  have session : Course (.bridge r.slot) w _ (w.openSession r).1 := course_openSession s quiet rfl
  have step := session.evolves quiet
  obtain ⟨⟨b', entry, _⟩, befits⟩ := tracks_openSession s g h tracks few
  have handed := knows_openSession s quiet (r := r) rfl
  have fits : ∀ y ∈ (w.openSession r).2 ++ [x], (w.openSession r).1.Befits T y ∧
      (w.openSession r).1.Knows (T.encode y) := by
    intro y hy
    rcases List.mem_append.mp hy with hy | hy
    · exact ⟨befits y hy, handed y hy⟩
    · cases List.mem_singleton.mp hy
      exact ⟨fit.evolve step known, step.knows known⟩
  obtain ⟨c, written, _, _, tracks'⟩ := tracks_writeNative (session.sound quiet s)
    (session.guarded quiet g) entry (fun y hy => (fits y hy).1) fun y hy => (fits y hy).2
  exact ⟨c, written, tracks'⟩

/-- A container that was taken over is shown from then on. -/
theorem tracks_adopt {candidate : ArrayId} (known : w.Knows (.array candidate))
    (valid : w.validate T candidate = .ok ()) :
    ∃ b', (w.adopt r candidate).bridge? r = some b' ∧ (w.adopt r candidate).Tracks 0 b' := by
  have quiet := Footprint.quiet_bridge r.slot
  have move : Course (.bridge r.slot) w [] (w.between r candidate) :=
    course_between s quiet rfl known valid
  have s' := move.sound quiet s
  have derive : Course (.bridge r.slot) (w.between r candidate) []
      ((w.between r candidate).derive r) := course_derive s' rfl
  have step := (derive.trans (.look ((w.between r candidate).derive r) r rfl)).evolves quiet
  have same : w.adopt r candidate = ((w.between r candidate).derive r).retainBacking r := by
    unfold adopt
    rw [h]
    rfl
  have entry := bridge?_adopt g h candidate
  rw [same] at entry ⊢
  refine ⟨_, entry, (tracks_of_derived s' step ?_ (fun h => h) rfl rfl).2⟩
  exact (move.evolves quiet).knows known

/-- A write that is refused leaves the bridge as it was, or at distance zero with nothing in it. -/
theorem tracks_reject {k : Nat} (tracks : w.Tracks k b) (reason : BridgeError) :
    ((w.reject r reason).bridge? r = some b ∧ (w.reject r reason).Tracks k b) ∨
      ∃ b', (w.reject r reason).bridge? r = some b' ∧ (w.reject r reason).Tracks 0 b' := by
  cases policy : b.policy with
  | keepPrevious =>
    rw [reject_keeping h policy]
    have fits := s.bridge r.slot T b (bridge?_eq_some_iff.mp h)
    exact .inl ⟨h, tracks.still s fits (evolves_note .nothing w _) rfl rfl⟩
  | resetToEmpty =>
    rw [reject_resetting h policy]
    let n : Notice := .rejectedResetting T.tag reason
    have nothing : ∀ x ∈ ([] : List T.Carrier), (w.note n).Befits T x ∧
        (w.note n).Knows (T.encode x) := fun x hx => absurd hx List.not_mem_nil
    obtain ⟨b', entry, _, _, written⟩ := tracks_writeNative (s.wane (wanes_note w n)) (g.note n) h
      (fun x hx => (nothing x hx).1) fun x hx => (nothing x hx).2
    exact .inr ⟨b', entry, written⟩

/-- **A write from the engine**, whatever comes of it. -/
theorem tracks_writeUntyped {k : Nat} (tracks : w.Tracks k b) (few : k < UInt64.size)
    {candidate : ArrayId} (known : w.Knows (.array candidate)) :
    let w' := (w.writeUntyped r candidate).1
    (w'.bridge? r = some b ∧ w'.Tracks k b) ∨ ∃ b', w'.bridge? r = some b' ∧ w'.Tracks 0 b' := by
  intro w'
  cases valid : w.validate T candidate with
  | ok _ =>
    have adopted : w' = w.adopt r candidate := writeUntyped_of_ok valid
    rw [adopted]
    exact .inr (tracks_adopt s g h known valid)
  | error reason =>
    by_cases own : b.backing = candidate
    · subst own
      let n : Notice := .rejectedOwnBacking T.tag reason
      have synced : w' = (w.note n).sync r := writeUntyped_of_own h valid
      have fits := s.bridge r.slot T b (bridge?_eq_some_iff.mp h)
      have noted : (w.note n).Tracks k b := tracks.still s fits (evolves_note .nothing w n) rfl rfl
      have here : (w.note n).bridge? r = some b := h
      obtain ⟨b', entry, _, _, zero⟩ :=
        tracks_sync (s.wane (wanes_note w n)) (g.note n) here noted few
      rw [synced]
      exact .inr ⟨b', entry, zero⟩
    · have refused : w' = w.reject r reason := writeUntyped_of_foreign h valid own
      rw [refused]
      exact tracks_reject s g h tracks reason

theorem tracks_setAccessor {k : Nat} (tracks : w.Tracks k b) (few : k < UInt64.size)
    {arguments : List Variant} (known : ∀ v ∈ arguments, w.Knows v) :
    let w' := (w.setAccessor r arguments).1
    (w'.bridge? r = some b ∧ w'.Tracks k b) ∨ ∃ b', w'.bridge? r = some b' ∧ w'.Tracks 0 b' := by
  intro w'
  rcases setAccessor_eq w r arguments with ⟨candidate, first, write⟩ | ⟨reason, refused⟩
  · have same : w' = (w.writeUntyped r candidate).1 := write
    rw [same]
    exact tracks_writeUntyped s g h tracks few (known _ (List.mem_of_mem_head? first))
  · have same : w' = w.reject r reason := refused
    rw [same]
    exact tracks_reject s g h tracks reason

end Accesses

/-- **A new bridge** shows what it was made of. -/
theorem tracks_newBridge (s : w.Sound) {values : List T.Carrier} (policy : RejectionPolicy)
    (fit : ∀ x ∈ values, w.Befits T x) (known : ∀ x ∈ values, w.Knows (T.encode x)) :
    ∃ b', (w.newBridge T values policy).1.bridge? (w.newBridge T values policy).2 = some b' ∧
      b'.values = values ∧ (w.newBridge T values policy).1.IsCurrent b' ∧
        (w.newBridge T values policy).1.Tracks 0 b' := by
  have step : w.Evolves .nothing (w.newBridge T values policy).1 :=
    evolves_newBridge w T values policy
  obtain ⟨retained, entry⟩ := bridge?_newBridge s values policy
  obtain ⟨_, items, revision⟩ := container_newBridge w values policy
  refine ⟨_, entry, rfl, congrArg some revision.symm, ?_⟩
  exact tracks_of_written (fun x hx => (fit x hx).evolve step (known x hx)) rfl items
    (congrArg some revision.symm)

end World

end ArrayBridge
