import ArrayBridge.Proofs.Bridge.Accessors
import ArrayBridge.Proofs.Bridge.Views
import ArrayBridge.Proofs.Object.Death
import ArrayBridge.Proofs.World.Cascade
import Mathlib.Data.List.Nodup

/-!
# On which container a bridge stands

A bridge changes its container in two ways only: it builds a new one, or it takes one over that was
offered to it (`backing_step`). So a bridge that stands outside of some set of containers stays
outside of it, as long as it takes none of them over (`Run.standsClearOf`).

**A container of its own.** What a native write builds is in a place that nothing had before, and
when the write is done there is one handle on it, that of the bridge (`handleCount_writeNative`).
-/

namespace ArrayBridge

/-- The bridge in the place takes the container over: a write from the engine or a setter offers it,
and it passes the check. -/
def Event.TakesOver (slot : Nat) (a : ArrayId) (e : Event) : Prop :=
  match e.action with
  | @Action.writeUntyped T r candidate =>
    r.slot = slot ∧ candidate = a ∧ e.world.validate T candidate = .ok ()
  | @Action.setAccessor T r arguments => r.slot = slot ∧ e.world.Offers T arguments a
  | _ => False

namespace World

variable {T : ElementType} {w w' : World} {r : BridgeRef T} {b : Bridge T}

/-! ## How many containers there are -/

@[simp] theorem size_retainBacking (w : World) (r : BridgeRef T) :
    (w.retainBacking r).containers.size = w.containers.size := by
  cases h : w.bridge? r with
  | none => simp [h]
  | some b => simp [(wanes_retainBacking h).containers]

@[simp] theorem size_derive (w : World) (r : BridgeRef T) :
    (w.derive r).containers.size = w.containers.size := by
  unfold derive
  split
  · exact (wanes_letGo (w.setBridge r _) _).containers
  · rfl

/-- To bring a native list up to date builds no container. -/
@[simp] theorem size_sync (w : World) (r : BridgeRef T) :
    (w.sync r).containers.size = w.containers.size := by
  unfold sync
  cases refreshed : w.refreshed? r with
  | none => rfl
  | some w' =>
    obtain ⟨n, rfl⟩ := refreshed?_eq_some refreshed
    simp [note]

@[simp] theorem size_openSession (w : World) (r : BridgeRef T) :
    (w.openSession r).1.containers.size = w.containers.size := by
  unfold openSession
  cases h : (w.sync r).bridge? r with
  | none => simp [h]
  | some b => simp [h, setBridge]

/-- A native write builds one. -/
theorem size_writeNative (h : w.bridge? r = some b) (values : List T.Carrier) :
    (w.writeNative r values).containers.size = w.containers.size + 1 := by
  have rebuild : (w.rebuild r values).containers.size = w.containers.size + 1 := by
    unfold World.rebuild
    rw [h]
    exact (wanes_letGo ((w.wrapAll T values).1.setBridge r _) _).containers.trans
      (size_wrapAll w values)
  unfold writeNative
  rw [h]
  exact (size_retainBacking _ r).trans rebuild

/-! ## Where each operation leaves a bridge -/

theorem StandsAfterRefusal.same_or_new {own : Prop} {c : ArrayId}
    (h : w.StandsAfterRefusal w' b own c) : c = b.backing ∨ ¬ w.Knows (.array c) := by
  cases policy : b.policy with
  | keepPrevious => exact .inl (h.keeps (.inl policy))
  | resetToEmpty =>
    by_cases offered : own
    · exact .inl (h.keeps (.inr offered))
    · exact .inr (h.resets policy offered).1

section Operations

variable (s : w.Sound) (g : w.Guarded r.slot) (h : w.bridge? r = some b)

include g h

theorem backing?_sync : (w.sync r).backing? r = some b.backing := by
  by_cases current : w.IsCurrent b
  · rw [sync_of_current h current]
    exact backing?_of_bridge? h
  · obtain ⟨retained, entry⟩ := bridge?_sync_of_stale g h current
    have stands := backing?_of_bridge? entry
    exact stands

theorem backing?_openSession : (w.openSession r).1.backing? r = some b.backing := by
  obtain ⟨b', entry, same⟩ := Option.map_eq_some_iff.mp (backing?_sync g h)
  have bare : ((w.sync r).setBridge r { b' with values := [], revision := none }).bridge? r =
      some { b' with values := [], revision := none } :=
    bridge?_setBridge entry
  have stands := backing?_of_bridge? bare
  rw [openSession_eq entry, ← same]
  exact stands

theorem backing?_writeNative (values : List T.Carrier) :
    (w.writeNative r values).backing? r = some ⟨w.containers.size⟩ :=
  backing?_of_bridge? (bridge?_writeNative g h values)

include s

theorem backing?_pushNative (x : T.Carrier) :
    (w.pushNative r x).backing? r = some ⟨w.containers.size⟩ := by
  have quiet := Footprint.quiet_bridge r.slot
  have session : Course (.bridge r.slot) w _ (w.openSession r).1 := course_openSession s quiet rfl
  obtain ⟨b', entry, _⟩ := Option.map_eq_some_iff.mp (backing?_openSession g h)
  have written := backing?_writeNative (session.guarded quiet g) entry ((w.openSession r).2 ++ [x])
  rwa [size_openSession] at written

/-- After a write from the engine: on its own container, or on a new one, or on the array that
passed. -/
theorem backing_writeUntyped {candidate : ArrayId} (known : w.Knows (.array candidate)) :
    ∃ c, (w.writeUntyped r candidate).1.backing? r = some c ∧
      (c = b.backing ∨ ¬ w.Knows (.array c) ∨ candidate = c ∧ w.validate T candidate = .ok ()) := by
  cases valid : w.validate T candidate with
  | ok _ =>
    obtain ⟨backing, _⟩ := writeUntyped_accepted s g h known valid
    exact ⟨candidate, backing, .inr (.inr ⟨rfl, rfl⟩)⟩
  | error reason =>
    obtain ⟨c, backing, stands⟩ := writeUntyped_stands s g h valid
    exact ⟨c, backing, stands.same_or_new.imp_right .inl⟩

theorem backing_setAccessor {arguments : List Variant} (known : ∀ v ∈ arguments, w.Knows v) :
    ∃ c, (w.setAccessor r arguments).1.backing? r = some c ∧
      (c = b.backing ∨ ¬ w.Knows (.array c) ∨ w.Offers T arguments c) := by
  by_cases offered : ∃ a, w.Offers T arguments a
  · obtain ⟨a, offers⟩ := offered
    exact ⟨a, (setAccessor_taken s g h known offers).2, .inr (.inr offers)⟩
  · obtain ⟨c, _, backing, stands⟩ :=
      setAccessor_refused s g h fun a offers => offered ⟨a, offers⟩
    exact ⟨c, backing, stands.same_or_new.imp_right .inl⟩

end Operations

/-! ## One action -/

/-- Whether an action can leave the bridge in a place on its container: it stood there before, or
the container is new, or the action makes the bridge take it over. -/
def Restands (w : World) (slot : Nat) (x : Action) (b : Bridge T) : Prop :=
  (∃ c : Bridge T, w.anyBridge? slot = some ⟨T, c⟩ ∧ c.backing = b.backing) ∨
    ¬ w.Knows (.array b.backing) ∨ Event.TakesOver slot b.backing ⟨w, x⟩

/-- The entry of a bridge that stands on the container. -/
theorem entry_of_backing? {U : ElementType} {q : BridgeRef U} {c : ArrayId}
    (stands : w'.backing? q = some c) (here : w'.anyBridge? q.slot = some ⟨T, b⟩) :
    T = U ∧ b.backing = c := by
  obtain ⟨d, there, rfl⟩ := Option.map_eq_some_iff.mp stands
  cases (bridge?_eq_some_iff.mp there).symm.trans here
  exact ⟨rfl, rfl⟩

/-- **A bridge moves to a new container, or to one that it takes over, or not at all.** -/
theorem backing_step (s : w.Sound) {x : Action} (allowed : x.Allowed w) {slot : Nat}
    (here : (w.step x).anyBridge? slot = some ⟨T, b⟩) : w.Restands slot x b := by
  have new : ¬ w.Knows (.array ⟨w.containers.size⟩) := Nat.lt_irrefl _
  rcases entry_cases s allowed here with
    ⟨before, _⟩ | ⟨U, values, policy, rfl, place⟩ | ⟨U, q, c, rfl, open', on⟩
  · exact .inl ⟨b, before, rfl⟩
  · obtain ⟨retained, entry⟩ := bridge?_newBridge s values policy
    have place : slot = (w.newBridge U values policy).2.slot :=
      place.trans (slot_openBridge w U values policy).symm
    have here : (w.newBridge U values policy).1.anyBridge? slot = some ⟨T, b⟩ := here
    rw [place] at here
    obtain ⟨_, stands⟩ := entry_of_backing? (backing?_of_bridge? entry) here
    exact .inr (.inl (stands ▸ new))
  have moves : ∀ {d : ArrayId}, (w.step x).backing? q = some d →
      (d = c.backing ∨ ¬ w.Knows (.array d) ∨ Event.TakesOver q.slot d ⟨w, x⟩) →
      w.Restands q.slot x b := by
    intro d stands outcome
    obtain ⟨rfl, rfl⟩ := entry_of_backing? stands here
    exact outcome.imp_left fun own => ⟨c, bridge?_eq_some_iff.mp open', own.symm⟩
  cases on with
  | setPolicy policy =>
    have entry : (w.setBridge q { c with policy }).bridge? q = some { c with policy } :=
      bridge?_setBridge open'
    have stands := backing?_of_bridge? entry
    rw [← setPolicy_eq open'] at stands
    exact moves stands (.inl rfl)
  | readNative => exact moves (backing?_sync (s.guarded allowed) open') (.inl rfl)
  | openSession => exact moves (backing?_openSession (s.guarded allowed) open') (.inl rfl)
  | writeNative values | closeSession values =>
    exact moves (backing?_writeNative (s.guarded allowed.1) open' values) (.inr (.inl new))
  | pushNative y =>
    exact moves (backing?_pushNative s (s.guarded allowed.1) open' y) (.inr (.inl new))
  | writeUntyped candidate =>
    obtain ⟨d, stands, outcome⟩ := backing_writeUntyped s (s.guarded allowed.1) open' allowed.2
    exact moves stands (outcome.imp_right (.imp_right fun taken => ⟨rfl, taken⟩))
  | setAccessor arguments =>
    obtain ⟨d, stands, outcome⟩ := backing_setAccessor s (s.guarded allowed.1) open' allowed.2
    exact moves stands (outcome.imp_right (.imp_right fun offers => ⟨rfl, offers⟩))

/-- The bridge in a place, if one is open there, stands on none of some containers. -/
def StandsClearOf (w : World) (slot : Nat) (containers : ArrayId → Prop) : Prop :=
  ∀ (T : ElementType) (b : Bridge T), w.anyBridge? slot = some ⟨T, b⟩ → ¬ containers b.backing

theorem StandsClearOf.step {slot : Nat} {containers : ArrayId → Prop}
    (clear : w.StandsClearOf slot containers) (s : w.Sound) {x : Action} (allowed : x.Allowed w)
    (known : ∀ a, containers a → w.Knows (.array a))
    (refuses : ∀ a, containers a → ¬ Event.TakesOver slot a ⟨w, x⟩) :
    (w.step x).StandsClearOf slot containers := by
  intro T b here among
  rcases backing_step s allowed here with ⟨c, there, same⟩ | new | taken
  · rw [← same] at among
    exact clear T c there among
  · exact new (known _ among)
  · exact refuses _ among taken

/-! ## The only handle -/

theorem encode_ne_array (T : ElementType) (x : T.Carrier) (a : ArrayId) :
    T.encode x ≠ .array a := by
  intro same
  cases T with
  | optionalHandle cls => cases x <;> cases same
  | _ => cases same

/-- Of the handles that a bridge keeps one leads to a container. -/
theorem count_handles (entry : AnyBridge) (c : ArrayId) :
    entry.handles.count (.array c) = if entry.bridge.backing = c then 1 else 0 := by
  have retained : (entry.bridge.retained.map Variant.object).count (.array c) = 0 := by
    apply List.count_eq_zero.mpr
    intro mem
    obtain ⟨_, _, same⟩ := List.mem_map.mp mem
    cases same
  have values : (entry.elem.encodeAll entry.bridge.values).count (.array c) = 0 := by
    apply List.count_eq_zero.mpr
    intro mem
    obtain ⟨x, _, same⟩ := List.mem_map.mp mem
    exact encode_ne_array _ x c same
  rw [AnyBridge.handles, List.count_append, List.count_append, retained, values,
    List.count_singleton]
  by_cases own : entry.bridge.backing = c
  · simp [own]
  · simp [own]

/-- A container on which a bridge stands, and to which nothing else leads. -/
theorem handleCount_eq_one {c : ArrayId} (h : w.bridge? r = some b) (own : b.backing = c)
    (outside : Variant.array c ∉ w.outside) (items : ∀ a, Variant.array c ∉ (w.container a).items)
    (others : ∀ slot (U : ElementType) (d : Bridge U), w.anyBridge? slot = some ⟨U, d⟩ →
      d.backing = c → slot = r.slot) :
    w.handleCount (.array c) = 1 := by
  have kept : w.outside.count (.array c) = 0 := List.count_eq_zero.mpr outside
  have inside : (w.containers.toList.flatMap Container.handles).count (.array c) = 0 := by
    apply List.count_eq_zero.mpr
    intro mem
    obtain ⟨d, there, holds⟩ := List.mem_flatMap.mp mem
    obtain ⟨n, known, rfl⟩ := List.mem_iff_getElem.mp there
    have known : n < w.containers.size := by simpa using known
    have same : w.container ⟨n⟩ = w.containers.toList[n] := by
      simp [container, Array.getD, known]
    apply items ⟨n⟩
    rw [same]
    unfold Container.handles at holds
    split at holds
    · cases holds
    · exact holds
  have bridges : (w.bridges.toList.flatMap fun entry => entry.elim [] AnyBridge.handles).count
      (.array c) = 1 := by
    have elsewhere : ∀ slot, slot ≠ r.slot → slot ∈ List.range w.bridges.size →
        (((w.anyBridge? slot).elim [] AnyBridge.handles).count (.array c)) = 0 := by
      intro slot other _
      cases there : w.anyBridge? slot with
      | none => rfl
      | some entry =>
        have foreign : entry.bridge.backing ≠ c := fun same =>
          other (others slot entry.elem entry.bridge there same)
        exact (count_handles entry c).trans (if_neg foreign)
    have here : ((w.anyBridge? r.slot).elim [] AnyBridge.handles).count (.array c) = 1 := by
      rw [bridge?_eq_some_iff.mp h]
      exact (count_handles ⟨T, b⟩ c).trans (if_pos own)
    have place : r.slot ∈ List.range w.bridges.size := List.mem_range.mpr (lt_of_bridge? h)
    rw [toList_bridges, List.flatMap_map, List.count_flatMap]
    refine (List.sum_map_eq_nsmul_single r.slot _ elsewhere).trans ?_
    rw [List.count_eq_one_of_mem List.nodup_range place, one_nsmul]
    exact here
  rw [handleCount, handles, List.count_append, List.count_append, kept, inside, bridges]

/-- **A native write leaves the bridge with the only handle on its container.** -/
theorem handleCount_writeNative (s : w.Sound) (g : w.Guarded r.slot) (h : w.bridge? r = some b)
    (outside : ∀ v ∈ w.outside, w.Knows v) {values : List T.Carrier}
    (known : ∀ x ∈ values, w.Knows (T.encode x)) :
    (w.writeNative r values).handleCount (.array ⟨w.containers.size⟩) = 1 := by
  have quiet := Footprint.quiet_bridge r.slot
  have course : Course (.bridge r.slot) w _ (w.writeNative r values) :=
    course_writeNative s rfl known
  have evolves := course.evolves quiet
  obtain ⟨_, bridges, kept⟩ := course.tables
  have unknown : ¬ w.Knows (.array ⟨w.containers.size⟩) := Nat.lt_irrefl _
  refine handleCount_eq_one (bridge?_writeNative g h values) rfl ?_ ?_ ?_
  · intro mem
    rw [kept] at mem
    exact unknown (outside _ mem)
  · intro a mem
    rcases Nat.lt_trichotomy a.slot w.containers.size with before | last | beyond
    · rw [(evolves.container a before fun h => h).1] at mem
      exact unknown (s.items a _ mem)
    · obtain rfl : a = ⟨w.containers.size⟩ := ArrayId.eq_of_slot last
      rw [(container_writeNative h values).2.1] at mem
      obtain ⟨x, _, same⟩ := List.mem_map.mp mem
      exact encode_ne_array T x _ same
    · have size := size_writeNative h values
      have none : (w.writeNative r values).container a = default := by
        have out : ¬ a.slot < (w.writeNative r values).containers.size := by omega
        simp [container, Array.getD, out]
      rw [none] at mem
      cases mem
  · intro slot U d there same
    by_contra other
    have place : slot < w.bridges.size := by
      rw [← bridges]
      exact lt_of_anyBridge? there
    rcases evolves.entry slot place other with gone | before
    · rw [gone] at there
      cases there
    · rw [before] at there
      have fits := (s.bridge slot U d there).backing
      rw [same] at fits
      exact unknown fits

end World

/-! ## Over a run -/

/-- What is kept outside exists. -/
theorem Run.knows_outside {past : List Event} {w : World} (run : Run past w) :
    ∀ v ∈ w.outside, w.Knows v := by
  induction run with
  | start => exact fun v mem => absurd mem List.not_mem_nil
  | step run x allowed ih =>
    have evolves := World.evolves_step run.sound allowed
    intro v mem
    rcases evolves.outside v mem with before | taken
    · exact evolves.knows (ih v before)
    · cases x with
      | keep handles => exact evolves.knows (allowed v taken)
      | _ => exact taken.elim

/-- What existed exists. -/
theorem Run.knows {past later : List Event} {w w' : World} (run : Run past w)
    (longer : Run (later ++ past) w') {v : Variant} (known : w.Knows v) : w'.Knows v := by
  induction later generalizing w' with
  | nil =>
    obtain rfl := run.unique longer
    exact known
  | cons e later ih =>
    cases longer with
    | step before x allowed => exact (World.evolves_step before.sound allowed).knows (ih before)

/-- **A bridge stays clear of containers that it does not take over.** -/
theorem Run.standsClearOf {past later : List Event} {w w' : World} (run : Run past w)
    (longer : Run (later ++ past) w') {slot : Nat} {containers : ArrayId → Prop}
    (known : ∀ a, containers a → w.Knows (.array a)) (clear : w.StandsClearOf slot containers)
    (refuses : ∀ e ∈ later, ∀ a, containers a → ¬ e.TakesOver slot a) :
    w'.StandsClearOf slot containers := by
  induction later generalizing w' with
  | nil =>
    obtain rfl := run.unique longer
    exact clear
  | cons e later ih =>
    cases longer with
    | step before x allowed =>
      have clear' := ih before fun e mem => refuses e (List.mem_cons_of_mem _ mem)
      apply clear'.step before.sound allowed
      · intro a among
        exact run.knows before (known a among)
      · exact refuses _ List.mem_cons_self

end ArrayBridge
