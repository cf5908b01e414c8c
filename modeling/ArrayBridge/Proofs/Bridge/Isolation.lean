import ArrayBridge.Proofs.Bridge.Backing

/-!
# Containers that someone may hold

A container is shared by whoever has a handle on it: a caller, another container, any number of
bridges. A bridge never changes one in place. It builds a new container, or moves to another one,
and in both cases what it leaves behind is left as it was.

**What follows for a bridge** that has just built its container: nobody else can reach that.
Whatever is done through handles that there were before, or with other bridges, the bridge shows
what it showed, until it takes such a container over (`held_containers_untouched`).

**What still reaches it** is death. An action elsewhere can be the end of an object, and if the
native list is to be derived again because the container was changed, then the handle on that object
is passed over. A list that is up to date is answered as it is.
-/

namespace ArrayBridge

/-- The operations of bridges, with the copy that a bridge hands out of its container. All else that
can be asked of a bridge answers and changes nothing. -/
def Action.ofBridge : Action → Bool
  | .newBridge .. | .setPolicy .. | .dropBridge .. | .readNative .. | .writeNative ..
  | .pushNative .. | .openSession .. | .closeSession .. | .writeUntyped .. | .setAccessor ..
  | .duplicate .. => true
  | _ => false

/-- They change no container. -/
theorem Action.untouched_of_ofBridge {x : Action} (h : x.ofBridge = true) (a : ArrayId) :
    ¬ x.footprint.arrays a := by
  intro touched
  cases x with
  | append | tryAppend | setAt | insertAt | removeAt | clear => cases h
  | _ => exact touched

/-- What changes a container is about nothing else. -/
theorem Action.footprint_of_arrays {x : Action} {a : ArrayId} (touched : x.footprint.arrays a) :
    x.footprint = .array a := by
  cases x with
  | append | tryAppend | setAt | insertAt | removeAt | clear =>
    cases touched
    rfl
  | _ => exact touched.elim

namespace World

variable {T : ElementType} {w w' : World} {r : BridgeRef T} {b : Bridge T}

/-! ## What stays open -/

theorem Guarded.openBridge {slot : Nat} (g : w.Guarded slot) (values : List T.Carrier)
    (policy : RejectionPolicy) : (w.openBridge T values policy).1.Guarded slot := by
  rw [openBridge_eq, wrapAll_eq]
  exact g

/-- **A bridge that can be reached stays as it is**, whatever is done that is not about it. -/
theorem stays_step (s : w.Sound) {x : Action} (allowed : x.Allowed w) {slot : Nat}
    (hand : w.AtHand slot) (known : slot < w.bridges.size)
    (untouched : ¬ x.footprint.bridges slot) :
    (w.step x).anyBridge? slot = w.anyBridge? slot := by
  have g := s.guarded hand
  by_cases course : x.isCourse = true
  · exact (course_step s course allowed).stays (x.quiet course) g untouched
  cases x with
  | free heap id => exact (wanes_heapFree heap w id).stays g
  | unreference o => exact (wanes_unreference w o).stays g
  | reference o =>
    show (w.reference o).1.bridges.getD slot none = w.bridges.getD slot none
    simp
  | newBridge U values policy =>
    let opened := w.openBridge U values policy
    have look : Course (.bridge opened.2.slot) opened.1 _ (w.newBridge U values policy).1 :=
      .look opened.1 opened.2 rfl
    have place : opened.2.slot = w.bridges.size := by simp [opened]
    have other : slot ≠ w.bridges.size := Nat.ne_of_lt known
    have same := look.stays (Footprint.quiet_bridge _) (g.openBridge values policy)
      fun own => other (own.trans place)
    exact same.trans (anyBridge?_openBridge_of_ne w U values policy other)
  | dropBridge q =>
    have other : slot ≠ q.slot := untouched
    have close : w.Evolves (.bridge q.slot) (w.closeBridge q.slot).1 := evolves_closeBridge w rfl
    have guarded := g.evolve close (Footprint.quiet_bridge _)
      (by simp) (by simp)
    have same := (wanes_perform _ (w.closeBridge q.slot).2).stays guarded
    rw [anyBridge?_closeBridge, if_neg other] at same
    exact same
  | letGo handles =>
    have guarded : { w with outside := handles.foldl List.erase w.outside }.Guarded slot := by
      intro o fields payload field
      obtain ⟨lent, _⟩ := g o fields payload field
      exact ⟨lent, allowed o lent⟩
    exact (wanes_letGo _ handles).stays guarded
  | allocate | setValue | lendExclusively | lendToReader | returnExclusive | returnFromReader
  | keep => rfl
  | _ => exact absurd rfl course

/-! ## What is left alone -/

/-- The mark, the elements and the revision of a container are the same in two worlds. -/
structure SameContainer (w w' : World) (a : ArrayId) : Prop where
  tag : (w'.container a).tag = (w.container a).tag
  items : (w'.container a).items = (w.container a).items
  revision : (w'.container a).revision = (w.container a).revision

theorem sameContainer_step (s : w.Sound) {x : Action} (allowed : x.Allowed w) {a : ArrayId}
    (known : w.Knows (.array a)) (untouched : ¬ x.footprint.arrays a) :
    w.SameContainer (w.step x) a := by
  have evolves := evolves_step s allowed
  obtain ⟨items, revision⟩ := evolves.container a known untouched
  exact ⟨evolves.tag a known, items, revision⟩

/-- **What is seen of a bridge is the same.** It is closed at most, and not even that if it can be
reached; its container is left alone; and a native read answers what it answered, where out of a
list that is out of date go the handles on what was freed. -/
structure Undisturbed (w w' : World) (r : BridgeRef T) (b : Bridge T) : Prop where
  entry : w'.bridge? r = none ∨ w'.bridge? r = some b
  stays : w.AtHand r.slot → w'.bridge? r = some b
  container : w.SameContainer w' b.backing
  answer : w.AtHand r.slot → w'.AtHand r.slot → (w'.readNative r).2 =
    if w.IsCurrent b then (w.readNative r).2 else (w.readNative r).2.filter (w'.standing T)

/-- Scalars are answered as they were. -/
theorem Undisturbed.answer_of_scalar (h : w.Undisturbed w' r b) (scalar : T.class? = none)
    (before : w.AtHand r.slot) (after : w'.AtHand r.slot) :
    (w'.readNative r).2 = (w.readNative r).2 := by
  rw [h.answer before after]
  split
  · rfl
  · exact List.filter_eq_self.mpr fun x _ => standing_of_scalar scalar x

/-- **An action that is about neither the bridge nor its container is not seen through it.** -/
theorem undisturbed_step (s : w.Sound) {x : Action} (allowed : x.Allowed w)
    (h : w.bridge? r = some b) (bridge : ¬ x.footprint.bridges r.slot)
    (array : ¬ x.footprint.arrays b.backing) : w.Undisturbed (w.step x) r b := by
  have there := bridge?_eq_some_iff.mp h
  have fits := s.bridge r.slot T b there
  have evolves := evolves_step s allowed
  have same := sameContainer_step s allowed fits.backing array
  have stays : w.AtHand r.slot → (w.step x).bridge? r = some b := by
    intro hand
    rw [bridge?_congr (stays_step s allowed hand (lt_of_bridge? h) bridge), h]
  refine ⟨?_, stays, same, ?_⟩
  · rcases evolves.entry r.slot (lt_of_bridge? h) bridge with gone | still
    · refine .inl ?_
      cases after : (w.step x).bridge? r with
      | none => rfl
      | some c =>
        rw [bridge?_eq_some_iff, gone] at after
        cases after
    · exact .inr ((bridge?_congr still).trans h)
  · intro before after
    have current : (w.step x).IsCurrent b ↔ w.IsCurrent b := by
      unfold IsCurrent
      rw [same.revision]
    rw [readNative_eq ((s.step allowed).guarded after) (stays before),
      readNative_eq (s.guarded before) h, same.items, decodeAll_evolve evolves (s.items b.backing)]
    by_cases now : w.IsCurrent b
    · rw [if_pos now, if_pos now, if_pos (current.mpr now)]
    · rw [if_neg now, if_neg now, if_neg (mt current.mp now)]

/-! ## A container of its own -/

/-- The actions that give a bridge a new container: a native write, the end of a session, a push,
and what is refused under the policy that resets, unless it is the bridge's own container. -/
inductive Renews (w : World) (r : BridgeRef T) : Action → Prop where
  | write (values : List T.Carrier) : Renews w r (.writeNative r values)
  | close (values : List T.Carrier) : Renews w r (.closeSession r values)
  | push (x : T.Carrier) : Renews w r (.pushNative r x)
  | refuse {candidate : ArrayId} {reason : BridgeError} (policy : w.policy? r = some .resetToEmpty)
    (refused : w.validate T candidate = .error reason) (foreign : w.backing? r ≠ some candidate) :
    Renews w r (.writeUntyped r candidate)
  | refuseSetter {arguments : List Variant} (policy : w.policy? r = some .resetToEmpty)
    (refused : ∀ a, ¬ w.Offers T arguments a)
    (foreign : ∀ a, arguments.head? = some (.array a) → w.backing? r ≠ some a) :
    Renews w r (.setAccessor r arguments)

/-- The bridge is open on a container that was not there before, and has the only handle on that. -/
def StandsAlone (w w' : World) (r : BridgeRef T) : Prop :=
  ∃ b, w'.bridge? r = some b ∧ ¬ w.Knows (.array b.backing) ∧ w'.handleCount (.array b.backing) = 1

theorem StandsAlone.standsClearOf (h : w.StandsAlone w' r) :
    w'.StandsClearOf r.slot fun a => w.Knows (.array a) := by
  obtain ⟨c, entry, new, _⟩ := h
  intro U d here
  obtain ⟨_, same⟩ := entry_of_backing? (backing?_of_bridge? entry) here
  rw [same]
  exact new

/-- A native write, if no container was built between. -/
theorem standsAlone_writeNative (s : w'.Sound) (g : w'.Guarded r.slot) (h : w'.bridge? r = some b)
    (outside : ∀ v ∈ w'.outside, w'.Knows v) {values : List T.Carrier}
    (known : ∀ x ∈ values, w'.Knows (T.encode x))
    (size : w'.containers.size = w.containers.size) :
    w.StandsAlone (w'.writeNative r values) r := by
  refine ⟨_, bridge?_writeNative g h values, ?_, handleCount_writeNative s g h outside known⟩
  show ¬ w'.containers.size < w.containers.size
  rw [size]
  exact Nat.lt_irrefl _

theorem standsAlone_reject (s : w.Sound) (g : w.Guarded r.slot) (h : w.bridge? r = some b)
    (outside : ∀ v ∈ w.outside, w.Knows v) (policy : w.policy? r = some .resetToEmpty)
    (reason : BridgeError) : w.StandsAlone (w.reject r reason) r := by
  have resets : b.policy = .resetToEmpty := by
    rw [policy?, h] at policy
    exact Option.some.inj policy
  rw [reject_resetting h resets]
  exact standsAlone_writeNative (s.note _) (g.note _) h outside
    (fun x mem => absurd mem List.not_mem_nil) rfl

theorem standsAlone_writeUntyped (s : w.Sound) (g : w.Guarded r.slot) (h : w.bridge? r = some b)
    (outside : ∀ v ∈ w.outside, w.Knows v) (policy : w.policy? r = some .resetToEmpty)
    {candidate : ArrayId} {reason : BridgeError} (refused : w.validate T candidate = .error reason)
    (foreign : w.backing? r ≠ some candidate) :
    w.StandsAlone (w.writeUntyped r candidate).1 r := by
  have other : b.backing ≠ candidate := by
    rintro rfl
    exact foreign (backing?_of_bridge? h)
  rw [writeUntyped_of_foreign h refused other]
  exact standsAlone_reject s g h outside policy reason

/-- **Each of them leaves the bridge alone on its container.** -/
theorem standsAlone_step (s : w.Sound) (outside : ∀ v ∈ w.outside, w.Knows v) {x : Action}
    (allowed : x.Allowed w) (h : w.bridge? r = some b) (renews : w.Renews r x) :
    w.StandsAlone (w.step x) r := by
  cases renews with
  | write values | close values =>
    obtain ⟨hand, known⟩ := allowed
    exact standsAlone_writeNative s (s.guarded hand) h outside known rfl
  | push y =>
    obtain ⟨hand, known⟩ := allowed
    have g := s.guarded hand
    have quiet := Footprint.quiet_bridge r.slot
    have session : Course (.bridge r.slot) w _ (w.openSession r).1 :=
      course_openSession s quiet rfl
    have evolves := session.evolves quiet
    obtain ⟨c, entry, _⟩ := Option.map_eq_some_iff.mp (backing?_openSession g h)
    refine standsAlone_writeNative (session.sound quiet s) (session.guarded quiet g) entry ?_ ?_
      (size_openSession w r)
    · intro v mem
      rw [session.tables.2.2] at mem
      exact evolves.knows (outside v mem)
    · intro z mem
      rcases List.mem_append.mp mem with handed | pushed
      · exact knows_openSession s quiet rfl z handed
      · obtain rfl := List.mem_singleton.mp pushed
        exact evolves.knows known
  | refuse policy refused foreign =>
    exact standsAlone_writeUntyped s (s.guarded allowed.1) h outside policy refused foreign
  | @refuseSetter arguments policy refused foreign =>
    have g := s.guarded allowed.1
    show w.StandsAlone (w.setAccessor r arguments).1 r
    rcases setAccessor_eq w r arguments with ⟨candidate, first, write⟩ | ⟨reason, reject⟩
    · rw [write]
      cases valid : w.validate T candidate with
      | ok _ => exact absurd ⟨first, valid⟩ (refused candidate)
      | error reason =>
        exact standsAlone_writeUntyped s g h outside policy valid (foreign candidate first)
    · rw [reject]
      exact standsAlone_reject s g h outside policy reason

/-- No bridge stands on a copy that was just made. -/
theorem standsClearOf_duplicate (s : w.Sound) (a : ArrayId) (slot : Nat) :
    (w.duplicate a).1.StandsClearOf slot fun c => c = (w.duplicate a).2 := by
  intro U d here same
  have there : w.anyBridge? slot = some ⟨U, d⟩ := here
  have fits := (s.bridge slot U d there).backing
  rw [same] at fits
  exact Nat.lt_irrefl _ fits

end World

/-- **Isolation over a run.** A bridge that takes over none of some containers shows nothing of what
is done to those, nor of what is done elsewhere. -/
theorem Run.undisturbed {past later : List Event} {w w' : World} (run : Run past w)
    (longer : Run (later ++ past) w') {T : ElementType} {r : BridgeRef T} {b : Bridge T}
    {containers : ArrayId → Prop} (known : ∀ a, containers a → w.Knows (.array a))
    (clear : w.StandsClearOf r.slot containers)
    (refuses : ∀ e ∈ later, ∀ a, containers a → ¬ e.TakesOver r.slot a)
    (there : w'.bridge? r = some b) :
    ¬ containers b.backing ∧ ∀ x : Action, x.Allowed w' → ¬ x.footprint.bridges r.slot →
      (∀ a, x.footprint.arrays a → containers a) → w'.Undisturbed (w'.step x) r b := by
  have apart : ¬ containers b.backing :=
    run.standsClearOf longer known clear refuses T b (World.bridge?_eq_some_iff.mp there)
  refine ⟨apart, ?_⟩
  intro x allowed bridge arrays
  apply World.undisturbed_step longer.sound allowed there bridge
  intro touched
  exact apart (arrays _ touched)

/-- **No bridge changes a container that someone may hold.** In every world that a run leads to:

- no operation of a bridge changes the mark, the elements or the revision of a container;
- a native write, the end of a session, a push, and a refusal under the policy that resets leave the
  bridge on a container that was not there before, and with the only handle on that;
- from then on, until the bridge takes over a container that was there before, it stays clear of
  those. So nothing that is done through a handle from before, with another bridge, or with no
  bridge at all is seen through it, but for the death of objects (`World.Undisturbed`);
- a copy of its container is a new one with the same mark and the same elements, and until a bridge
  takes the copy over, no change to that is seen through any. -/
theorem held_containers_untouched {past : List Event} {w : World} (run : Run past w) :
    (∀ x : Action, x.Allowed w → x.ofBridge = true → ∀ a, w.Knows (.array a) →
      w.SameContainer (w.step x) a) ∧
    (∀ (T : ElementType) (r : BridgeRef T) (b : Bridge T) (x : Action), w.bridge? r = some b →
      x.Allowed w → w.Renews r x →
      w.StandsAlone (w.step x) r ∧
      ∀ later w', Run (later ++ ⟨w, x⟩ :: past) w' →
        (∀ e ∈ later, ∀ a, w.Knows (.array a) → ¬ e.TakesOver r.slot a) →
        ∀ b', w'.bridge? r = some b' → ¬ w.Knows (.array b'.backing) ∧
          ∀ y : Action, y.Allowed w' → ¬ y.footprint.bridges r.slot →
            (∀ a, y.footprint.arrays a → w.Knows (.array a)) →
            w'.Undisturbed (w'.step y) r b') ∧
    ∀ (T : ElementType) (r : BridgeRef T) (b : Bridge T), w.bridge? r = some b →
      let copied := w.duplicate b.backing
      ¬ w.Knows (.array copied.2) ∧
      (copied.1.container copied.2).tag = (w.container b.backing).tag ∧
      (copied.1.container copied.2).items = (w.container b.backing).items ∧
      ∀ later w', Run (later ++ ⟨w, .duplicate b.backing⟩ :: past) w' →
        (∀ e ∈ later, ∀ slot, ¬ e.TakesOver slot copied.2) →
        ∀ (U : ElementType) (q : BridgeRef U) (d : Bridge U), w'.bridge? q = some d →
          d.backing ≠ copied.2 ∧
          ∀ y : Action, y.Allowed w' → y.footprint.arrays copied.2 →
            w'.Undisturbed (w'.step y) q d := by
  have s := run.sound
  refine ⟨?_, ?_, ?_⟩
  · intro x allowed operation a known
    exact World.sameContainer_step s allowed known (Action.untouched_of_ofBridge operation a)
  · intro T r b x h allowed renews
    have alone := World.standsAlone_step s run.knows_outside allowed h renews
    refine ⟨alone, ?_⟩
    intro later w' longer refuses b' there
    have evolves := World.evolves_step s allowed
    apply (run.step x allowed).undisturbed longer _ alone.standsClearOf refuses there
    intro a known
    exact evolves.knows known
  · intro T r b h copied
    have new : ¬ w.Knows (.array copied.2) := Nat.lt_irrefl _
    have cell : copied.1.container copied.2 =
        ⟨(w.container b.backing).tag, (w.container b.backing).items, 0, false⟩ :=
      World.container_addContainer_self w _
    refine ⟨new, by rw [cell], by rw [cell], ?_⟩
    intro later w' longer refuses U q d there
    have known : ∀ a, a = copied.2 → copied.1.Knows (.array a) := by
      rintro a rfl
      show w.containers.size < (w.containers.push _).size
      rw [Array.size_push]
      exact Nat.lt_succ_self _
    have refuses : ∀ e ∈ later, ∀ a, a = copied.2 → ¬ e.TakesOver q.slot a := by
      rintro e mem a rfl
      exact refuses e mem q.slot
    obtain ⟨apart, undisturbed⟩ := (run.step (.duplicate b.backing) trivial).undisturbed longer
      known (World.standsClearOf_duplicate s b.backing q.slot) refuses there
    refine ⟨apart, ?_⟩
    intro y allowed touched
    have whole := Action.footprint_of_arrays touched
    apply undisturbed y allowed
    · rw [whole]
      exact id
    · rw [whole]
      exact fun _ same => same

/-- A bridge whose container is held outside. -/
def heldOutside : List Action :=
  [ .newBridge .bool [true] .keepPrevious,
    .keep [.array ⟨0⟩] ]

/-- A native write to it. -/
def rewritten : Action := @Action.writeNative .bool ⟨0⟩ [false]

/-- What is added to the former container is not seen through the bridge, and the new one has one
handle. -/
theorem held_containers_untouched_detached :
    let w := (worldFrom .empty heldOutside).step rewritten
    w.handleCount (.array ⟨1⟩) = 1 ∧
      ((w.step (.append ⟨0⟩ (.bool true))).readNative (⟨0⟩ : BridgeRef .bool)).2 = [false] := by
  intro w
  have run := Run.start.script heldOutside (by cbv)
  obtain ⟨b, h⟩ := Option.isSome_iff_exists.mp (show
    ((worldFrom .empty heldOutside).bridge? (⟨0⟩ : BridgeRef .bool)).isSome = true by cbv)
  have allowed : rewritten.Allowed (worldFrom .empty heldOutside) := of_decide_eq_true (by cbv)
  obtain ⟨_, renewed, _⟩ := held_containers_untouched run
  obtain ⟨⟨c, entry, _, only⟩, isolated⟩ := renewed .bool ⟨0⟩ b rewritten h allowed (.write _)
  have backing : c.backing = ⟨1⟩ := by
    have stands := World.backing?_of_bridge? entry
    have there : ((worldFrom .empty heldOutside).step rewritten).backing?
        (⟨0⟩ : BridgeRef .bool) = some ⟨1⟩ := by cbv
    exact Option.some.inj (stands.symm.trans there)
  obtain ⟨_, undisturbed⟩ := isolated [] _ (run.step rewritten allowed)
    (fun e mem => absurd mem List.not_mem_nil) c entry
  have former : (worldFrom .empty heldOutside).Knows (.array ⟨0⟩) := of_decide_eq_true (by cbv)
  have seen := undisturbed (.append ⟨0⟩ (.bool true)) trivial id (by rintro a rfl; exact former)
  have answer := seen.answer_of_scalar rfl (World.reachable_iff.mp (by cbv))
    (World.reachable_iff.mp (by cbv))
  refine ⟨?_, answer.trans (by cbv)⟩
  rw [← backing]
  exact only

/-- A counting object on which only the first of two bridges holds a reference; the other is
empty. -/
def heldOnce : List Action :=
  [ .allocate .empty .refCounted ⟨none, []⟩,
    .keep [.object ⟨0⟩],
    .newBridge (.handle .refCounted) [⟨⟨0⟩⟩] .keepPrevious,
    .unreference ⟨0⟩,
    .newBridge (.handle .refCounted) [] .keepPrevious ]

/-- **What is done with another bridge can be seen**: if that frees an object, a list that is out of
date comes out without it. -/
theorem other_bridge_seen : ¬ ∀ (past later : List Event) (w w' : World) (T : ElementType)
    (r : BridgeRef T) (values : List T.Carrier) (x : Action), Run past w →
      (w.bridge? r).isSome = true → (Action.writeNative r values).Allowed w →
      Run (later ++ ⟨w, .writeNative r values⟩ :: past) w' →
      (∀ e ∈ later, ∀ a, w.Knows (.array a) → ¬ e.TakesOver r.slot a) →
      x.Allowed w' → x.ofBridge = true → ¬ x.footprint.bridges r.slot →
      w'.AtHand r.slot → (w'.step x).AtHand r.slot →
      ((w'.step x).readNative r).2 = (w'.readNative r).2 := by
  intro all
  have run := Run.start.script heldOnce (by cbv)
  let r : BridgeRef (.handle .refCounted) := ⟨1⟩
  have allowed : (Action.writeNative r []).Allowed (worldFrom .empty heldOnce) :=
    of_decide_eq_true (by cbv)
  have added : (Action.append ⟨2⟩ (.object ⟨0⟩)).Allowed
      ((worldFrom .empty heldOnce).step (.writeNative r [])) := of_decide_eq_true (by cbv)
  have longer := (run.step _ allowed).step _ added
  have same := all _ [_] _ _ _ r [] (@Action.writeNative (.handle .refCounted) ⟨0⟩ []) run
    (by cbv) allowed longer (fun e mem a _ taken => by cases List.mem_singleton.mp mem; exact taken)
    (of_decide_eq_true (by cbv)) rfl Nat.one_ne_zero (World.reachable_iff.mp (by cbv))
    (World.reachable_iff.mp (by cbv))
  have before : ((((worldFrom .empty heldOnce).writeNative r []).append ⟨2⟩
      (.object ⟨0⟩)).readNative r).2.length = 1 := by cbv
  have after : (((((worldFrom .empty heldOnce).writeNative r []).append ⟨2⟩
      (.object ⟨0⟩)).writeNative (⟨0⟩ : BridgeRef (.handle .refCounted)) []).readNative
        r).2.length = 0 := by cbv
  have lengths := congrArg List.length same
  exact absurd (after.symm.trans (lengths.trans before)) (by decide)

end ArrayBridge
