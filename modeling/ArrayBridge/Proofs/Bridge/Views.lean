import ArrayBridge.Proofs.Bridge.Freshness

/-!
# The two views of a bridge agree

In every world that a run leads to, a native read answers what the container unwraps to
(`views_agree`). The run may do anything in between: change containers through any handle, have
several bridges on one container, hand out lists and never take them back, refuse writes, and end
objects.

**The invariant** is that every open bridge tracks its container, within as many changes as there
were since its list was last accessed. It is kept by each action (`Tracked.step`), and for most of
them there is nothing to show but that the bridge and its container were left alone, or that the
container was changed once.

**What is asked of a run.** A typed handle that is written leads to an instance of its class, as the
type promises. And as long as a bridge is open and its list is not accessed, no container is changed
`UInt64.size` times, since then its revision would come round.
-/

namespace ArrayBridge

namespace Event

/-- The native list of the bridge in a place is accessed, or the bridge is made. -/
def accesses (slot : Nat) (e : Event) : Bool :=
  match e.action with
  | .newBridge .. => e.world.bridges.size == slot
  | .readNative r | .openSession r | .writeNative r _ | .closeSession r _ | .pushNative r _ =>
    r.slot == slot && (e.world.bridge? r).isSome
  | _ => false

/-- A container that exists is changed. -/
def changes (a : ArrayId) (e : Event) : Bool :=
  decide (a.slot < e.world.containers.size) &&
    (e.after.container a).revision != (e.world.container a).revision

/-- The handles that are written lead to instances of their class. -/
def Fitting (e : Event) : Prop :=
  match e.action with
  | .newBridge T values _ => ∀ x ∈ values, e.world.Befits T x
  | @Action.writeNative T _ values | @Action.closeSession T _ values =>
    ∀ x ∈ values, e.world.Befits T x
  | @Action.pushNative T _ x => e.world.Befits T x
  | _ => True

end Event

/-- The events since the list of the bridge was accessed last. -/
def sinceAccess (past : List Event) (slot : Nat) : List Event :=
  past.takeWhile fun e => !e.accesses slot

/-- How often a container was changed since then. -/
def changesSince (past : List Event) (slot : Nat) (a : ArrayId) : Nat :=
  (sinceAccess past slot).countP (Event.changes a)

/-- As long as a bridge is open and its list is not accessed, no container is changed so often that
it shows a former revision again. -/
def RevisionsTell (past : List Event) : Prop :=
  ∀ stretch, stretch <:+: past → ∀ slot,
    (∀ e ∈ stretch, (e.world.anyBridge? slot).isSome = true ∧ e.accesses slot = false) →
      ∀ a, stretch.countP (Event.changes a) < UInt64.size

theorem RevisionsTell.tail {e : Event} {past : List Event} (h : RevisionsTell (e :: past)) :
    RevisionsTell past :=
  fun stretch inside => h stretch (inside.trans (List.suffix_cons e past).isInfix)

/-- An access begins the count anew. -/
theorem changesSince_of_access {e : Event} {slot : Nat} (h : e.accesses slot = true)
    (past : List Event) (a : ArrayId) : changesSince (e :: past) slot a = 0 := by
  simp [changesSince, sinceAccess, h]

/-- And any other event that changes the container adds to it. -/
theorem changesSince_of_other {e : Event} {slot : Nat} (h : e.accesses slot = false)
    (past : List Event) (a : ArrayId) :
    changesSince (e :: past) slot a =
      changesSince past slot a + if e.changes a then 1 else 0 := by
  simp [changesSince, sinceAccess, h, List.countP_cons]

/-- The actions that are about a bridge and leave it open. -/
inductive Action.On {T : ElementType} (r : BridgeRef T) : Action → Prop where
  | setPolicy (policy : RejectionPolicy) : On r (.setPolicy r policy)
  | readNative : On r (.readNative r)
  | writeNative (values : List T.Carrier) : On r (.writeNative r values)
  | pushNative (x : T.Carrier) : On r (.pushNative r x)
  | openSession : On r (.openSession r)
  | closeSession (values : List T.Carrier) : On r (.closeSession r values)
  | writeUntyped (candidate : ArrayId) : On r (.writeUntyped r candidate)
  | setAccessor (arguments : List Variant) : On r (.setAccessor r arguments)

namespace World

variable {w : World}

/-- An action leaves a container as it is, or changes it once. -/
theorem changes_step (s : w.Sound) {x : Action} (allowed : x.Allowed w) {a : ArrayId}
    (known : w.Knows (.array a)) :
    (((w.step x).container a).items = (w.container a).items ∧
        ((w.step x).container a).revision = (w.container a).revision) ∨
      ((w.step x).container a).revision = (w.container a).revision + 1 ∧
        Event.changes a ⟨w, x⟩ = true := by
  refine (step_container s allowed known).imp_right fun revision => ⟨revision, ?_⟩
  have differs : (w.container a).revision + 1 ≠ (w.container a).revision := by
    intro same
    exact absurd (UInt64.add_eq_left.mp same) (by decide)
  simp only [Event.changes, Event.after, revision, Bool.and_eq_true, decide_eq_true_eq, bne_iff_ne]
  exact ⟨known, differs⟩

/-- A bridge whose entry is left alone is behind its container further on. -/
theorem Behind.step {T : ElementType} {b : Bridge T} {k : Nat} {P Q : Prop} (h : w.Behind k b P)
    (s : w.Sound) (known : w.Knows (.array b.backing)) {x : Action} (allowed : x.Allowed w)
    (agree : ((w.step x).container b.backing).items = (w.container b.backing).items → P → Q) :
    (w.step x).Behind (k + if Event.changes b.backing ⟨w, x⟩ then 1 else 0) b Q := by
  rcases changes_step s allowed known with ⟨items, revision⟩ | ⟨revision, changed⟩
  · exact (h.still revision (agree items)).mono (Nat.le_add_right k _)
  · rw [changed]
    exact h.further revision

/-- A bridge whose entry is left alone tracks its container further on. -/
theorem Tracks.step {T : ElementType} {b : Bridge T} {k : Nat} (h : w.Tracks k b) (s : w.Sound)
    (fits : w.Fits b) {x : Action} (allowed : x.Allowed w) :
    (w.step x).Tracks (k + if Event.changes b.backing ⟨w, x⟩ then 1 else 0) b where
  befits y hy := (h.befits y hy).evolve (evolves_step s allowed) (fits.values y hy)
  distance := h.behind.step s fits.backing allowed fun items shows => by
    rw [items]
    exact shows.evolve (evolves_step s allowed) fits.values (s.items b.backing)

/-- What stands in the place of a bridge is that bridge. -/
theorem Tracks.found {T U : ElementType} {r : BridgeRef U} {b : Bridge T} {k : Nat}
    (h : ∃ c, w.bridge? r = some c ∧ w.Tracks k c) (here : w.anyBridge? r.slot = some ⟨T, b⟩) :
    w.Tracks k b := by
  obtain ⟨c, entry, tracks⟩ := h
  cases (bridge?_eq_some_iff.mp entry).symm.trans here
  exact tracks

/-! ## What an action can do to a bridge -/

/-- A bridge that is open after an action was open before, or was made by it. -/
theorem lt_or_new {x : Action} (s : w.Sound) (allowed : x.Allowed w) {slot : Nat}
    (there : slot < (w.step x).bridges.size) :
    slot < w.bridges.size ∨
      ∃ T values policy, x = .newBridge T values policy ∧ slot = w.bridges.size := by
  by_cases course : x.isCourse = true
  · have size := (course_step s course allowed).tables.2.1
    exact .inl (size ▸ there)
  by_cases new : ∃ T values policy, x = .newBridge T values policy
  · obtain ⟨T, values, policy, rfl⟩ := new
    have size := size_newBridge w T values policy
    have there : slot < (w.newBridge T values policy).1.bridges.size := there
    rcases Nat.lt_or_ge slot w.bridges.size with before | beyond
    · exact .inl before
    · exact .inr ⟨T, values, policy, rfl, by omega⟩
  · obtain ⟨size, _⟩ := entry_step (w := w) course fun T values policy he =>
      new ⟨T, values, policy, he⟩
    exact .inl (size ▸ there)

/-- An action is no access to the list of a bridge that it is not about. -/
theorem accesses_of_untouched {x : Action} {slot : Nat} (before : slot < w.bridges.size)
    (untouched : ¬ x.footprint.bridges slot) : Event.accesses slot ⟨w, x⟩ = false := by
  cases x with
  | newBridge T values policy => exact beq_eq_false_iff_ne.mpr (Nat.ne_of_gt before)
  | readNative q | openSession q | writeNative q values | closeSession q values | pushNative q y =>
    exact Bool.and_eq_false_iff.mpr (.inl (beq_eq_false_iff_ne.mpr (Ne.symm untouched)))
  | _ => rfl

/-- **An action about a place** after which a bridge is open there did nothing, since the bridge
that it names is not the one, or it is one of those on an open bridge. -/
theorem idle_or_on {x : Action} {slot : Nat} {entry : AnyBridge}
    (touched : x.footprint.bridges slot) (here : (w.step x).anyBridge? slot = some entry) :
    (w.step x = w ∧ Event.accesses slot ⟨w, x⟩ = false) ∨
      ∃ (U : ElementType) (q : BridgeRef U) (c : Bridge U),
        slot = q.slot ∧ w.bridge? q = some c ∧ x.On q := by
  have opens : ∀ {U : ElementType} {q : BridgeRef U}, slot = q.slot → x.On q →
      (w.bridge? q = none → w.step x = w ∧ Event.accesses slot ⟨w, x⟩ = false) →
      (w.step x = w ∧ Event.accesses slot ⟨w, x⟩ = false) ∨
        ∃ (U : ElementType) (q : BridgeRef U) (c : Bridge U),
          slot = q.slot ∧ w.bridge? q = some c ∧ x.On q := by
    intro U q place on idle
    cases open' : w.bridge? q with
    | none => exact .inl (idle open')
    | some c => exact .inr ⟨U, q, c, place, open', on⟩
  have unseen : ∀ {U : ElementType} {q : BridgeRef U}, w.bridge? q = none →
      (q.slot == slot && (w.bridge? q).isSome) = false := by
    intro U q closed
    rw [closed, Option.isSome_none, Bool.and_false]
  cases x with
  | setPolicy q policy =>
    exact opens touched (.setPolicy policy) fun closed => ⟨setPolicy_of_none closed policy, rfl⟩
  | readNative q =>
    exact opens touched .readNative fun closed => ⟨sync_of_none closed, unseen closed⟩
  | writeNative q values =>
    exact opens touched (.writeNative values) fun closed =>
      ⟨writeNative_of_none closed values, unseen closed⟩
  | closeSession q values =>
    exact opens touched (.closeSession values) fun closed =>
      ⟨writeNative_of_none closed values, unseen closed⟩
  | pushNative q y =>
    exact opens touched (.pushNative y) fun closed => ⟨pushNative_of_none closed y, unseen closed⟩
  | openSession q =>
    exact opens touched .openSession fun closed =>
      ⟨congrArg Prod.fst (openSession_of_none closed), unseen closed⟩
  | writeUntyped q candidate =>
    exact opens touched (.writeUntyped candidate) fun closed =>
      ⟨writeUntyped_of_none closed candidate, rfl⟩
  | setAccessor q arguments =>
    exact opens touched (.setAccessor arguments) fun closed =>
      ⟨setAccessor_of_none closed arguments, rfl⟩
  | dropBridge q =>
    cases touched
    have gone : (w.step (.dropBridge q)).anyBridge? q.slot = none := anyBridge?_dropBridge w q
    rw [gone] at here
    cases here
  | _ => exact touched.elim

/-- **What stands in a place after an action** stood there before, or was made by the action, or is
an open bridge that the action is about. -/
theorem entry_cases {x : Action} (s : w.Sound) (allowed : x.Allowed w) {slot : Nat}
    {entry : AnyBridge} (here : (w.step x).anyBridge? slot = some entry) :
    (w.anyBridge? slot = some entry ∧ Event.accesses slot ⟨w, x⟩ = false) ∨
      (∃ T values policy, x = .newBridge T values policy ∧ slot = w.bridges.size) ∨
      ∃ (U : ElementType) (q : BridgeRef U) (c : Bridge U),
        slot = q.slot ∧ w.bridge? q = some c ∧ x.On q := by
  by_cases touched : x.footprint.bridges slot
  · rcases idle_or_on touched here with ⟨idle, other⟩ | on
    · rw [idle] at here
      exact .inl ⟨here, other⟩
    · exact .inr (.inr on)
  · rcases lt_or_new s allowed (lt_of_anyBridge? here) with before | new
    · rcases (evolves_step s allowed).entry slot before touched with gone | same
      · rw [gone] at here
        cases here
      · exact .inl ⟨same.symm.trans here, accesses_of_untouched before touched⟩
    · exact .inr (.inl new)

/-- **A bridge that is open** was so before, unless it was made just now. -/
theorem open_before {x : Action} (s : w.Sound) (allowed : x.Allowed w) {slot : Nat}
    (opened : ((w.step x).anyBridge? slot).isSome = true)
    (other : Event.accesses slot ⟨w, x⟩ = false) : (w.anyBridge? slot).isSome = true := by
  obtain ⟨entry, here⟩ := Option.isSome_iff_exists.mp opened
  rcases entry_cases s allowed here with
    ⟨before, _⟩ | ⟨U, values, policy, rfl, new⟩ | ⟨U, q, c, rfl, open', _⟩
  · simp [before]
  · cases other.symm.trans (beq_iff_eq.mpr new.symm)
  · simp [bridge?_eq_some_iff.mp open']

/-! ## The invariant -/

/-- **The invariant**: an open bridge is behind its container by no more changes than there were
since its list was accessed. -/
def Tracked (past : List Event) (w : World) : Prop :=
  ∀ slot (T : ElementType) (b : Bridge T), w.anyBridge? slot = some ⟨T, b⟩ →
    w.Tracks (changesSince past slot b.backing) b

section Acting

variable {past : List Event} {T U : ElementType} {b : Bridge T} {q : BridgeRef U} {c : Bridge U}
  {x : Action}

/-- A bridge that is open where an action accesses its list. -/
theorem changesSince_of_open (open' : w.bridge? q = some c) (a : ArrayId)
    (access : Event.accesses q.slot ⟨w, x⟩ = (q.slot == q.slot && (w.bridge? q).isSome)) :
    changesSince (⟨w, x⟩ :: past) q.slot a = 0 := by
  refine changesSince_of_access (access.trans ?_) past a
  rw [open', beq_self_eq_true]
  rfl

/-- An action that leaves a bridge and tracks it within its former distance, or at zero. -/
theorem tracked_of_outcome {w' : World} {k : Nat}
    (outcome : (w'.bridge? q = some c ∧ w'.Tracks (changesSince past q.slot c.backing) c) ∨
      ∃ c', w'.bridge? q = some c' ∧ w'.Tracks 0 c')
    (here : w'.anyBridge? q.slot = some ⟨T, b⟩) :
    w'.Tracks (changesSince past q.slot b.backing + k) b := by
  rcases outcome with ⟨entry, tracks⟩ | zero
  · cases (bridge?_eq_some_iff.mp entry).symm.trans here
    exact tracks.mono (Nat.le_add_right _ k)
  · exact (Tracks.found zero here).mono (Nat.zero_le _)

/-- What an action does to an open bridge that it is about: its list is accessed, and then it is at
distance zero, or the distance grows as the container is changed. -/
theorem tracked_on (s : w.Sound) (h : Tracked past w)
    (few : ∀ a, changesSince past q.slot a < UInt64.size)
    (fitting : Event.Fitting ⟨w, x⟩) (allowed : x.Allowed w) (open' : w.bridge? q = some c)
    (on : x.On q) (here : (w.step x).anyBridge? q.slot = some ⟨T, b⟩) :
    (w.step x).Tracks (changesSince (⟨w, x⟩ :: past) q.slot b.backing) b := by
  have before := h q.slot U c (bridge?_eq_some_iff.mp open')
  cases on with
  | readNative =>
    rw [changesSince_of_open open' b.backing rfl]
    obtain ⟨c', entry, _, _, zero⟩ := tracks_sync s (s.guarded allowed) open' before (few _)
    exact Tracks.found ⟨c', entry, zero⟩ here
  | openSession =>
    rw [changesSince_of_open open' b.backing rfl]
    exact Tracks.found (tracks_openSession s (s.guarded allowed) open' before (few _)).1 here
  | pushNative y =>
    rw [changesSince_of_open open' b.backing rfl]
    obtain ⟨hand, known⟩ := allowed
    exact Tracks.found
      (tracks_pushNative s (s.guarded hand) open' before (few _) fitting known) here
  | writeNative values | closeSession values =>
    rw [changesSince_of_open open' b.backing rfl]
    obtain ⟨hand, known⟩ := allowed
    obtain ⟨c', entry, _, _, zero⟩ := tracks_writeNative s (s.guarded hand) open' fitting known
    exact Tracks.found ⟨c', entry, zero⟩ here
  | setPolicy policy =>
    have set : w.step (.setPolicy q policy) = w.setBridge q { c with policy } :=
      setPolicy_eq open' policy
    rw [set, anyBridge?_setBridge open'] at here
    cases here
    rw [changesSince_of_other rfl]
    have tracks := before.step s (s.bridge q.slot _ c (bridge?_eq_some_iff.mp open')) allowed
    exact ⟨tracks.befits, tracks.distance⟩
  | writeUntyped candidate =>
    rw [changesSince_of_other rfl]
    obtain ⟨hand, known⟩ := allowed
    exact tracked_of_outcome
      (tracks_writeUntyped s (s.guarded hand) open' before (few _) known) here
  | setAccessor arguments =>
    rw [changesSince_of_other rfl]
    obtain ⟨hand, known⟩ := allowed
    exact tracked_of_outcome
      (tracks_setAccessor s (s.guarded hand) open' before (few _) known) here

/-- **An action keeps the invariant.** -/
theorem Tracked.step (s : w.Sound) (h : Tracked past w)
    (few : ∀ slot, (w.anyBridge? slot).isSome = true → ∀ a, changesSince past slot a < UInt64.size)
    (fitting : Event.Fitting ⟨w, x⟩) (allowed : x.Allowed w) :
    Tracked (⟨w, x⟩ :: past) (w.step x) := by
  intro slot T b here
  rcases entry_cases s allowed here with
    ⟨before, other⟩ | ⟨U, values, policy, rfl, new⟩ | ⟨U, q, c, rfl, open', on⟩
  · rw [changesSince_of_other other]
    exact (h slot T b before).step s (s.bridge slot T b before) allowed
  · obtain ⟨c, entry, _, _, zero⟩ := tracks_newBridge s policy fitting allowed
    have access : Event.accesses slot ⟨w, .newBridge U values policy⟩ = true :=
      beq_iff_eq.mpr new.symm
    rw [changesSince_of_access access]
    have place : slot = (w.newBridge U values policy).2.slot :=
      new.trans (slot_openBridge w U values policy).symm
    exact Tracks.found ⟨c, entry, zero⟩ (place ▸ here)
  · have opened : (w.anyBridge? q.slot).isSome = true := by simp [bridge?_eq_some_iff.mp open']
    exact tracked_on s h (few q.slot opened) fitting allowed open' on here

end Acting

theorem tracked_empty : Tracked [] empty := by
  intro slot T b here
  have none : empty.anyBridge? slot = none := by simp [anyBridge?, empty, Array.getD]
  rw [none] at here
  cases here

end World

/-- A bridge that is open was so at all events since its list was accessed. -/
theorem Run.open_since {past : List Event} {w : World} (run : Run past w) {slot : Nat}
    (opened : (w.anyBridge? slot).isSome = true) :
    ∀ e ∈ sinceAccess past slot, (e.world.anyBridge? slot).isSome = true := by
  induction run with
  | start => exact fun e he => absurd he List.not_mem_nil
  | @step past w run x allowed ih =>
    cases other : Event.accesses slot ⟨w, x⟩ with
    | true => simp [sinceAccess, other]
    | false =>
      have before := World.open_before run.sound allowed opened other
      simpa [sinceAccess, other, before] using ih before

/-- So its container was changed fewer times since then than there are revisions. -/
theorem Run.few {past : List Event} {w : World} (run : Run past w) (tell : RevisionsTell past)
    (slot : Nat) (opened : (w.anyBridge? slot).isSome = true) (a : ArrayId) :
    changesSince past slot a < UInt64.size := by
  apply tell (sinceAccess past slot) (List.takeWhile_prefix _).isInfix slot
  intro e he
  refine ⟨run.open_since opened e he, ?_⟩
  simpa using List.all_eq_true.mp List.all_takeWhile e he

/-- **Every open bridge tracks its container, over every run.** -/
theorem Run.tracked {past : List Event} {w : World} (run : Run past w)
    (fitting : ∀ e ∈ past, e.Fitting) (tell : RevisionsTell past) : World.Tracked past w := by
  induction run with
  | start => exact World.tracked_empty
  | step run a allowed ih =>
    have before := ih (fun e he => fitting e (.tail _ he)) tell.tail
    exact before.step run.sound (run.few tell.tail) (fitting _ (.head _)) allowed

/-- **The two views of a bridge agree.** In every world that a run leads to, for a bridge that is
open and can be reached:

- the container it shows has the mark of its type, before and after a native read;
- a native read answers what the container unwraps to, in order and as often, but for handles on
  freed objects and for which NaN is which; and for scalars there are no handles to leave out;
- directly after a native write, or in a new bridge, it answers the values that were written. -/
theorem views_agree {past : List Event} {w : World} (run : Run past w)
    (fitting : ∀ e ∈ past, e.Fitting) (tell : RevisionsTell past) {T : ElementType}
    {r : BridgeRef T} (opened : (w.bridge? r).isSome = true) (hand : w.AtHand r.slot) :
    let w' := (w.readNative r).1
    let values := (w.readNative r).2
    (∃ a, w.backing? r = some a ∧ w'.backing? r = some a ∧
      (∃ t, (w.container a).tag = some t ∧ t.same T.tag = true) ∧
      (∃ t, (w'.container a).tag = some t ∧ t.same T.tag = true) ∧
      (values.filter (w'.standing T)).map T.canonical =
        (w'.decodeAll T (w'.container a).items).map T.canonical ∧
      (T.class? = none → values.map T.canonical =
        (w'.decodeAll T (w'.container a).items).map T.canonical)) ∧
    (∀ written, ((w.writeNative r written).readNative r).2 = written) ∧
    ∀ (U : ElementType) (written : List U.Carrier) (policy : RejectionPolicy),
      let new := w.newBridge U written policy
      (new.1.readNative new.2).2 = written := by
  intro w' values
  obtain ⟨b, here⟩ := Option.isSome_iff_exists.mp opened
  have s := run.sound
  have g := s.guarded hand
  have quiet := Footprint.quiet_bridge r.slot
  refine ⟨?_, ?_, ?_⟩
  · have entry := World.bridge?_eq_some_iff.mp here
    have tracks := run.tracked fitting tell r.slot T b entry
    have few := run.few tell r.slot (by simp [entry]) b.backing
    obtain ⟨b', entry, backing, current, zero⟩ := World.tracks_sync s g here tracks few
    have shows : w'.Shows T values (w'.container b.backing).items := by
      have answer : values = b'.values := World.nativeValues_eq entry
      rw [answer, ← backing]
      exact zero.shows (by decide) current
    have fits := s.bridge r.slot T b (World.bridge?_eq_some_iff.mp here)
    have step : w.Evolves (.bridge r.slot) w' := (World.course_readNative s rfl).evolves quiet
    refine ⟨b.backing, ?_, ?_, fits.tag, (fits.evolve step).tag, shows, shows.of_scalar⟩
    · rw [World.backing?, here]
      rfl
    · have entry : w'.bridge? r = some b' := entry
      rw [World.backing?, entry, ← backing]
      rfl
  · intro written
    obtain ⟨_, _, revision⟩ := World.container_writeNative here written
    rw [World.readNative_eq (g.writeNative written) (World.bridge?_writeNative g here written)]
    exact if_pos (congrArg some revision.symm)
  · intro U written policy new
    obtain ⟨retained, entry⟩ := World.bridge?_newBridge s written policy
    obtain ⟨_, _, revision⟩ := World.container_newBridge w written policy
    apply (World.readNative_eq (s.guarded_newBridge written policy) entry).trans
    exact if_pos (congrArg some revision.symm)

/-- A run that is short is not long enough for a revision to come round. -/
theorem RevisionsTell.of_length {past : List Event} (h : past.length < UInt64.size) :
    RevisionsTell past := by
  intro stretch inside _ _ a
  calc stretch.countP (Event.changes a)
    _ ≤ stretch.length := List.countP_le_length
    _ ≤ past.length := inside.length_le
    _ < UInt64.size := h

/-- Scalars befit in any world. -/
theorem World.befits_of_scalar {w : World} {T : ElementType} (scalar : T.class? = none)
    (x : T.Carrier) : w.Befits T x := by
  intro cls o hc _
  rw [scalar] at hc
  cases hc

/-- Two bridges on one container, one of bytes and one of long integers, which holds a number that
is no byte. -/
def twoWidths : List Action :=
  [ .newBridge (.int .u8) [⟨7, by decide⟩] .keepPrevious,
    .newBridge (.int .i64) [] .keepPrevious,
    @Action.writeUntyped (.int .i64) ⟨1⟩ ⟨0⟩,
    .append ⟨0⟩ (.int 300) ]

/-- The bridge of bytes passes the number over, and the other shows it. -/
theorem views_agree_twoWidths : ∃ past w, Run past w ∧
    (w.readNative (⟨0⟩ : BridgeRef (.int .u8))).2.length = 1 ∧
      (w.readNative (⟨1⟩ : BridgeRef (.int .i64))).2.length = 2 := by
  have run := Run.start.script twoWidths (by cbv)
  have fitting : ∀ e ∈ eventsFrom .empty [] twoWidths, e.Fitting := by
    simp only [twoWidths, eventsFrom, List.forall_mem_cons]
    exact ⟨trivial, trivial, fun x _ => World.befits_of_scalar rfl x,
      fun x _ => World.befits_of_scalar rfl x, fun e he => absurd he List.not_mem_nil⟩
  have tell : RevisionsTell (eventsFrom .empty [] twoWidths) := .of_length (by decide)
  obtain ⟨⟨a, backing, _, _, _, _, bytes⟩, _⟩ := views_agree run fitting tell
    (show ((worldFrom .empty twoWidths).bridge? (⟨0⟩ : BridgeRef (.int .u8))).isSome = true by cbv)
    (World.reachable_iff.mp (by cbv))
  obtain ⟨⟨c, backing', _, _, _, _, longs⟩, _⟩ := views_agree run fitting tell
    (show ((worldFrom .empty twoWidths).bridge? (⟨1⟩ : BridgeRef (.int .i64))).isSome = true by cbv)
    (World.reachable_iff.mp (by cbv))
  have first : some a = some ⟨0⟩ := backing.symm.trans (by cbv)
  have second : some c = some ⟨0⟩ := backing'.symm.trans (by cbv)
  cases first
  cases second
  have bytes := congrArg List.length (bytes rfl)
  have longs := congrArg List.length (longs rfl)
  have items : (((worldFrom .empty twoWidths).readNative (⟨0⟩ : BridgeRef (.int .u8))).1.container
      ⟨0⟩).items = [.int 7, .int 300] := by cbv
  have items' : (((worldFrom .empty twoWidths).readNative (⟨1⟩ : BridgeRef (.int .i64))).1.container
      ⟨0⟩).items = [.int 7, .int 300] := by cbv
  rw [List.length_map, List.length_map] at bytes longs
  rw [items] at bytes
  rw [items'] at longs
  exact ⟨_, _, run, bytes, longs⟩

end ArrayBridge
