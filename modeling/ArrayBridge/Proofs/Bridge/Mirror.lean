import ArrayBridge.Proofs.Bridge.Backing
import ArrayBridge.Proofs.Bridge.Validation

/-!
# What a bridge remembers of its container

A bridge that shows the revision of its container keeps two things of it: a native list, and the
objects on which it holds a reference. If every element of the container unwraps by now, then both
are what a fresh look would give (`Mirrors`). That is not so in general: an element that does not
unwrap any more was perhaps an object that has died, and its handle is still in the list and in what
the bridge holds on to. But nothing that does not unwrap ever comes to, so what all unwraps now
unwrapped at the last look as well.

Unlike what a native read shows (`Tracks`), this asks nothing of the handles that are written: where
one leads to no instance of its class, the container does not unwrap as a whole.

**The invariant** is that every open bridge is behind its container by no more changes than there
were, and mirrors it at distance zero (`Run.mirrored`). An action makes the bridge anew, or leaves
all of its entry but the policy.
-/

namespace ArrayBridge

namespace World

variable {T : ElementType} {w w' : World} {r : BridgeRef T} {b : Bridge T} {fp : Footprint}

theorem mem_directObjects {items : List Variant} {o : ObjectId} :
    o ∈ directObjects items ↔ Variant.object o ∈ items := by
  unfold directObjects
  rw [List.mem_filterMap]
  constructor
  · rintro ⟨v, hv, ho⟩
    cases v with
    | object p =>
      cases ho
      exact hv
    | _ => cases ho
  · exact fun here => ⟨_, here, rfl⟩

/-! ## Lists that unwrap as a whole -/

/-- What unwraps later unwrapped before, to the same. -/
theorem decode_before (step : w.Evolves fp w') {v : Variant} (known : w.Knows v) {x : T.Carrier}
    (later : w'.decode T v = .ok x) : w.decode T v = .ok x := by
  have later : w'.decode? T v = some x := congrArg Except.toOption later
  rw [decode_evolve step known] at later
  obtain ⟨before, _⟩ := Option.filter_eq_some_iff.mp later
  unfold decode? at before
  cases read : w.decode T v with
  | ok y =>
    rw [read] at before
    exact congrArg Except.ok (Option.some.inj before)
  | error reason =>
    rw [read] at before
    cases before

theorem Unwraps.before {items : List Variant} {all : List T.Carrier}
    (later : w'.Unwraps T items all) (step : w.Evolves fp w') (known : ∀ v ∈ items, w.Knows v) :
    w.Unwraps T items all := by
  induction items generalizing all with
  | nil => exact later
  | cons v rest ih =>
    obtain ⟨x, others, rfl, first, whole⟩ := unwraps_cons.mp later
    have before := decode_before step (known v List.mem_cons_self) first
    refine unwraps_cons.mpr ⟨x, others, rfl, before, ?_⟩
    exact ih whole fun u hu => known u (List.mem_cons_of_mem v hu)

/-- A wrapped value unwraps to itself if it unwraps at all, and a NaN to one. -/
theorem canonical_of_decode_encode {x y : T.Carrier} (back : w.decode T (T.encode x) = .ok y) :
    T.canonical y = T.canonical x := by
  have back : w.decode? T (T.encode x) = some y := congrArg Except.toOption back
  have befits : w.Befits T x := by
    intro cls o hc ho
    have fit := (of_decode back).1
    cases T with
    | handle c =>
      have back : (w.decodeHandle c (.object (Handle.object x))).toOption = some y := back
      exact fit cls o hc ((decodeHandle_eq_some back).1.symm.trans ho)
    | optionalHandle c =>
      have some' : (ElementType.optionalHandle c).encode x ≠ .nil := by
        rw [ho]
        exact Variant.noConfusion
      rw [decode_optional w c some'] at back
      obtain ⟨h, hh, rfl⟩ := Option.map_eq_some_iff.mp back
      exact fit cls o hc ((decodeHandle_eq_some hh).1.symm.trans ho)
    | _ => cases hc
  have there := decode_encode befits
  rw [back] at there
  split at there
  · exact Option.some.inj there
  · cases there

/-- A native list is what the elements unwrap to, if they all do, with one NaN for all. -/
def Renders (w : World) (T : ElementType) (values : List T.Carrier) (items : List Variant) : Prop :=
  ∀ all, w.Unwraps T items all → values.map T.canonical = all.map T.canonical

theorem Renders.evolve {values : List T.Carrier} {items : List Variant}
    (h : w.Renders T values items) (step : w.Evolves fp w') (known : ∀ v ∈ items, w.Knows v) :
    w'.Renders T values items := fun all whole => h all (whole.before step known)

theorem renders_decodeAll (w : World) (T : ElementType) (items : List Variant) :
    w.Renders T (w.decodeAll T items) items := by
  intro all whole
  rw [whole.decodeAll]

theorem renders_encodeAll (w : World) (T : ElementType) (values : List T.Carrier) :
    w.Renders T values (T.encodeAll values) := by
  induction values with
  | nil =>
    intro all whole
    cases all with
    | nil => rfl
    | cons => cases whole
  | cons x rest ih =>
    intro all whole
    obtain ⟨y, others, rfl, first, later⟩ := unwraps_cons.mp whole
    rw [List.map_cons, List.map_cons, canonical_of_decode_encode first, ih others later]

/-! ## Bridges that mirror their containers -/

/-- **What a bridge keeps is what a fresh look would give**: its list is what the elements of the
container unwrap to, if they all do, and it holds references on the direct objects among them, all
that are counted included. -/
structure Mirrors (w : World) (b : Bridge T) : Prop where
  values : w.Renders T b.values (w.container b.backing).items
  retained : ∃ p : ObjectId → Bool,
    b.retained = (directObjects (w.container b.backing).items).filter p ∧
      ∀ o ∈ directObjects (w.container b.backing).items, (w.object o).counted = true → p o = true

/-- What was counted later was counted before. -/
theorem counted_before (step : w.Evolves fp w') {o : ObjectId} (known : w.Knows (.object o))
    (later : (w'.object o).counted = true) : (w.object o).counted = true := by
  obtain ⟨refcounted, alive⟩ := Bool.and_eq_true_iff.mp later
  refine Bool.and_eq_true_iff.mpr ⟨?_, step.alive o known alive⟩
  rw [← step.cls o known]
  exact refcounted

/-- A container that was not changed is mirrored on, whatever dies. -/
theorem Mirrors.evolve (h : w.Mirrors b) (step : w.Evolves fp w')
    (known : ∀ v ∈ (w.container b.backing).items, w.Knows v)
    (items : (w'.container b.backing).items = (w.container b.backing).items) : w'.Mirrors b where
  values := by
    rw [items]
    exact h.values.evolve step known
  retained := by
    obtain ⟨p, retained, counted⟩ := h.retained
    rw [items]
    refine ⟨p, retained, fun o here later => counted o here ?_⟩
    exact counted_before step (known _ (mem_directObjects.mp here)) later

/-- An open bridge shows the revision of its container and mirrors it. -/
def MirrorsAt (w : World) (r : BridgeRef T) : Prop :=
  ∃ b, w.bridge? r = some b ∧ w.IsCurrent b ∧ w.Mirrors b

theorem MirrorsAt.note (h : w.MirrorsAt r) (s : w.Sound) (n : Notice) :
    (w.note n).MirrorsAt r := by
  obtain ⟨b, entry, current, mirrors⟩ := h
  exact ⟨b, entry, current, mirrors.evolve (evolves_note .nothing w n) (s.items b.backing) rfl⟩

/-- What stands in the place of a bridge is that bridge. -/
theorem MirrorsAt.behind {U : ElementType} {r : BridgeRef U} (h : w.MirrorsAt r)
    (here : w.anyBridge? r.slot = some ⟨T, b⟩) (k : Nat) : w.Behind k b (w.Mirrors b) := by
  obtain ⟨c, entry, current, mirrors⟩ := h
  cases (bridge?_eq_some_iff.mp entry).symm.trans here
  exact (Behind.of_current current mirrors).mono (Nat.zero_le k)

/-! ## Each operation -/

/-- **A look makes a bridge mirror its container**, if its list was up to date before. -/
theorem mirrorsAt_look (s : w.Sound) (g : w.Guarded r.slot) (h : w.bridge? r = some b)
    (current : w.IsCurrent b) (renders : w.Renders T b.values (w.container b.backing).items) :
    (w.retainBacking r).MirrorsAt r := by
  have step : w.Evolves (.bridge r.slot) (w.retainBacking r) :=
    evolves_retainBacking (Footprint.quiet_bridge r.slot) w r rfl
  obtain ⟨_, items, revision⟩ := container_retainBacking w r b.backing
  have mirrors : w.Mirrors { b with retained := w.inSight b } :=
    ⟨renders, fun o => (w.object o).counted, rfl, fun _ _ counted => counted⟩
  refine ⟨_, bridge?_retainBacking g h, ?_, ?_⟩
  · exact current.trans (congrArg some revision.symm)
  · exact mirrors.evolve step (s.items b.backing) items

/-- A list that was derived is up to date, before the bridge looks. -/
theorem derive_upToDate (s : w.Sound) (g : w.Guarded r.slot) (h : w.bridge? r = some b) :
    (w.derive r).bridge? r = some (w.derived b) ∧ (w.derive r).IsCurrent (w.derived b) ∧
      (w.derive r).Renders T (w.derived b).values ((w.derive r).container b.backing).items := by
  have step : w.Evolves (.bridge r.slot) (w.derive r) :=
    (course_derive s rfl).evolves (Footprint.quiet_bridge r.slot)
  have known := (s.bridge r.slot T b (bridge?_eq_some_iff.mp h)).backing
  obtain ⟨items, revision⟩ := step.container b.backing known fun h => h
  refine ⟨bridge?_derive g h, congrArg some revision.symm, ?_⟩
  rw [items]
  exact (w.renders_decodeAll T _).evolve step (s.items b.backing)

section Operations

variable (s : w.Sound) (g : w.Guarded r.slot) (h : w.bridge? r = some b)

include s g h

/-- A bridge that is brought up to date mirrors its container. -/
theorem mirrorsAt_sync_of_stale (stale : ¬ w.IsCurrent b) : (w.sync r).MirrorsAt r := by
  have quiet := Footprint.quiet_bridge r.slot
  have derive : Course (.bridge r.slot) w [] (w.derive r) := course_derive s rfl
  have s' := derive.sound quiet s
  obtain ⟨n, refreshed⟩ := refreshed?_of_stale h stale
  obtain ⟨entry, current, renders⟩ := derive_upToDate s g h
  have noted : ((w.derive r).note n).Renders T (w.derived b).values
      ((w.derive r).container b.backing).items :=
    renders.evolve (evolves_note .nothing _ n) (s'.items b.backing)
  unfold sync
  rw [refreshed]
  exact mirrorsAt_look (s'.note n) (g.derive.note n) entry current noted

/-- And so does one that was up to date, if it tells that from the revision. -/
theorem mirrorsAt_sync {k : Nat} (behind : w.Behind k b (w.Mirrors b)) (few : k < UInt64.size) :
    (w.sync r).MirrorsAt r := by
  by_cases current : w.IsCurrent b
  · rw [sync_of_current h current]
    exact ⟨b, h, current, behind.agree few current⟩
  · exact mirrorsAt_sync_of_stale s g h current

theorem mirrorsAt_writeNative {values : List T.Carrier}
    (known : ∀ x ∈ values, w.Knows (T.encode x)) : (w.writeNative r values).MirrorsAt r := by
  have quiet := Footprint.quiet_bridge r.slot
  have rebuild : Course (.bridge r.slot) w [] (w.rebuild r values) := course_rebuild s rfl known
  have look : Course (.bridge r.slot) (w.rebuild r values) _
      ((w.rebuild r values).retainBacking r) := .look _ r rfl
  have s' := rebuild.sound quiet s
  obtain ⟨_, items, revision⟩ := container_rebuild h values
  have entry := bridge?_rebuild g h values
  have renders : (w.rebuild r values).Renders T (w.rebuilt b values).values
      ((w.rebuild r values).container (w.rebuilt b values).backing).items := by
    show Renders _ T values ((w.rebuild r values).container ⟨w.containers.size⟩).items
    rw [items]
    exact renders_encodeAll _ T values
  have looked : ((w.rebuild r values).retainBacking r).MirrorsAt r :=
    mirrorsAt_look s' (g.rebuild values) entry (congrArg some revision.symm) renders
  unfold writeNative
  rw [h]
  exact looked.note (look.sound quiet s') _

theorem mirrorsAt_pushNative {x : T.Carrier} (known : w.Knows (T.encode x)) :
    (w.pushNative r x).MirrorsAt r := by
  have quiet := Footprint.quiet_bridge r.slot
  have session : Course (.bridge r.slot) w _ (w.openSession r).1 := course_openSession s quiet rfl
  obtain ⟨b', entry, _⟩ := Option.map_eq_some_iff.mp (backing?_openSession g h)
  have s' := session.sound quiet s
  refine mirrorsAt_writeNative s' (session.guarded quiet g) entry fun y hy => ?_
  rcases List.mem_append.mp hy with handed | new
  · exact knows_openSession s quiet rfl y handed
  · cases List.mem_singleton.mp new
    exact (session.evolves quiet).knows known

theorem mirrorsAt_adopt {candidate : ArrayId} (known : w.Knows (.array candidate))
    (valid : w.validate T candidate = .ok ()) : (w.adopt r candidate).MirrorsAt r := by
  have quiet := Footprint.quiet_bridge r.slot
  have move : Course (.bridge r.slot) w [] (w.between r candidate) :=
    course_between s quiet rfl known valid
  have s' := move.sound quiet s
  have g' : (w.between r candidate).Guarded r.slot := (g.note _).moveTo candidate
  have moved' : (w.between r candidate).bridge? r = some (moved b candidate) :=
    bridge?_moveTo (g.note _) h candidate
  have derive : Course (.bridge r.slot) (w.between r candidate) []
      ((w.between r candidate).derive r) := course_derive s' rfl
  obtain ⟨entry, current, renders⟩ := derive_upToDate s' g' moved'
  unfold adopt
  rw [h]
  exact mirrorsAt_look (derive.sound quiet s') g'.derive entry current renders

/-- A write that is refused leaves the bridge as it was, or it mirrors its new container. -/
theorem reject_entry (reason : BridgeError) :
    (w.reject r reason).bridge? r = some b ∨ (w.reject r reason).MirrorsAt r := by
  cases policy : b.policy with
  | keepPrevious =>
    rw [reject_keeping h policy]
    exact .inl h
  | resetToEmpty =>
    rw [reject_resetting h policy]
    refine .inr (mirrorsAt_writeNative (s.note _) (g.note _) h ?_)
    exact fun x hx => absurd hx List.not_mem_nil

/-- So does any write from the engine. -/
theorem writeUntyped_entry {candidate : ArrayId} (known : w.Knows (.array candidate)) :
    let w' := (w.writeUntyped r candidate).1
    w'.bridge? r = some b ∨ w'.MirrorsAt r := by
  intro w'
  cases valid : w.validate T candidate with
  | ok _ =>
    have adopted : w' = w.adopt r candidate := writeUntyped_of_ok valid
    rw [adopted]
    exact .inr (mirrorsAt_adopt s g h known valid)
  | error reason =>
    by_cases own : b.backing = candidate
    · subst own
      have synced : w' = (w.note (.rejectedOwnBacking T.tag reason)).sync r :=
        writeUntyped_of_own h valid
      have noted : (w.note (.rejectedOwnBacking T.tag reason)).bridge? r = some b := h
      rw [synced]
      by_cases current : (w.note (.rejectedOwnBacking T.tag reason)).IsCurrent b
      · rw [sync_of_current noted current]
        exact .inl noted
      · exact .inr (mirrorsAt_sync_of_stale (s.note _) (g.note _) noted current)
    · have refused : w' = w.reject r reason := writeUntyped_of_foreign h valid own
      rw [refused]
      exact reject_entry s g h reason

theorem setAccessor_entry {arguments : List Variant} (known : ∀ v ∈ arguments, w.Knows v) :
    let w' := (w.setAccessor r arguments).1
    w'.bridge? r = some b ∨ w'.MirrorsAt r := by
  intro w'
  rcases setAccessor_eq w r arguments with ⟨candidate, first, write⟩ | ⟨reason, refused⟩
  · have same : w' = (w.writeUntyped r candidate).1 := write
    rw [same]
    exact writeUntyped_entry s g h (known _ (List.mem_of_mem_head? first))
  · have same : w' = w.reject r reason := refused
    rw [same]
    exact reject_entry s g h reason

omit s in
/-- A session leaves the bridge without a list. -/
theorem openSession_entry :
    ∃ b', (w.openSession r).1.bridge? r = some b' ∧ b'.revision = none := by
  obtain ⟨b', entry, _⟩ := Option.map_eq_some_iff.mp (backing?_sync g h)
  rw [openSession_eq entry]
  exact ⟨_, bridge?_setBridge entry, rfl⟩

end Operations

theorem mirrorsAt_newBridge (s : w.Sound) {values : List T.Carrier} (policy : RejectionPolicy)
    (known : ∀ x ∈ values, w.Knows (T.encode x)) :
    (w.newBridge T values policy).1.MirrorsAt (w.newBridge T values policy).2 := by
  have new := container_wrapAll (T := T) w values
  have items : (((w.openBridge T values policy).1).container ⟨w.containers.size⟩).items =
      T.encodeAll values := congrArg Container.items new
  have revision : (((w.openBridge T values policy).1).container ⟨w.containers.size⟩).revision =
      UInt64.ofNat values.length := congrArg Container.revision new
  refine mirrorsAt_look (s.openBridge known policy) (s.guarded_opened values policy)
    (bridge?_openBridge w T values policy) (congrArg some revision.symm) ?_
  show Renders _ T values ((w.openBridge T values policy).1.container ⟨w.containers.size⟩).items
  rw [items]
  exact renders_encodeAll _ T values

/-! ## The invariant -/

/-- **The invariant**: an open bridge is behind its container by no more changes than there were
since its list was accessed, and mirrors it if there were none. -/
def Mirrored (past : List Event) (w : World) : Prop :=
  ∀ slot (T : ElementType) (b : Bridge T), w.anyBridge? slot = some ⟨T, b⟩ →
    w.Behind (changesSince past slot b.backing) b (w.Mirrors b)

section Acting

variable {past : List Event} {U : ElementType} {q : BridgeRef U} {c : Bridge U} {x : Action}
  (s : w.Sound)

include s

/-- What an action does to a bridge whose entry it leaves, or of which it changes the policy. -/
theorem mirrored_of_same (h : Mirrored past w) (allowed : x.Allowed w) {slot : Nat}
    (other : Event.accesses slot ⟨w, x⟩ = false) {policy : RejectionPolicy}
    (before : w.anyBridge? slot = some ⟨T, { b with policy }⟩) :
    (w.step x).Behind (changesSince (⟨w, x⟩ :: past) slot b.backing) b ((w.step x).Mirrors b) := by
  have behind : w.Behind (changesSince past slot b.backing) b (w.Mirrors b) := by
    intro n hn
    obtain ⟨m, hm, revision, mirrors⟩ := h slot T { b with policy } before n hn
    exact ⟨m, hm, revision, fun zero => ⟨(mirrors zero).values, (mirrors zero).retained⟩⟩
  have known := (s.bridge slot T { b with policy } before).backing
  rw [changesSince_of_other other]
  exact behind.step s known allowed fun items mirrors =>
    mirrors.evolve (evolves_step s allowed) (s.items b.backing) items

/-- What an action does to an open bridge that it is about: it makes it anew, or finds it up to
date, or leaves all of its entry but the policy. -/
theorem mirrored_on (h : Mirrored past w) (few : ∀ a, changesSince past q.slot a < UInt64.size)
    (allowed : x.Allowed w) (open' : w.bridge? q = some c) (on : x.On q)
    (here : (w.step x).anyBridge? q.slot = some ⟨T, b⟩) :
    (w.step x).Behind (changesSince (⟨w, x⟩ :: past) q.slot b.backing) b
      ((w.step x).Mirrors b) := by
  have entry := bridge?_eq_some_iff.mp open'
  -- a write from the engine is no access, so the distance counts on where it leaves the bridge
  have stays : Event.accesses q.slot ⟨w, x⟩ = false →
      ((w.step x).bridge? q = some c ∨ (w.step x).MirrorsAt q) →
      (w.step x).Behind (changesSince (⟨w, x⟩ :: past) q.slot b.backing) b
        ((w.step x).Mirrors b) := by
    rintro other (same | mirrors)
    · cases (bridge?_eq_some_iff.mp same).symm.trans here
      exact mirrored_of_same s h allowed other entry
    · exact mirrors.behind here _
  cases on with
  | readNative =>
    have before := h q.slot U c entry
    exact (mirrorsAt_sync s (s.guarded allowed) open' before (few _)).behind here _
  | openSession =>
    obtain ⟨c', entry', bare⟩ := openSession_entry (s.guarded allowed) open'
    cases (bridge?_eq_some_iff.mp entry').symm.trans here
    exact (Behind.of_none bare).mono (Nat.zero_le _)
  | pushNative y =>
    obtain ⟨hand, known⟩ := allowed
    exact (mirrorsAt_pushNative s (s.guarded hand) open' known).behind here _
  | writeNative values | closeSession values =>
    obtain ⟨hand, known⟩ := allowed
    exact (mirrorsAt_writeNative s (s.guarded hand) open' known).behind here _
  | setPolicy policy =>
    have set : w.step (.setPolicy q policy) = w.setBridge q { c with policy } :=
      setPolicy_eq open' policy
    have changed := here
    rw [set, anyBridge?_setBridge open'] at changed
    cases changed
    exact mirrored_of_same s h allowed rfl entry
  | writeUntyped candidate =>
    obtain ⟨hand, known⟩ := allowed
    exact stays rfl (writeUntyped_entry s (s.guarded hand) open' known)
  | setAccessor arguments =>
    obtain ⟨hand, known⟩ := allowed
    exact stays rfl (setAccessor_entry s (s.guarded hand) open' known)

/-- **An action keeps the invariant.** -/
theorem Mirrored.step (h : Mirrored past w)
    (few : ∀ slot, (w.anyBridge? slot).isSome = true → ∀ a, changesSince past slot a < UInt64.size)
    (allowed : x.Allowed w) : Mirrored (⟨w, x⟩ :: past) (w.step x) := by
  intro slot T b here
  rcases entry_cases s allowed here with
    ⟨before, other⟩ | ⟨U, values, policy, rfl, new⟩ | ⟨U, q, c, rfl, open', on⟩
  · exact mirrored_of_same s h allowed other before
  · have place : slot = (w.newBridge U values policy).2.slot :=
      new.trans (slot_openBridge w U values policy).symm
    exact (mirrorsAt_newBridge s policy allowed).behind (place ▸ here) _
  · have opened : (w.anyBridge? q.slot).isSome = true := by simp [bridge?_eq_some_iff.mp open']
    exact mirrored_on s h (few q.slot opened) allowed open' on here

end Acting

theorem mirrored_empty : Mirrored [] empty := by
  intro slot T b here
  have none : empty.anyBridge? slot = none := by simp [anyBridge?, empty, Array.getD]
  rw [none] at here
  cases here

end World

/-- **Every open bridge mirrors its container, over every run**, once its list is up to date. -/
theorem Run.mirrored {past : List Event} {w : World} (run : Run past w)
    (tell : RevisionsTell past) : World.Mirrored past w := by
  induction run with
  | start => exact World.mirrored_empty
  | step run a allowed ih => exact (ih tell.tail).step run.sound (run.few tell.tail) allowed

end ArrayBridge
