import ArrayBridge.Proofs.Bridge.Contents
import ArrayBridge.Proofs.Run.Script
import ArrayBridge.Proofs.Run.Step

/-!
# Writes from the engine

A write from the engine is taken over as a whole or not at all. What is answered is what the check
said, and an array that does not pass leaves what the policy says: everything, or an empty container
of the bridge's own.

**What is lost on the way.** Between the check and the unwrapping the bridge lets go of its former
container. If that was the last thing to keep an object, and that object the last to hold a
reference on something in the new array, then that something is freed, and the native view comes out
shorter than the array. `untyped_write_all_or_nothing` says when: the view is the whole array
exactly if all handles in it still stand once the former container is gone.
-/

namespace ArrayBridge

namespace World

variable {T : ElementType} {w : World} {r : BridgeRef T} {b : Bridge T} {candidate : ArrayId}

/-- What is answered is what the check said. -/
theorem writeUntyped_answer (w : World) (r : BridgeRef T) (candidate : ArrayId) :
    (w.writeUntyped r candidate).2 = w.validate T candidate := by
  unfold writeUntyped
  split
  · rename_i h
    exact h.symm
  · rename_i reason h
    split <;> exact h.symm

theorem writeUntyped_of_ok (h : w.validate T candidate = .ok ()) :
    (w.writeUntyped r candidate).1 = w.adopt r candidate := by
  unfold writeUntyped
  rw [h]

theorem writeUntyped_of_own (h : w.bridge? r = some b) {reason : BridgeError}
    (refused : w.validate T b.backing = .error reason) :
    (w.writeUntyped r b.backing).1 = (w.note (.rejectedOwnBacking T.tag reason)).sync r := by
  have own : w.backing? r = some b.backing := by rw [backing?, h]; rfl
  unfold writeUntyped
  simp only [refused, if_pos own]

theorem writeUntyped_of_foreign (h : w.bridge? r = some b) {reason : BridgeError}
    (refused : w.validate T candidate = .error reason) (foreign : b.backing ≠ candidate) :
    (w.writeUntyped r candidate).1 = w.reject r reason := by
  have other : w.backing? r ≠ some candidate := by
    rw [backing?, h]
    exact fun he => foreign (Option.some.inj he)
  unfold writeUntyped
  simp only [refused, if_neg other]

theorem reject_keeping (h : w.bridge? r = some b) (policy : b.policy = .keepPrevious)
    (reason : BridgeError) : w.reject r reason = w.note (.rejectedKeeping T.tag reason) := by
  have keeps : w.policy? r = some .keepPrevious := by rw [policy?, h, ← policy]; rfl
  unfold reject
  rw [keeps]

theorem reject_resetting (h : w.bridge? r = some b) (policy : b.policy = .resetToEmpty)
    (reason : BridgeError) :
    w.reject r reason = (w.note (.rejectedResetting T.tag reason)).writeNative r [] := by
  have resets : w.policy? r = some .resetToEmpty := by rw [policy?, h, ← policy]; rfl
  unfold reject
  rw [resets]

/-! ## Closed bridges -/

@[simp] theorem reject_of_none (h : w.bridge? r = none) (reason : BridgeError) :
    w.reject r reason = w := by
  have none : w.policy? r = none := by rw [policy?, h]; rfl
  unfold reject
  rw [none]

/-- Whatever is written to a closed bridge is lost. -/
@[simp] theorem writeUntyped_of_none (h : w.bridge? r = none) (candidate : ArrayId) :
    (w.writeUntyped r candidate).1 = w := by
  have none : w.backing? r ≠ some candidate := by
    rw [backing?, h]
    exact fun he => nomatch he
  unfold writeUntyped
  split
  · simp [h]
  · simp [none, h]

/-- What a setter does is a write from the engine or a refusal. -/
theorem setAccessor_eq (w : World) (r : BridgeRef T) (arguments : List Variant) :
    (∃ candidate, arguments.head? = some (.array candidate) ∧
        (w.setAccessor r arguments).1 = (w.writeUntyped r candidate).1) ∨
      ∃ reason, (w.setAccessor r arguments).1 = w.reject r reason := by
  unfold setAccessor
  split
  · rename_i candidate first
    refine .inl ⟨candidate, first, ?_⟩
    split <;> simp only [*]
  · exact .inr ⟨_, rfl⟩
  · exact .inr ⟨_, rfl⟩

@[simp] theorem setAccessor_of_none (h : w.bridge? r = none) (arguments : List Variant) :
    (w.setAccessor r arguments).1 = w := by
  rcases setAccessor_eq w r arguments with ⟨candidate, _, write⟩ | ⟨reason, refused⟩
  · simp [write, h]
  · simp [refused, h]

/-! ## The four outcomes -/

/-- **A write that passes.** The bridge stands on the array's own container, and its native list is
what that unwraps to without the handles that fell when the former container was let go of. -/
theorem writeUntyped_accepted (s : w.Sound) (g : w.Guarded r.slot) (h : w.bridge? r = some b)
    (known : w.Knows (.array candidate)) (valid : w.validate T candidate = .ok ()) :
    let w' := (w.writeUntyped r candidate).1
    w'.backing? r = some candidate ∧
      (w'.container candidate).items = (w.container candidate).items ∧
      (w'.readNative r).2 = (w.decodeAll T (w.container candidate).items).filter
        ((w.between r candidate).standing T) := by
  intro w'
  have quiet := Footprint.quiet_bridge r.slot
  have adopted : w' = w.adopt r candidate := writeUntyped_of_ok valid
  have move : Course (.bridge r.slot) w [] (w.between r candidate) :=
    course_between s quiet rfl known valid
  have whole : Course (.bridge r.slot) w _ w' := course_writeUntyped s quiet rfl known
  have between := move.evolves quiet
  have after := whole.evolves quiet
  obtain ⟨items, _⟩ := between.container candidate known fun h => h
  obtain ⟨items', revision'⟩ := after.container candidate known fun h => h
  -- The entry is that of the world between, which no later step of the write touches.
  let seen := (w.between r candidate).derived (moved b candidate)
  let last : Bridge T := { seen with retained := (w.adopting r candidate).inSight seen }
  have entry : w'.bridge? r = some last := by
    rw [adopted]
    exact bridge?_adopt g h candidate
  have current : w'.IsCurrent last := by
    obtain ⟨_, _, revision⟩ := container_moveTo
      (w.note (.adopted T.tag (w.container candidate).items.length)) r candidate candidate
    exact congrArg some (revision.trans revision'.symm)
  refine ⟨?_, items', ?_⟩
  · rw [backing?, entry]
    rfl
  · rw [readNative_eq (whole.guarded quiet g) entry, if_pos current]
    show (w.between r candidate).decodeAll T ((w.between r candidate).container candidate).items = _
    rw [items]
    exact decodeAll_evolve between (s.items candidate)

/-- **A write that is refused, with the policy that keeps.** A notice is written and that is all. -/
theorem writeUntyped_kept (h : w.bridge? r = some b) {reason : BridgeError}
    (refused : w.validate T candidate = .error reason) (foreign : b.backing ≠ candidate)
    (policy : b.policy = .keepPrevious) :
    (w.writeUntyped r candidate).1 = w.note (.rejectedKeeping T.tag reason) := by
  rw [writeUntyped_of_foreign h refused foreign, reject_keeping h policy]

/-- What is written to the journal changes no answer of a read. -/
theorem readNative_note (g : w.Guarded r.slot) (h : w.bridge? r = some b) (n : Notice) :
    ((w.note n).readNative r).2 = (w.readNative r).2 := by
  have noted : (w.note n).bridge? r = some b := h
  rw [readNative_eq (g.note n) noted, readNative_eq g h]
  rfl

/-- **A refusal with the policy that resets.** The bridge is on a new container, which is empty, and
the former one keeps what it had. -/
theorem reject_reset (s : w.Sound) (g : w.Guarded r.slot) (h : w.bridge? r = some b)
    (policy : b.policy = .resetToEmpty) (reason : BridgeError) :
    let w' := w.reject r reason
    ∃ b', w'.bridge? r = some b' ∧ b'.backing = ⟨w.containers.size⟩ ∧
      (w'.container b'.backing).tag = some T.tag ∧ (w'.container b'.backing).items = [] ∧
      b'.values = [] ∧ b'.retained = [] ∧ (w'.readNative r).2 = [] ∧
      (w'.container b.backing).items = (w.container b.backing).items ∧
      (w'.container b.backing).revision = (w.container b.backing).revision := by
  intro w'
  have quiet := Footprint.quiet_bridge r.slot
  let n := w.note (.rejectedResetting T.tag reason)
  have written : w' = n.writeNative r [] := reject_resetting h policy reason
  have whole : Course (.bridge r.slot) w _ w' := course_reject s quiet rfl reason
  have noted : n.bridge? r = some b := h
  have guarded : n.Guarded r.slot := g.note _
  have entry := bridge?_writeNative guarded noted []
  obtain ⟨tag, items, revision⟩ := container_writeNative noted ([] : List T.Carrier)
  obtain ⟨_, items', _⟩ := container_rebuild noted ([] : List T.Carrier)
  have nothing : (n.rebuild r []).inSight (n.rebuilt b []) = [] := by
    show ((directObjects ((n.rebuild r []).container ⟨n.containers.size⟩).items).filter _) = []
    rw [items']
    rfl
  rw [nothing, ← written] at entry
  rw [← written] at tag items revision
  have former := (whole.evolves quiet).container b.backing
    (s.bridge r.slot T b (bridge?_eq_some_iff.mp h)).backing fun h => h
  refine ⟨_, entry, rfl, tag, items, rfl, rfl, ?_, former⟩
  rw [readNative_eq (whole.guarded quiet g) entry]
  split
  · rfl
  · exact congrArg (w'.decodeAll T) items

/-- **A write that is refused, with the policy that resets.** The bridge is on a new container,
which is empty, and the former one keeps what it had. -/
theorem writeUntyped_reset (s : w.Sound) (g : w.Guarded r.slot) (h : w.bridge? r = some b)
    {reason : BridgeError} (refused : w.validate T candidate = .error reason)
    (foreign : b.backing ≠ candidate) (policy : b.policy = .resetToEmpty) :
    let w' := (w.writeUntyped r candidate).1
    ∃ b', w'.bridge? r = some b' ∧ b'.backing = ⟨w.containers.size⟩ ∧
      (w'.container b'.backing).tag = some T.tag ∧ (w'.container b'.backing).items = [] ∧
      b'.values = [] ∧ b'.retained = [] ∧ (w'.readNative r).2 = [] ∧
      (w'.container b.backing).items = (w.container b.backing).items ∧
      (w'.container b.backing).revision = (w.container b.backing).revision := by
  rw [writeUntyped_of_foreign h refused foreign]
  exact reject_reset s g h policy reason

/-- **A write of the bridge's own container that is refused.** The container stays, with all that is
in it, and the native view is brought up to date. -/
theorem writeUntyped_own (s : w.Sound) (g : w.Guarded r.slot) (h : w.bridge? r = some b)
    {reason : BridgeError} (refused : w.validate T b.backing = .error reason) :
    let w' := (w.writeUntyped r b.backing).1
    w'.backing? r = some b.backing ∧
      (w'.container b.backing).tag = (w.container b.backing).tag ∧
      (w'.container b.backing).items = (w.container b.backing).items ∧
      (w'.container b.backing).revision = (w.container b.backing).revision ∧
      (w'.readNative r).2 = (w.readNative r).2 := by
  intro w'
  have quiet := Footprint.quiet_bridge r.slot
  have known : w.Knows (.array b.backing) :=
    (s.bridge r.slot T b (bridge?_eq_some_iff.mp h)).backing
  let n := w.note (.rejectedOwnBacking T.tag reason)
  have synced : w' = n.sync r := writeUntyped_of_own h refused
  have whole : Course (.bridge r.slot) w _ w' := course_writeUntyped s quiet rfl known
  have evolves := whole.evolves quiet
  have guarded' := whole.guarded quiet g
  have tag := evolves.tag b.backing known
  obtain ⟨items, revision⟩ := evolves.container b.backing known fun h => h
  have noted : n.bridge? r = some b := h
  have guarded : n.Guarded r.slot := g.note _
  by_cases current : w.IsCurrent b
  · have still : n.IsCurrent b := current
    rw [sync_of_current noted still] at synced
    rw [synced] at tag items revision ⊢
    refine ⟨?_, tag, items, revision, readNative_note g h _⟩
    rw [backing?, noted]
    rfl
  · have stale : ¬ n.IsCurrent b := current
    obtain ⟨retained, entry⟩ := bridge?_sync_of_stale guarded noted stale
    rw [← synced] at entry
    have upToDate : w'.IsCurrent { n.derived b with retained } := congrArg some revision.symm
    refine ⟨?_, tag, items, revision, ?_⟩
    · rw [backing?, entry]
      rfl
    · rw [readNative_eq guarded' entry, if_pos upToDate, readNative_eq g h, if_neg current]
      rfl

end World

/-- **A write from the engine is all or nothing.** In every world that a run leads to, for a bridge
that is open and can be reached and an array that exists:

- the write is accepted exactly if the check passes, and else answers what the check found;
- if it passes, the bridge stands on the array's own container. The native view is what the elements
  unwrap to, without the handles that fall while the former container is let go of; so it is all of
  them, as many as there are elements, exactly if none falls;
- if it does not pass, an array of someone else leaves everything as it was under the policy that
  keeps, and an empty container of the bridge's own under the policy that resets;
- the bridge's own container stays what it was in any case, and so does what a native read
  answers. -/
theorem untyped_write_all_or_nothing {past : List Event} {w : World} (run : Run past w)
    {T : ElementType} {r : BridgeRef T} {b : Bridge T} (here : w.bridge? r = some b)
    (hand : w.AtHand r.slot) {candidate : ArrayId} (known : w.Knows (.array candidate)) :
    let w' := (w.writeUntyped r candidate).1
    (w.writeUntyped r candidate).2 = w.validate T candidate ∧
    (w.validate T candidate = .ok () →
      ∃ values, w.decodeEach T (w.container candidate).items = .ok values ∧
        w'.backing? r = some candidate ∧
        (w'.container candidate).items = (w.container candidate).items ∧
        (w'.readNative r).2 = values.filter ((w.between r candidate).standing T) ∧
        ((w'.readNative r).2 = values ∧
            (w'.readNative r).2.length = (w'.container candidate).items.length ↔
          ∀ x ∈ values, (w.between r candidate).standing T x = true)) ∧
    (∀ reason, w.validate T candidate = .error reason →
      (b.backing ≠ candidate → b.policy = .keepPrevious →
        w'.bridge? r = some b ∧ w'.object = w.object ∧ w'.container = w.container ∧
        (w'.readNative r).2 = (w.readNative r).2) ∧
      (b.backing ≠ candidate → b.policy = .resetToEmpty →
        ∃ b', w'.bridge? r = some b' ∧ b'.backing = ⟨w.containers.size⟩ ∧
          (w'.container b'.backing).tag = some T.tag ∧ (w'.container b'.backing).items = [] ∧
          b'.values = [] ∧ b'.retained = [] ∧ (w'.readNative r).2 = [] ∧
          (w'.container b.backing).items = (w.container b.backing).items ∧
          (w'.container b.backing).revision = (w.container b.backing).revision) ∧
      (b.backing = candidate →
        w'.backing? r = some b.backing ∧
        (w'.container b.backing).tag = (w.container b.backing).tag ∧
        (w'.container b.backing).items = (w.container b.backing).items ∧
        (w'.container b.backing).revision = (w.container b.backing).revision ∧
        (w'.readNative r).2 = (w.readNative r).2)) := by
  intro w'
  have s := run.sound
  have g := s.guarded hand
  refine ⟨World.writeUntyped_answer w r candidate, ?_, ?_⟩
  · intro valid
    obtain ⟨_, values, whole⟩ := World.validate_eq_ok_iff.mp valid
    have each : w.decodeEach T (w.container candidate).items = .ok values :=
      World.decodeEach_go_eq_ok_iff.mpr whole
    obtain ⟨backing, items, view⟩ := World.writeUntyped_accepted s g here known valid
    rw [whole.decodeAll] at view
    refine ⟨values, each, backing, items, view, ?_⟩
    rw [view, items, List.filter_eq_self]
    refine ⟨fun h => h.1, fun stands => ⟨stands, ?_⟩⟩
    rw [List.filter_eq_self.mpr stands, whole.length]
  · intro reason refused
    refine ⟨?_, ?_, ?_⟩
    · intro foreign policy
      have kept : w' = w.note (.rejectedKeeping T.tag reason) :=
        World.writeUntyped_kept here refused foreign policy
      rw [kept]
      exact ⟨here, rfl, rfl, World.readNative_note g here _⟩
    · intro foreign policy
      exact World.writeUntyped_reset s g here refused foreign policy
    · intro own
      subst own
      exact World.writeUntyped_own s g here refused

/-- A bridge and an array that it can take over. -/
def offered : List Action :=
  [ .newBridge .bool [true] .keepPrevious,
    .newArray (some ElementType.bool.tag) [.bool false, .bool true],
    .keep [.array ⟨1⟩] ]

/-- An array of booleans becomes a list of booleans. -/
theorem untyped_write_all_or_nothing_offered : ∃ past w, Run past w ∧
    (w.writeUntyped (⟨0⟩ : BridgeRef .bool) ⟨1⟩).2 = .ok () ∧
      ((w.writeUntyped (⟨0⟩ : BridgeRef .bool) ⟨1⟩).1.readNative (⟨0⟩ : BridgeRef .bool)).2.length =
        2 := by
  have run := Run.start.script offered (by cbv)
  obtain ⟨b, hb⟩ := Option.isSome_iff_exists.mp (show
    ((worldFrom .empty offered).bridge? (⟨0⟩ : BridgeRef .bool)).isSome = true by cbv)
  have hand : (worldFrom .empty offered).AtHand 0 := World.reachable_iff.mp (by cbv)
  have known : (worldFrom .empty offered).Knows (.array ⟨1⟩) := of_decide_eq_true (by cbv)
  obtain ⟨answer, accepted, _⟩ := untyped_write_all_or_nothing run hb hand known
  obtain ⟨values, _, _, items, _, whole⟩ := accepted (by cbv)
  have standing := whole.mpr fun x _ => World.standing_of_scalar rfl x
  refine ⟨_, _, run, answer.trans (by cbv), standing.2.trans ?_⟩
  rw [items]
  cbv

/-- A bridge whose container is the last to keep an object, which is the last to hold a reference on
what a new array contains. -/
def lastKeeper : List Action :=
  [ .newBridge (.handle .refCounted) [] .keepPrevious,
    .allocate .empty .object ⟨none, [⟨"kept", ⟨.handle .refCounted, ⟨0⟩⟩⟩]⟩,
    .keep [.object ⟨0⟩],
    .allocate .empty .refCounted ⟨none, []⟩,
    .lendExclusively ⟨0⟩,
    @Action.pushNative (.handle .refCounted) ⟨0⟩ ⟨⟨1⟩⟩,
    .returnExclusive ⟨0⟩,
    .unreference ⟨1⟩,
    .newBridge (.handle .object) [] .keepPrevious,
    .append ⟨2⟩ (.object ⟨0⟩),
    .newArray (some (ElementType.handle .object).tag) [.object ⟨1⟩],
    .keep [.array ⟨3⟩],
    .letGo [.object ⟨0⟩] ]

/-- A write that passed its check can leave fewer values than the array has elements. -/
theorem accepted_write_loses : ¬ ∀ (past : List Event) (w : World) (T : ElementType)
    (r : BridgeRef T) (candidate : ArrayId), Run past w → (w.bridge? r).isSome = true →
      w.AtHand r.slot → w.Knows (.array candidate) →
      (w.writeUntyped r candidate).2 = .ok () →
      ((w.writeUntyped r candidate).1.readNative r).2.length =
        ((w.writeUntyped r candidate).1.container candidate).items.length := by
  intro all
  have run := Run.start.script lastKeeper (by cbv)
  have length := all _ _ (.handle .object) ⟨1⟩ ⟨3⟩ run (by cbv) (World.reachable_iff.mp (by cbv))
    (of_decide_eq_true (by cbv)) (by cbv)
  have view : (((worldFrom .empty lastKeeper).writeUntyped
      (⟨1⟩ : BridgeRef (.handle .object)) ⟨3⟩).1.readNative
        (⟨1⟩ : BridgeRef (.handle .object))).2.length = 0 := by cbv
  have items : (((worldFrom .empty lastKeeper).writeUntyped
      (⟨1⟩ : BridgeRef (.handle .object)) ⟨3⟩).1.container ⟨3⟩).items.length = 1 := by cbv
  rw [view, items] at length
  cases length

end ArrayBridge
