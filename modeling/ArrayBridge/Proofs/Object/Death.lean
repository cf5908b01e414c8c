import ArrayBridge.Proofs.Run.Script
import ArrayBridge.Proofs.Run.Step
import ArrayBridge.Registry.Dispatch

/-!
# What is left of a freed object

A freed object stays dead. Whether its payload is gone as well was decided when it died: a payload
that nobody looks at goes with the life, one that is lent out at that moment stays, and the return
of it does not take it away.

**Silence** (`Silent`) is what one would like of every freed object: no handle and no call gets at a
payload, and the bridges in it are closed. Once nobody looks any more, a freed object is silent
exactly if it did not die while its payload was lent out (`freed_silent_iff`). A method that gives
back the last reference to its own receiver is enough to keep it talking.

**Operations inside operations.** An operation that is run on a payload is a run between the lending
and the return (`Run.withPayload`), so what is said of runs covers frees in the middle of a call.
-/

namespace ArrayBridge

/-- The object dies. -/
def Event.kills (o : ObjectId) (e : Event) : Prop :=
  (e.world.object o).alive = true ∧ (e.after.object o).alive = false

/-- The object died while its payload was lent out. -/
def DiedLent (past : List Event) (o : ObjectId) : Prop :=
  ∃ e ∈ past, e.kills o ∧ (e.world.object o).borrow ≠ .idle

/-- A handle on the object was kept outside ever since it died. -/
def HeldSince (past : List Event) (o : ObjectId) : Prop :=
  ∀ e ∈ past, o.slot < e.world.objects.size → (e.after.object o).alive = false →
    Variant.object o ∈ e.after.outside

/-- **Silence**: nothing gets at a payload of the object, and all bridges that were ever in it are
closed, so that their references were given back. -/
structure Silent (past : List Event) (w : World) (o : ObjectId) : Prop where
  withPayload : ∀ {α : Type} (run : World → World × α), w.withPayload o run = (w, none)
  bind : ∀ {cls : ClassInfo} (h : Handle cls), h.object = o →
    w.bind? h = none ∧ w.bindMut? h = none
  call : ∀ (db : ClassDb) (method : String) (arguments : List Variant) (m : RegisteredMethod),
    db.findMethod (w.object o).cls method = .ok m →
      (db.call w o method arguments).2 = .error (.invalidInstance (w.object o).cls.name)
  bridges : ∀ e ∈ past, ∀ fields, e.world.fields? o = some fields → ∀ f ∈ fields,
    w.anyBridge? f.target.ref.slot = none

namespace World

variable {w : World} {o : ObjectId}

theorem payload_none_of_fields (h : w.fields? o = none) : (w.object o).payload = none :=
  Option.map_eq_none_iff.mp h

theorem writable_none (h : w.fields? o = none) : w.writable? o = none := by
  unfold writable?
  split
  · exact payload_none_of_fields h
  · rfl

theorem readable_none (h : w.fields? o = none) : w.readable? o = none := by
  unfold readable?
  split
  · rfl
  · exact payload_none_of_fields h

/-- Where there is no payload, nothing gets at one. -/
theorem withPayload_none (h : w.fields? o = none) {α : Type} (run : World → World × α) :
    w.withPayload o run = (w, none) := by
  unfold withPayload
  rw [writable_none h]

/-- A call on an object without a payload is refused, whatever the method. -/
theorem call_none (h : w.fields? o = none) (db : ClassDb) (method : String)
    (arguments : List Variant) {m : RegisteredMethod}
    (found : db.findMethod (w.object o).cls method = .ok m) :
    (db.call w o method arguments).2 = .error (.invalidInstance (w.object o).cls.name) := by
  have noted : (w.note (.calling (w.label o) method arguments.length)).fields? o = none := h
  unfold ClassDb.call
  simp only [found, withPayload_none noted]

/-- The world that a call leaves is that of its body, run on the payload. -/
theorem call_world (db : ClassDb) (method : String) (arguments : List Variant)
    {m : RegisteredMethod} (found : db.findMethod (w.object o).cls method = .ok m) :
    (db.call w o method arguments).1 =
      ((w.note (.calling (w.label o) method arguments.length)).withPayload o
        fun w => m.body.run w o arguments).1 := by
  unfold ClassDb.call
  simp only [found]
  split
  · rename_i h
    rw [h]
  · rename_i h
    rw [h]

/-! ## One action -/

/-- Only an allocation makes an object, and that one lives. -/
theorem alive_of_new (s : w.Sound) {a : Action} (allowed : a.Allowed w)
    (new : w.objects.size ≤ o.slot) (known : o.slot < (w.step a).objects.size) :
    ((w.step a).object o).alive = true := by
  have same : (w.step a).objects.size = w.objects.size → False := fun h => by omega
  by_cases course : a.isCourse = true
  · exact absurd (course_step s course allowed).tables.1 same
  cases a with
  | allocate h cls payload =>
    obtain ⟨id, n, he⟩ := allocate_eq h w cls payload
    have step : w.step (.allocate h cls payload) = _ := he
    rw [step] at known ⊢
    have last : o.slot < w.objects.size + 1 := by
      simpa [addObject, note] using known
    have here : o = (w.addObject ⟨id, cls, if cls.refcounted then 1 else 0, true, some payload,
        .idle⟩).2 := ObjectId.eq_of_slot (Nat.le_antisymm (Nat.le_of_lt_succ last) new)
    show (World.object (w.addObject _).1 o).alive = true
    simp [here]
  | free h id => exact absurd (wanes_heapFree h w id).objects same
  | reference p => exact absurd (reference_tables w p).1 same
  | unreference p => exact absurd (wanes_unreference w p).objects same
  | setValue p n => exact absurd (Array.size_modify ..) same
  | lendExclusively p | lendToReader p | returnExclusive p | returnFromReader p =>
    exact absurd (Array.size_modify ..) same
  | newBridge T values policy =>
    have look : Course (.bridge (w.openBridge T values policy).2.slot) _ _ _ :=
      .look (w.openBridge T values policy).1 (w.openBridge T values policy).2 rfl
    exact absurd (look.tables.1.trans (by simp [openBridge_eq, addBridge])) same
  | dropBridge r =>
    have wanes := wanes_perform (w.closeBridge r.slot).1 (w.closeBridge r.slot).2
    exact absurd (wanes.objects.trans (by simp)) same
  | keep handles => exact absurd rfl same
  | letGo handles => exact absurd (wanes_letGo _ handles).objects same
  | _ => exact absurd rfl course

end World

/-! ## Over a run -/

/-- What is run on a payload is a run between the lending and the return. -/
theorem Run.withPayload {past recent : List Event} {w : World} (run : Run past w) {o : ObjectId}
    (held : Variant.object o ∈ w.outside) (there : (w.writable? o).isSome) {α : Type}
    (body : World → World × α)
    (inside : Run (⟨w, .lendExclusively o⟩ :: past) (w.lendExclusively o) →
      Run (recent ++ ⟨w, .lendExclusively o⟩ :: past) (body (w.lendExclusively o)).1)
    (still : ((body (w.lendExclusively o)).1.object o).borrow = .exclusive) :
    Run (⟨(body (w.lendExclusively o)).1, .returnExclusive o⟩ ::
      (recent ++ ⟨w, .lendExclusively o⟩ :: past)) (w.withPayload o body).1 := by
  have lent := run.step (.lendExclusively o) ⟨held, there⟩
  have done := (inside lent).step (.returnExclusive o) still
  obtain ⟨p, hp⟩ := Option.isSome_iff_exists.mp there
  unfold World.withPayload
  rw [hp]
  exact done

/-- So is the body of a method that is called. -/
theorem Run.call {past recent : List Event} {w : World} (run : Run past w) {o : ObjectId}
    (held : Variant.object o ∈ w.outside) (there : (w.writable? o).isSome) (db : ClassDb)
    (method : String) (arguments : List Variant) {m : RegisteredMethod}
    (found : db.findMethod (w.object o).cls method = .ok m) :
    let n := Notice.calling (w.label o) method arguments.length
    let before : List Event := ⟨w.note n, .lendExclusively o⟩ :: ⟨w, .note n⟩ :: past
    let lent := (w.note n).lendExclusively o
    (Run before lent → Run (recent ++ before) (m.body.run lent o arguments).1) →
    ((m.body.run lent o arguments).1.object o).borrow = .exclusive →
    Run (⟨(m.body.run lent o arguments).1, .returnExclusive o⟩ :: (recent ++ before))
      (db.call w o method arguments).1 := by
  intro n before lent inside still
  have noted := run.step (.note n) trivial
  rw [World.call_world db method arguments found]
  exact noted.withPayload held there (fun w => m.body.run w o arguments) inside still

/-- What was done determines the world. -/
theorem Run.unique {past : List Event} {w w' : World} (run : Run past w) (run' : Run past w') :
    w = w' := by
  cases run with
  | start =>
    cases run' with
    | start => rfl
  | step _ a allowed =>
    cases run' with
    | step _ _ _ => rfl

/-- **The dead stay dead.** -/
theorem Run.dead {past recent : List Event} {w w' : World} (run : Run past w)
    (later : Run (recent ++ past) w') {o : ObjectId} (known : o.slot < w.objects.size)
    (dead : (w.object o).alive = false) :
    o.slot < w'.objects.size ∧ (w'.object o).alive = false := by
  induction recent generalizing w' with
  | nil =>
    obtain rfl := run.unique later
    exact ⟨known, dead⟩
  | cons e recent ih =>
    cases later with
    | step before a allowed =>
      obtain ⟨known', dead'⟩ := ih before
      have evolves := World.evolves_step before.sound allowed
      exact ⟨Nat.lt_of_lt_of_le known' evolves.objects, evolves.dead known' dead'⟩

/-- A payload that is gone has taken its bridges with it. -/
theorem Run.bridges_closed {past : List Event} {w : World} (run : Run past w) {o : ObjectId} :
    ∀ e ∈ past, ∀ fields, e.world.fields? o = some fields →
      o.slot < w.objects.size ∧ (w.fields? o = some fields ∨ w.fields? o = none ∧
        ∀ f ∈ fields, f.target.ref.slot < w.bridges.size ∧
          w.anyBridge? f.target.ref.slot = none) := by
  induction run with
  | start => exact fun e he => absurd he List.not_mem_nil
  | @step past w run a allowed ih =>
    have evolves := World.evolves_step run.sound allowed
    -- what the world before says of the payload is what the latest event saw
    have now : ∀ fields, w.fields? o = some fields →
        o.slot < (w.step a).objects.size ∧ ((w.step a).fields? o = some fields ∨
          (w.step a).fields? o = none ∧ ∀ f ∈ fields,
            f.target.ref.slot < (w.step a).bridges.size ∧
              (w.step a).anyBridge? f.target.ref.slot = none) := by
      intro fields hw
      have known := World.lt_of_fields? hw
      refine ⟨Nat.lt_of_lt_of_le known evolves.objects, ?_⟩
      rcases evolves.fields o known with hn | hs
      · refine .inr ⟨hn, fun f hf => ?_⟩
        have place := run.sound.fields o fields hw f hf
        exact ⟨Nat.lt_of_lt_of_le place evolves.bridges, evolves.closes o fields hw hn f hf place⟩
      · exact .inl (hs.trans hw)
    intro e he fields hf
    rcases List.mem_cons.mp he with rfl | he
    · exact now fields hf
    · obtain ⟨known, hw | ⟨hn, closed⟩⟩ := ih e he fields hf
      · exact now fields hw
      · refine ⟨Nat.lt_of_lt_of_le known evolves.objects, .inr ⟨evolves.bare known hn, ?_⟩⟩
        intro f hf'
        obtain ⟨place, gone⟩ := closed f hf'
        exact ⟨Nat.lt_of_lt_of_le place evolves.bridges, evolves.closed _ place gone⟩

/-- What died once is dead. -/
theorem Run.killed {past : List Event} {w : World} (run : Run past w) {o : ObjectId} :
    ∀ e ∈ past, e.kills o → o.slot < w.objects.size ∧ (w.object o).alive = false := by
  induction run with
  | start => exact fun e he => absurd he List.not_mem_nil
  | @step past w run a allowed ih =>
    have evolves := World.evolves_step run.sound allowed
    intro e he kills
    rcases List.mem_cons.mp he with rfl | he
    · exact ⟨Nat.lt_of_lt_of_le (World.lt_of_alive kills.1) evolves.objects, kills.2⟩
    · obtain ⟨known, dead⟩ := ih e he kills
      exact ⟨Nat.lt_of_lt_of_le known evolves.objects, evolves.dead known dead⟩

/-- **What became of a payload was decided at the death**: it is gone, unless it was lent out then
and there has been a handle to keep it. -/
theorem Run.payload_of_dead {past : List Event} {w : World} (run : Run past w) {o : ObjectId}
    (known : o.slot < w.objects.size) (dead : (w.object o).alive = false) :
    (¬ DiedLent past o → w.fields? o = none) ∧
      (DiedLent past o → HeldSince past o → (w.fields? o).isSome) := by
  induction run with
  | start => exact absurd known (Nat.not_lt_zero _)
  | @step past w run a allowed ih =>
    have evolves := World.evolves_step run.sound allowed
    have before : o.slot < w.objects.size := by
      rcases Nat.lt_or_ge o.slot w.objects.size with hs | hs
      · exact hs
      · have born := World.alive_of_new run.sound allowed hs known
        exact absurd (born.symm.trans dead) (by decide)
    have earlier : DiedLent past o → DiedLent (⟨w, a⟩ :: past) o := by
      rintro ⟨e, he, kills⟩
      exact ⟨e, .tail _ he, kills⟩
    have handle : HeldSince (⟨w, a⟩ :: past) o → Variant.object o ∈ (w.step a).outside :=
      fun held => held ⟨w, a⟩ (.head _) before dead
    cases alive : (w.object o).alive with
    | true =>
      -- the object dies now, and never died before
      have first : ¬ DiedLent past o := by
        rintro ⟨e, he, kills, _⟩
        exact absurd (alive.symm.trans (run.killed e he kills).2) (by decide)
      constructor
      · intro spared
        have idle : (w.object o).borrow = .idle := by
          rcases Decidable.em ((w.object o).borrow = .idle) with idle | lent
          · exact idle
          · exact absurd ⟨⟨w, a⟩, .head _, ⟨alive, dead⟩, lent⟩ spared
        exact evolves.dies o alive dead idle
      · intro diedLent held
        obtain ⟨e, he, kills, lent⟩ := diedLent
        rcases List.mem_cons.mp he with rfl | he
        · rcases evolves.spares o before (handle held) with same | ⟨idle, _⟩
          · rw [same]
            exact run.sound.lent o lent
          · exact absurd idle lent
        · exact absurd ⟨e, he, kills, lent⟩ first
    | false =>
      obtain ⟨gone, stays⟩ := ih before alive
      constructor
      · intro spared
        apply evolves.bare before
        exact gone fun h => spared (earlier h)
      · intro diedLent held
        have diedLent : DiedLent past o := by
          obtain ⟨e, he, kills, lent⟩ := diedLent
          rcases List.mem_cons.mp he with rfl | he
          · exact absurd (kills.1.symm.trans alive) (by decide)
          · exact ⟨e, he, kills, lent⟩
        have there := stays diedLent fun e he => held e (.tail _ he)
        rcases evolves.spares o before (handle held) with same | ⟨_, lives, _⟩
        · rw [same]
          exact there
        · exact absurd (lives.symm.trans alive) (by decide)

/-- **What a freed object serves.** A freed object stays dead and has no count any more, whatever is
done. If its payload was not lent out when it died, it is silent. If it was, and a handle on the
object was kept, the payload can be had again as soon as nobody looks at it: silence is exactly not
to have died while lent out. -/
theorem freed_silent_iff {past : List Event} {w : World} (run : Run past w) {o : ObjectId}
    (known : o.slot < w.objects.size) (dead : (w.object o).alive = false) :
    (∀ recent w', Run (recent ++ past) w' →
      (w'.object o).alive = false ∧ w'.referenceCount o = none) ∧
    (¬ DiedLent past o → Silent past w o) ∧
    ((w.object o).borrow = .idle → HeldSince past o → (Silent past w o ↔ ¬ DiedLent past o)) := by
  obtain ⟨gone, stays⟩ := run.payload_of_dead known dead
  have silent : ¬ DiedLent past o → Silent past w o := by
    intro spared
    have none := gone spared
    refine
      { withPayload := World.withPayload_none none
        bind := fun h hh => ?_
        call := fun db method arguments m found => World.call_none none db method arguments found
        bridges := fun e he fields hf f hm => ?_ }
    · subst hh
      refine ⟨?_, ?_⟩
      · rw [World.bind?, World.readable_none none]
        split <;> rfl
      · rw [World.bindMut?, World.writable_none none]
        split <;> rfl
    · rcases (run.bridges_closed e he fields hf).2 with same | ⟨_, closed⟩
      · rw [none] at same
        cases same
      · exact (closed f hm).2
  refine ⟨?_, silent, ?_⟩
  · intro recent w' later
    have dead' := (run.dead later known dead).2
    refine ⟨dead', ?_⟩
    simp [World.referenceCount, ObjectCell.referenceCount, ObjectCell.counted, dead']
  · intro idle held
    refine ⟨?_, silent⟩
    intro quiet diedLent
    obtain ⟨fields, hf⟩ := Option.isSome_iff_exists.mp (stays diedLent held)
    obtain ⟨p, hp, _⟩ := Option.map_eq_some_iff.mp hf
    have lendable : w.writable? o = some p := by
      unfold World.writable?
      rw [idle, hp]
    have refused := congrArg Prod.snd (quiet.withPayload fun w => (w, ()))
    rw [World.withPayload, lendable] at refused
    cases refused

/-- The last reference on an object is given back while nobody looks at its payload. -/
def givenBack : List Action :=
  [ .allocate .empty .refCounted ⟨none, []⟩,
    .keep [.object ⟨0⟩],
    .unreference ⟨0⟩ ]

/-- An object that is freed while nobody looks at it is silent. -/
theorem freed_silent_iff_givenBack : ∃ past w, Run past w ∧ Silent past w ⟨0⟩ := by
  have run := Run.start.script givenBack (by cbv)
  obtain ⟨_, silent, _⟩ := freed_silent_iff run (o := ⟨0⟩) (by cbv) (by cbv)
  refine ⟨_, _, run, silent ?_⟩
  rintro ⟨e, he, _, lent⟩
  have idle : ∀ e ∈ eventsFrom .empty [] givenBack, (e.world.object ⟨0⟩).borrow = .idle := by
    simp only [givenBack, eventsFrom, List.forall_mem_cons]
    exact ⟨rfl, rfl, rfl, fun e he => absurd he List.not_mem_nil⟩
  exact lent (idle e he)

/-- The last reference on an object is given back while its payload is lent out. -/
def givenBackInside : List Action :=
  [ .allocate .empty .refCounted ⟨none, []⟩,
    .keep [.object ⟨0⟩],
    .lendExclusively ⟨0⟩,
    .unreference ⟨0⟩,
    .returnExclusive ⟨0⟩ ]

/-- Not every freed object is silent once nobody looks at it. -/
theorem freed_not_silent : ¬ ∀ (past : List Event) (w : World) (o : ObjectId), Run past w →
    o.slot < w.objects.size → (w.object o).alive = false → (w.object o).borrow = .idle →
      Silent past w o := by
  intro all
  have run := Run.start.script givenBackInside (by cbv)
  have silent := all _ _ ⟨0⟩ run (by cbv) (by cbv) (by cbv)
  have refused := congrArg Prod.snd (silent.withPayload fun w => (w, ()))
  have there : ((worldFrom .empty givenBackInside).writable? ⟨0⟩).isSome = true := by cbv
  obtain ⟨p, hp⟩ := Option.isSome_iff_exists.mp there
  rw [World.withPayload, hp] at refused
  cases refused

end ArrayBridge
