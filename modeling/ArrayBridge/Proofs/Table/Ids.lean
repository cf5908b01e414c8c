import ArrayBridge.Proofs.Object.Death
import ArrayBridge.Proofs.Table.Slots

/-!
# Ids over the life of an instance table

Everything that happens to one table and to the world around it, from the empty table on
(`TableRun`). Between two operations of the table anything may be done to the world, so objects die
by their counts and by what other deaths set off, and the table does not learn of it before it is
swept.

**The history of an id.** A place has as its generation how often it was vacated, and an id was
issued for its place before some vacating. If no vacating came after, the object still sits there;
if one did, the object is dead (`Recorded`). So an id leads to the object that was allocated under
it as long as that lives, and to nothing afterwards.

Generations come round after two to the thirty-two vacatings of one place. Only that two ids are
never equal depends on it.
-/

namespace ArrayBridge

/-- One thing done to a table, or to the world while the table stays as it is. -/
inductive TableAction where
  | allocate (cls : ClassInfo) (payload : Payload)
  | free (id : InstanceId)
  | sweep
  | elsewhere (a : Action)

namespace TableAction

/-- What the action is for the world. A sweep does nothing to it. -/
def inWorld? (h : Heap) : TableAction → Option Action
  | allocate cls payload => some (.allocate h cls payload)
  | free id => some (.free h id)
  | sweep => none
  | elsewhere a => some a

/-- What a caller can do. -/
def Allowed (h : Heap) (w : World) (a : TableAction) : Prop :=
  ∀ b, a.inWorld? h = some b → b.Allowed w

end TableAction

namespace Heap

/-- The table and the world after an action. -/
def step (h : Heap) (w : World) : TableAction → Heap × World
  | .allocate cls payload => ((h.allocate w cls payload).1, (h.allocate w cls payload).2.1)
  | .free id => ((h.free w id).1, (h.free w id).2.1)
  | .sweep => ((h.sweep w).1, w)
  | .elsewhere a => (h, w.step a)

/-- The object that an allocation makes, under the id that it carries. -/
def issue (h : Heap) (w : World) (cls : ClassInfo) (payload : Payload) : InstanceId × ObjectId :=
  let (_, w, made) := h.allocate w cls payload
  ((w.object made.object).id, made.object)

end Heap

/-- An action, with the table and the world in which it was done. -/
structure TableEvent where
  heap : Heap
  world : World
  action : TableAction

namespace TableEvent

/-- The table after the action. -/
def after (e : TableEvent) : Heap := (e.heap.step e.world e.action).1

/-- What the action issued. -/
def issued (e : TableEvent) : List (InstanceId × ObjectId) :=
  match e.action with
  | .allocate cls payload => [e.heap.issue e.world cls payload]
  | _ => []

/-- Whether somebody sat in the place before the action, and nobody after it. -/
def vacates (index : Nat) (e : TableEvent) : Bool :=
  (e.heap.occupant? index).isSome && (e.after.occupant? index).isNone

end TableEvent

/-- **Runs of a table**: what was done so far, the latest first, and the table and the world it led
to. The table may come into a world in which there is something already. -/
inductive TableRun : List TableEvent → Heap → World → Prop where
  | start {past : List Event} {w : World} (run : Run past w) : TableRun [] .empty w
  | step {past : List TableEvent} {h : Heap} {w : World} (run : TableRun past h w)
    (a : TableAction) (allowed : a.Allowed h w) :
    TableRun (⟨h, w, a⟩ :: past) (h.step w a).1 (h.step w a).2

/-- Everything that was issued, the latest first. -/
def issued (past : List TableEvent) : List (InstanceId × ObjectId) := past.flatMap TableEvent.issued

/-- How often a place was vacated. -/
def timesVacated (past : List TableEvent) (index : Nat) : Nat :=
  past.countP (TableEvent.vacates index)

namespace Heap

variable {h h' : Heap} {w w' : World} {past : List TableEvent} {e : TableEvent}

/-- What is issued is the place taken, with the generation from before. -/
theorem issue_eq (h : Heap) (w : World) (cls : ClassInfo) (payload : Payload) :
    h.issue w cls payload = (⟨h.take.2, h.generation h.take.2⟩, ⟨w.objects.size⟩) := by
  have same : h.take.1.generation h.take.2 = h.generation h.take.2 := by
    unfold take
    split
    · rfl
    · simp [Heap.generation]
  rw [← same]
  exact congrArg (·, _) (congrArg ObjectCell.id (World.object_addObject_self w _))

/-- An object that the table frees is dead. -/
theorem dead_free (w : World) {o : ObjectId} (alive : (w.object o).alive = true) :
    ((w.free o).object o).alive = false := by
  have killed : ((w.kill o).1.object o).alive = false := by
    rw [World.object_kill, if_pos rfl]
    rfl
  rw [World.free, if_pos alive]
  exact (World.wanes_perform _ _).dead killed

/-! ## What a step does -/

/-- The places that an action vacates. -/
theorem exists_vacates (h : Heap) (w : World) {a : TableAction}
    (other : ∀ cls payload, a ≠ .allocate cls payload) :
    ∃ places, h.Vacates places (h.step w a).1 ∧
      ∀ i ∈ places, ∀ o, h.occupant? i = some o → ((h.step w a).2.object o).alive = false := by
  cases a with
  | allocate cls payload => exact absurd rfl (other cls payload)
  | elsewhere a => exact ⟨[], .nothing h, fun _ none => absurd none List.not_mem_nil⟩
  | sweep =>
    refine ⟨_, vacates_sweep h w, fun i mem o taken => ?_⟩
    obtain ⟨p, taken', dead⟩ := mem_dead_iff.mp mem
    obtain rfl := Option.some.inj (taken.symm.trans taken')
    exact dead
  | free id =>
    cases found : h.get w id with
    | none =>
      have same : h.step w (.free id) = (h, w) := by simp only [step, free, found]
      rw [same]
      exact ⟨[], .nothing h, fun _ none => absurd none List.not_mem_nil⟩
    | some o =>
      have freed : h.step w (.free id) = (h.reclaim id.index, w.free o) := by
        simp only [step, free, found]
      obtain ⟨taken, _, alive⟩ := get_eq_some_iff.mp found
      rw [freed]
      refine ⟨[id.index], vacates_reclaim taken, fun i mem p taken' => ?_⟩
      obtain rfl := List.mem_singleton.mp mem
      obtain rfl := Option.some.inj (taken.symm.trans taken')
      exact dead_free w alive

/-- Whatever is done, no object goes and no dead one comes back. -/
theorem evolves_step (s : w.Sound) {a : TableAction} (allowed : a.Allowed h w) :
    ∃ fp, w.Evolves fp (h.step w a).2 := by
  cases a with
  | allocate cls payload => exact ⟨_, World.evolves_step s (allowed _ rfl)⟩
  | free id => exact ⟨_, World.evolves_step s (allowed _ rfl)⟩
  | sweep => exact ⟨_, .refl .nothing w⟩
  | elsewhere a => exact ⟨_, World.evolves_step s (allowed _ rfl)⟩

/-! ## The history -/

/-- What the history says of a table. -/
structure Recorded (past : List TableEvent) (h : Heap) (w : World) : Prop where
  tidy : h.Tidy
  generation : ∀ i, h.generation i = UInt32.ofNat (timesVacated past i)
  /-- Who sits in the table was issued under the place and its generation. -/
  occupant : ∀ i o, h.occupant? i = some o → (⟨i, h.generation i⟩, o) ∈ issued past
  known : ∀ id o, (id, o) ∈ issued past → o.slot < w.objects.size
  /-- What was issued before the last vacating of its place is dead, and the rest sits there. -/
  issued : ∀ id o, (id, o) ∈ issued past → ∃ before ≤ timesVacated past id.index,
    id.generation = UInt32.ofNat before ∧
      (before = timesVacated past id.index → h.occupant? id.index = some o) ∧
      (before < timesVacated past id.index → (w.object o).alive = false)

theorem recorded_empty (w : World) : Recorded [] empty w where
  tidy := tidy_empty
  generation _ := rfl
  occupant i o taken := by simp [occupant?, empty] at taken
  known _ _ none := absurd none List.not_mem_nil
  issued _ _ none := absurd none List.not_mem_nil

/-- A place that an action vacates was vacated once more. -/
theorem Vacates.timesVacated {places : List Nat} (v : h.Vacates places h')
    (past : List TableEvent) (here : e.heap = h) (after : e.after = h') (i : Nat) :
    timesVacated (e :: past) i = timesVacated past i + if i ∈ places then 1 else 0 := by
  have event : e.vacates i = decide (i ∈ places) := by
    rw [TableEvent.vacates, here, after, v.occupant]
    by_cases mem : i ∈ places
    · simp [mem, v.taken i mem]
    · simp [mem]
  rw [ArrayBridge.timesVacated, List.countP_cons, event, ArrayBridge.timesVacated]
  simp

/-- An allocation vacates nothing. -/
theorem Seats.timesVacated {index : Nat} {o : ObjectId} (s : h.Seats index o h')
    (past : List TableEvent) (here : e.heap = h) (after : e.after = h') (i : Nat) :
    timesVacated (e :: past) i = timesVacated past i := by
  have event : e.vacates i = false := by
    rw [TableEvent.vacates, here, after, s.occupant]
    split
    · simp
    · cases h.occupant? i <;> rfl
  rw [ArrayBridge.timesVacated, List.countP_cons, event]
  rfl

/-- The history goes on where places are vacated, as long as nobody who lives sat there. -/
theorem Recorded.vacates (r : Recorded past h w) {places : List Nat} (v : h.Vacates places h')
    {fp : Footprint} (evolves : w.Evolves fp w')
    (dead : ∀ i ∈ places, ∀ o, h.occupant? i = some o → (w'.object o).alive = false)
    (here : e.heap = h) (after : e.after = h') (quiet : e.issued = []) :
    Recorded (e :: past) h' w' := by
  have same : ArrayBridge.issued (e :: past) = ArrayBridge.issued past := by
    rw [ArrayBridge.issued, List.flatMap_cons, quiet]
    rfl
  have times := v.timesVacated past here after
  refine ⟨r.tidy.vacates v, fun i => ?_, fun i o taken => ?_, fun id o mem => ?_,
    fun id o mem => ?_⟩
  · rw [v.generation, times, r.generation]
    by_cases mem : i ∈ places
    · simp [mem]
    · simp [mem]
  · rw [v.occupant] at taken
    by_cases mem : i ∈ places
    · simp [mem] at taken
    · rw [if_neg mem] at taken
      rw [same, v.generation, if_neg mem]
      exact r.occupant i o taken
  · rw [same] at mem
    exact Nat.lt_of_lt_of_le (r.known id o mem) evolves.objects
  · rw [same] at mem
    obtain ⟨before, le, generation, sits, gone⟩ := r.issued id o mem
    have dies := evolves.dead (r.known id o mem)
    rw [times, v.occupant]
    refine ⟨before, by omega, generation, fun last => ?_, fun earlier => ?_⟩
    -- issued since the last vacating, so that this was no vacating of its place
    · have out : id.index ∉ places := fun mem => by simp [mem] at last; omega
      rw [if_neg out]
      exact sits (by simpa [out] using last)
    -- issued before it: dead by an earlier vacating of the place, or by this one
    · rcases Nat.lt_or_eq_of_le le with lt | eq
      · exact dies (gone lt)
      · have vacated : id.index ∈ places := by
          by_contra out
          simp [out] at earlier
          omega
        exact dead _ vacated o (sits eq)

/-- An id that was issued for a place in which nobody sits is older than its generation. -/
theorem Recorded.older (r : Recorded past h w) {id : InstanceId} {o : ObjectId}
    (mem : (id, o) ∈ ArrayBridge.issued past) (free : h.occupant? id.index = none) :
    ∃ before < timesVacated past id.index, id.generation = UInt32.ofNat before ∧
      (w.object o).alive = false := by
  obtain ⟨before, le, generation, sits, gone⟩ := r.issued id o mem
  have lt : before < timesVacated past id.index := by
    refine Nat.lt_of_le_of_ne le fun eq => ?_
    rw [sits eq] at free
    cases free
  exact ⟨before, lt, generation, gone lt⟩

/-- The history goes on where an object is seated. -/
theorem Recorded.allocate (r : Recorded past h w) {cls : ClassInfo} {payload : Payload}
    {fp : Footprint} (evolves : w.Evolves fp (h.allocate w cls payload).2.1) :
    Recorded (⟨h, w, .allocate cls payload⟩ :: past) (h.allocate w cls payload).1
      (h.allocate w cls payload).2.1 := by
  have s := seats_allocate r.tidy w cls payload
  have issued : ArrayBridge.issued (⟨h, w, .allocate cls payload⟩ :: past) =
      (⟨h.take.2, h.generation h.take.2⟩, ⟨w.objects.size⟩) :: ArrayBridge.issued past :=
    congrArg (· :: ArrayBridge.issued past) (issue_eq h w cls payload)
  have times := s.timesVacated past (e := ⟨h, w, .allocate cls payload⟩) rfl rfl
  have grown : w.objects.size < (h.allocate w cls payload).2.1.objects.size := by
    simp [Heap.allocate, World.addObject, World.note]
  refine ⟨r.tidy.seats s, fun i => ?_, fun i o taken => ?_, fun id o mem => ?_,
    fun id o mem => ?_⟩
  · rw [s.generation, times, r.generation]
  · rw [s.occupant] at taken
    rw [issued, s.generation]
    split at taken
    · rename_i here
      rw [here, ← Option.some.inj taken]
      exact List.mem_cons_self
    · exact List.mem_cons_of_mem _ (r.occupant i o taken)
  · rw [issued] at mem
    rcases List.mem_cons.mp mem with new | old
    · cases new
      exact grown
    · exact Nat.lt_of_lt_of_le (r.known id o old) evolves.objects
  · rw [issued] at mem
    rw [times]
    rcases List.mem_cons.mp mem with new | old
    · cases new
      refine ⟨_, Nat.le_refl _, r.generation _, fun _ => ?_, fun lt => absurd lt (Nat.lt_irrefl _)⟩
      rw [s.occupant, if_pos rfl]
    · have dies := evolves.dead (r.known id o old)
      by_cases here : id.index = h.take.2
      · obtain ⟨before, lt, generation, gone⟩ := r.older old (here ▸ s.free)
        exact ⟨before, Nat.le_of_lt lt, generation, fun eq => absurd eq (Nat.ne_of_lt lt),
          fun _ => dies gone⟩
      · obtain ⟨before, le, generation, sits, gone⟩ := r.issued id o old
        rw [s.occupant, if_neg here]
        exact ⟨before, le, generation, sits, fun lt => dies (gone lt)⟩

end Heap

/-! ## Over a run -/

section Runs

variable {past : List TableEvent} {h : Heap} {w : World}

/-- What happens to the world of a table is a run of that world. -/
theorem TableRun.world (run : TableRun past h w) : ∃ events, Run events w := by
  induction run with
  | start run => exact ⟨_, run⟩
  | @step past h w run a allowed ih =>
    obtain ⟨events, run⟩ := ih
    cases a with
    | sweep => exact ⟨events, run⟩
    | allocate cls payload => exact ⟨_, run.step _ (allowed _ rfl)⟩
    | free id => exact ⟨_, run.step _ (allowed _ rfl)⟩
    | elsewhere a => exact ⟨_, run.step a (allowed _ rfl)⟩

theorem TableRun.sound (run : TableRun past h w) : w.Sound := by
  obtain ⟨_, run⟩ := run.world
  exact run.sound

/-- **The history tells of a table at every moment.** -/
theorem TableRun.recorded (run : TableRun past h w) : h.Recorded past w := by
  induction run with
  | start run => exact Heap.recorded_empty _
  | @step past h w run a allowed ih =>
    obtain ⟨fp, evolves⟩ := Heap.evolves_step run.sound allowed
    by_cases allocates : ∃ cls payload, a = .allocate cls payload
    · obtain ⟨cls, payload, rfl⟩ := allocates
      exact ih.allocate evolves
    · have other : ∀ cls payload, a ≠ .allocate cls payload :=
        fun cls payload same => allocates ⟨cls, payload, same⟩
      obtain ⟨places, v, dead⟩ := h.exists_vacates w other
      refine ih.vacates v evolves dead rfl rfl ?_
      cases a with
      | allocate cls payload => exact absurd rfl (other cls payload)
      | _ => rfl

/-- No two ids are the same, as long as no place was vacated two to the thirty-two times. -/
theorem TableRun.nodup (run : TableRun past h w) (few : ∀ i, timesVacated past i < UInt32.size) :
    ((issued past).map Prod.fst).Nodup := by
  induction run with
  | start run => exact List.nodup_nil
  | @step past h w run a allowed ih =>
    have earlier : ∀ i, timesVacated past i ≤ timesVacated (⟨h, w, a⟩ :: past) i := fun i =>
      List.Sublist.countP_le (List.sublist_cons_self ..)
    have few' : ∀ i, timesVacated past i < UInt32.size :=
      fun i => Nat.lt_of_le_of_lt (earlier i) (few i)
    have nodup := ih few'
    cases a with
    | allocate cls payload =>
      have r := run.recorded
      have free := (Heap.seats_allocate r.tidy w cls payload).free
      refine List.nodup_cons.mpr ⟨fun mem => ?_, nodup⟩
      obtain ⟨⟨id, o⟩, old, same⟩ := List.mem_map.mp mem
      rw [Heap.issue_eq] at same
      obtain rfl : id = _ := same
      obtain ⟨before, lt, generation, _⟩ := r.older old free
      -- the place was vacated since, and the generations have not come round
      rw [r.generation] at generation
      have toNat := congrArg UInt32.toNat generation
      simp only [UInt32.toNat_ofNat'] at toNat
      rw [Nat.mod_eq_of_lt (few' _), Nat.mod_eq_of_lt (Nat.lt_trans lt (few' _))] at toNat
      exact absurd toNat (Nat.ne_of_gt lt)
    | _ => exact nodup

end Runs

end ArrayBridge
