import ArrayBridge.Proofs.Run.Script
import ArrayBridge.Proofs.Table.Slots
import ArrayBridge.Proofs.World.Order

/-!
# What sets a cascade off, and what it settles to

References are given back in bulk on three occasions (`Trigger`): a bridge goes over to other
objects and gives back those from before, a bridge is dropped, or an object is freed through its
table, whatever its count. Each goes on as a cascade.

`cascades_settle` is what comes of it, wherever all objects are listed in tables. Such an object
loses its payload with its life and not otherwise, so nothing of this depends on who else has
handles.
-/

namespace ArrayBridge

/-- What sets a cascade off. -/
inductive Trigger where
  /-- A reference to each object of the list is given back. -/
  | release (held : List ObjectId)
  | dropBridge {T : ElementType} (r : BridgeRef T)
  /-- The object of an id is freed. -/
  | free (h : Heap) (id : InstanceId)

namespace Trigger

/-- The world in which the cascade begins, and what is to be done. -/
def begun (w : World) : Trigger → World × List Duty
  | release held => (w, Duty.givingBack held)
  | dropBridge r => w.closeBridge r.slot
  | free h id => (h.get w id).elim (w, []) w.kill

/-- The object that is freed by hand. -/
def killed (w : World) : Trigger → List ObjectId
  | free h id => (h.get w id).toList
  | _ => []

/-- The references that are given back by hand. -/
def given : Trigger → List ObjectId
  | release held => held
  | _ => []

/-- The place of the bridge that is closed by hand. -/
def drops? : Trigger → Option Nat
  | dropBridge r => some r.slot
  | _ => none

/-- The same but for the order in which references are given back. -/
inductive Reordered : Trigger → Trigger → Prop where
  | release {held held' : List ObjectId} (perm : held'.Perm held) :
    Reordered (release held) (release held')
  | dropBridge {T : ElementType} (r : BridgeRef T) : Reordered (dropBridge r) (dropBridge r)
  | free (h : Heap) (id : InstanceId) : Reordered (free h id) (free h id)

end Trigger

namespace World

variable {w w' v : World} {t t' : Trigger}

/-- The world once all is done. -/
def after (w : World) : Trigger → World
  | .release held => w.release held
  | .dropBridge r => w.dropBridge r
  | .free h id => (h.free w id).2.1

theorem after_eq (w : World) (t : Trigger) :
    w.after t = (t.begun w).1.perform (t.begun w).2 := by
  cases t with
  | release held => rfl
  | dropBridge r => rfl
  | free h id =>
    simp only [after, Heap.free, Trigger.begun]
    cases found : h.get w id with
    | none => exact (perform.eq_1 w).symm
    | some o => exact if_pos (Heap.get_eq_some_iff.mp found).2.2

/-- Every object with a payload is listed in one of the tables, and the tables are kept. -/
structure ListedIn (w : World) (tables : List Heap) : Prop where
  listed : ∀ o, (w.object o).payload ≠ none → ∃ h ∈ tables, Variant.object o ∈ h.handles
  outside : ∀ h ∈ tables, ∀ v ∈ h.handles, v ∈ w.outside

theorem ListedIn.kept {tables : List Heap} (listed : w.ListedIn tables) : w.Kept := by
  intro o some
  obtain ⟨h, mem, handle⟩ := listed.listed o some
  exact listed.outside h mem _ handle

/-! ## What goes with what -/

namespace Cascade

variable {pending : List Duty} {released freed : List ObjectId}

/-- **A payload goes with the life of its object**, unless it is lent out. -/
theorem payload_iff (c : Cascade w pending released freed w') (kept : w.Kept) {o : ObjectId}
    (some : (w.object o).payload ≠ none) :
    (w'.object o).payload = none ↔ o ∈ freed ∧ (w.object o).borrow = .idle := by
  rw [c.mem_freed_iff]
  constructor
  · intro lost
    rcases c.wanes.spares o (kept o some) with same | ⟨idle, lives, dead⟩
    · exact absurd (same.symm.trans lost) some
    · exact ⟨⟨lives, dead⟩, idle⟩
  · rintro ⟨⟨lives, dead⟩, idle⟩
    exact c.wanes.dies o lives dead idle

/-- **A bridge is closed with a payload that carries it.** -/
theorem closed_iff (c : Cascade w pending released freed w') (kept : w.Kept) {slot : Nat}
    (open' : w.anyBridge? slot ≠ none) :
    w'.anyBridge? slot = none ↔ ∃ o ∈ freed, (w.object o).borrow = .idle ∧
      ∃ f ∈ w.carried o, f.target.ref.slot = slot := by
  constructor
  · intro lost
    rcases c.wanes.keeps slot with same | ⟨o, p, carries, gone, f, mem, here⟩
    · exact absurd (same.symm.trans lost) open'
    · have some : (w.object o).payload ≠ none := by simp [carries]
      obtain ⟨dies, idle⟩ := (c.payload_iff kept some).mp gone
      exact ⟨o, dies, idle, f, mem_carried.mpr ⟨p, carries, mem⟩, here⟩
  · rintro ⟨o, dies, idle, f, mem, rfl⟩
    obtain ⟨p, carries, mem⟩ := mem_carried.mp mem
    have some : (w.object o).payload ≠ none := by simp [carries]
    exact c.wanes.closes o p carries ((c.payload_iff kept some).mpr ⟨dies, idle⟩) f mem

end Cascade

/-! ## From the beginning -/

/-- How what a trigger sets off goes on to its end. -/
def Unfolds (w : World) (t : Trigger) (released freed : List ObjectId) (w' : World) : Prop :=
  ∃ later, Cascade (t.begun w).1 (t.begun w).2 released later w' ∧ freed = t.killed w ++ later

/-- What has come of it in the end. -/
structure Settles (w : World) (t : Trigger) (released freed : List ObjectId) (w' : World) :
    Prop where
  /-- Nothing is freed twice. -/
  once : freed.Nodup
  dead : ∀ o, o ∈ freed ↔ (w.object o).alive = true ∧ (w'.object o).alive = false
  /-- The payloads that were dropped are those of the freed, unless they were lent out. -/
  payload : ∀ o, (w.object o).payload ≠ none →
    ((w'.object o).payload = none ↔ o ∈ freed ∧ (w.object o).borrow = .idle)
  /-- The bridges that were closed are those in the payloads that were dropped. -/
  closed : ∀ slot, w.anyBridge? slot ≠ none → (w'.anyBridge? slot = none ↔
    t.drops? = some slot ∨ ∃ o ∈ freed, (w.object o).borrow = .idle ∧
      ∃ f ∈ w.carried o, f.target.ref.slot = slot)
  /-- Besides what was given back by hand, every reference of a closed bridge was, once. -/
  balance : released.Perm (t.given ++ w.lostTo w')
  /-- A count that survives has gone down by what was given back. -/
  counts : ∀ o, (w'.object o).counted = true →
    (w.object o).refs = (w'.object o).refs + released.count o

/-- What a trigger does by itself. -/
structure Begins (w : World) (t : Trigger) : Prop where
  outside : (t.begun w).1.outside = w.outside
  bridges : (t.begun w).1.bridges.size = w.bridges.size
  nodup : (t.killed w).Nodup
  lives : ∀ o ∈ t.killed w, (w.object o).alive = true
  object : ∀ o, (t.begun w).1.object o =
    if o ∈ t.killed w then
      { (w.object o).killed with
        payload := if (w.object o).borrow = .idle then none else (w.object o).payload }
    else w.object o
  entry : ∀ slot, (t.begun w).1.anyBridge? slot =
    if t.drops? = some slot ∨ ∃ o ∈ t.killed w, (w.object o).borrow = .idle ∧
        ∃ f ∈ w.carried o, f.target.ref.slot = slot then none
    else w.anyBridge? slot
  owed : ∀ o, (t.begun w).1.owed (t.begun w).2 o = w.heldByBridges o + t.given.count o

/-- A trigger that changes nothing by itself. -/
theorem begins_still (same : (t.begun w).1 = w) (nobody : t.killed w = []) (drops : t.drops? = none)
    (given : ∀ o, (t.begun w).2.count (.giveBack o) = t.given.count o) : w.Begins t where
  outside := by rw [same]
  bridges := by rw [same]
  nodup := by rw [nobody]; exact .nil
  lives o mem := by rw [nobody] at mem; cases mem
  object o := by simp [same, nobody]
  entry slot := by simp [same, nobody, drops]
  owed o := by rw [World.owed, same, given]

theorem begins (w : World) (t : Trigger) : w.Begins t := by
  cases t with
  | release held => exact begins_still rfl rfl rfl fun o => by simp [Trigger.begun, Trigger.given]
  | dropBridge r =>
    exact
      { outside := by simp [Trigger.begun]
        bridges := by simp [Trigger.begun]
        nodup := .nil
        lives := fun o none => nomatch none
        object := fun o => by simp [Trigger.begun, Trigger.killed]
        entry := fun slot => by
          simp [Trigger.begun, Trigger.drops?, Trigger.killed, anyBridge?_closeBridge, eq_comm]
        owed := held_closeBridge w r.slot }
  | free h id =>
    cases found : h.get w id with
    | none =>
      refine begins_still ?_ ?_ rfl fun o => ?_
      · simp only [Trigger.begun, found]
        rfl
      · simp only [Trigger.killed, found]
        rfl
      · simp only [Trigger.begun, found]
        rfl
    | some p =>
      have begun : (Trigger.free h id).begun w = w.kill p := by
        simp only [Trigger.begun, found]
        rfl
      have killed : (Trigger.free h id).killed w = [p] := by
        simp only [Trigger.killed, found]
        rfl
      refine
        { outside := by simp [begun]
          bridges := by simp [begun]
          nodup := by rw [killed]; exact List.nodup_singleton p
          lives := fun o mem => ?_
          object := fun o => ?_
          entry := fun slot => ?_
          owed := fun o => by rw [begun]; exact held_kill w p o }
      · rw [killed, List.mem_singleton] at mem
        rw [mem]
        exact (Heap.get_eq_some_iff.mp found).2.2
      · rw [begun, killed, object_kill]
        simp only [List.mem_singleton]
        split
        · rename_i here
          rw [here]
        · rfl
      · rw [begun, killed]
        simp only [anyBridge?_kill, exists_mem_carried, Trigger.drops?, List.mem_singleton,
          exists_eq_left, reduceCtorEq, false_or]

theorem Begins.kept (b : w.Begins t) (kept : w.Kept) : (t.begun w).1.Kept := by
  intro o some
  rw [b.outside]
  refine kept o fun none => some ?_
  rw [b.object]
  split
  · split
    · rfl
    · exact none
  · exact none

/-- What is freed by hand is dead when the cascade begins. -/
theorem Begins.dead (b : w.Begins t) {o : ObjectId} (mem : o ∈ t.killed w) :
    ((t.begun w).1.object o).alive = false := by
  rw [b.object, if_pos mem]
  rfl

section Unfolding

variable {given later : List ObjectId} (b : w.Begins t)
  (c : Cascade (t.begun w).1 (t.begun w).2 given later w')

include b c

/-- What is freed by hand is not freed again. -/
theorem not_killed_of_later {o : ObjectId} (mem : o ∈ later) : o ∉ t.killed w := by
  intro killed
  have lives := ((c.mem_freed_iff o).mp mem).1
  rw [b.dead killed] at lives
  cases lives

theorem dead_iff (o : ObjectId) :
    o ∈ t.killed w ++ later ↔ (w.object o).alive = true ∧ (w'.object o).alive = false := by
  rw [List.mem_append]
  by_cases mem : o ∈ t.killed w
  · simp [mem, b.lives o mem, c.wanes.dead (b.dead mem)]
  · rw [c.mem_freed_iff, b.object, if_neg mem]
    simp [mem]

theorem payload_none_iff (kept : w.Kept) {o : ObjectId} (some : (w.object o).payload ≠ none) :
    (w'.object o).payload = none ↔ o ∈ t.killed w ++ later ∧ (w.object o).borrow = .idle := by
  by_cases mem : o ∈ t.killed w
  · by_cases idle : (w.object o).borrow = .idle
    · have gone : ((t.begun w).1.object o).payload = none := by
        rw [b.object, if_pos mem]
        exact if_pos idle
      simp [mem, idle, c.wanes.bare gone]
    · have there : ((t.begun w).1.object o).payload ≠ none := by
        rw [b.object, if_pos mem]
        exact fun gone => some ((if_neg idle).symm.trans gone)
      have stays := c.payload_iff (b.kept kept) there
      rw [b.object, if_pos mem] at stays
      exact stays.trans ⟨fun h => absurd h.2 idle, fun h => absurd h.2 idle⟩
  · have rest := c.payload_iff (o := o) (b.kept kept)
    rw [b.object, if_neg mem] at rest
    rw [rest some, List.mem_append]
    simp [mem]

theorem entry_none_iff (kept : w.Kept) {slot : Nat} (open' : w.anyBridge? slot ≠ none) :
    w'.anyBridge? slot = none ↔ t.drops? = some slot ∨
      ∃ o ∈ t.killed w ++ later, (w.object o).borrow = .idle ∧
        ∃ f ∈ w.carried o, f.target.ref.slot = slot := by
  have entry := b.entry slot
  split at entry
  · rename_i here
    refine ⟨fun _ => ?_, fun _ => c.wanes.closed entry⟩
    exact here.imp_right fun ⟨o, mem, rest⟩ => ⟨o, List.mem_append_left _ mem, rest⟩
  · rename_i elsewhere
    have untouched : ∀ o ∈ later, (t.begun w).1.object o = w.object o := fun o mem => by
      rw [b.object, if_neg (not_killed_of_later b c mem)]
    rw [c.closed_iff (b.kept kept) (entry ▸ open')]
    constructor
    · rintro ⟨o, mem, idle, inside⟩
      rw [World.carried, untouched o mem] at inside
      rw [untouched o mem] at idle
      exact .inr ⟨o, List.mem_append_right _ mem, idle, inside⟩
    · rintro (drops | ⟨o, mem, idle, inside⟩)
      · exact absurd (.inl drops) elsewhere
      · rcases List.mem_append.mp mem with mem | mem
        · exact absurd (.inr ⟨o, mem, idle, inside⟩) elsewhere
        · refine ⟨o, mem, ?_, ?_⟩
          · rw [untouched o mem]
            exact idle
          · rw [World.carried, untouched o mem]
            exact inside

/-- Every reference of a closed bridge is given back once, besides those given back by hand. -/
theorem given_perm : given.Perm (t.given ++ w.lostTo w') := by
  have size : w'.bridges.size = w.bridges.size := c.wanes.bridges.trans b.bridges
  have entries : ∀ slot, w'.anyBridge? slot = none ∨ w'.anyBridge? slot = w.anyBridge? slot := by
    intro slot
    rcases c.wanes.entry slot with none | same
    · exact .inl none
    · rw [same, b.entry]
      split
      · exact .inl rfl
      · exact .inr rfl
  refine List.perm_iff_count.mpr fun o => ?_
  have ledger := c.ledger o
  have held := held_eq_lostTo size entries o
  rw [b.owed] at ledger
  rw [List.count_append]
  omega

/-- **What comes of it**, where every payload is kept. -/
theorem settles (kept : w.Kept) : w.Settles t given (t.killed w ++ later) w' where
  once := by
    refine List.nodup_append.mpr ⟨b.nodup, c.nodup_freed, ?_⟩
    rintro o mem _ mem' rfl
    exact not_killed_of_later b c mem' mem
  dead := dead_iff b c
  payload _ some := payload_none_iff b c kept some
  closed _ open' := entry_none_iff b c kept open'
  balance := given_perm b c
  counts o survives := by
    have other : o ∉ t.killed w := by
      intro mem
      have lives := (Bool.and_eq_true_iff.mp survives).2
      rw [c.wanes.dead (b.dead mem)] at lives
      cases lives
    have refs := (c.refs_of_counted survives).1
    rwa [b.object, if_neg other] at refs

end Unfolding

theorem exists_unfolds (w : World) (t : Trigger) :
    ∃ released freed, w.Unfolds t released freed (w.after t) := by
  obtain ⟨released, later, c⟩ := exists_cascade (t.begun w).1 (t.begun w).2
  rw [after_eq]
  exact ⟨released, _, later, c, rfl⟩

/-! ## The order -/

namespace Reordered

/-- What a trigger does by itself leaves two worlds the same but for order. -/
theorem begun (same : w.Reordered v) (triggers : t.Reordered t') :
    (t.begun w).1.Reordered (t'.begun v).1 := by
  have b := w.begins t
  have b' := v.begins t'
  have killed : t'.killed v = t.killed w := by
    cases triggers with
    | free h id => exact congrArg Option.toList (Heap.get_congr same.alive)
    | _ => rfl
  have drops : t'.drops? = t.drops? := by cases triggers <;> rfl
  have inside : ∀ o slot, (∃ f ∈ v.carried o, f.target.ref.slot = slot) ↔
      ∃ f ∈ w.carried o, f.target.ref.slot = slot := fun o slot =>
    exists_congr fun f => and_congr_left fun _ => (same.carried o).mem_iff
  refine
    { outside := by rw [b.outside, b'.outside, same.outside]
      bridges := by rw [b.bridges, b'.bridges, same.bridges]
      cls := fun o => ?_
      borrow := fun o => ?_
      alive := fun o => ?_
      refs := fun o => ?_
      payload := fun o => ?_
      carried := fun o => ?_
      closed := fun slot => ?_
      retained := fun slot => ?_ }
  · rw [b.object, b'.object, killed]
    split
    · exact same.cls o
    · exact same.cls o
  · rw [b.object, b'.object, killed]
    split
    · exact same.borrow o
    · exact same.borrow o
  · rw [b.object, b'.object, killed]
    split
    · rfl
    · exact same.alive o
  · rw [b.object, b'.object, killed]
    split
    · rfl
    · exact same.refs o
  · rw [b.object, b'.object, killed, same.borrow]
    split
    · split
      · exact .rfl
      · exact same.payload o
    · exact same.payload o
  · rw [World.carried, World.carried, b.object, b'.object, killed, same.borrow]
    split
    · split
      · exact .refl _
      · exact same.carried o
    · exact same.carried o
  · rw [b.entry, b'.entry, killed, drops]
    simp only [inside, same.borrow]
    split
    · exact .rfl
    · exact same.closed slot
  · rw [b.entry, b'.entry, killed, drops]
    simp only [inside, same.borrow]
    split
    · exact .refl _
    · exact same.retained slot

/-- **What comes of a trigger does not depend on the order.** -/
theorem after (same : w.Reordered v) (kept : w.Kept) (triggers : t.Reordered t') :
    (w.after t).Reordered (v.after t') := by
  have start := same.begun triggers
  rw [after_eq, after_eq]
  refine start.perform ((w.begins t).kept kept) fun o => ?_
  have owed := (w.begins t).owed o
  have owed' := (v.begins t').owed o
  have held := same.held o
  have held' := start.held o
  have given : t'.given.count o = t.given.count o := by
    cases triggers with
    | release perm => exact perm.count_eq o
    | _ => rfl
  simp only [World.owed] at owed owed'
  omega

end Reordered

end World

/-- **Cascades end, settle every account, and do not depend on order.** Every object is listed in a
table, and otherwise the world is any: objects may hold each other, and themselves, in any way and
any number of times, and any payloads may be lent out. Then what a trigger sets off

- comes to an end, and that is the world after it;
- frees nothing twice, drops the payloads of the freed that are not lent out, gives back each
  reference of their bridges once, and lowers the counts that survive by just that much;
- leaves the same lives, counts and payloads in whatever order references are given back, payloads
  have their bridges, and bridges hold their references. -/
theorem cascades_settle {w : World} {tables : List Heap} (listed : w.ListedIn tables)
    (t : Trigger) :
    (∃ released freed, w.Unfolds t released freed (w.after t)) ∧
    (∀ released freed w', w.Unfolds t released freed w' →
      w' = w.after t ∧ w.Settles t released freed w') ∧
    ∀ v t', w.Reordered v → t.Reordered t' → (w.after t).Reordered (v.after t') := by
  refine ⟨w.exists_unfolds t, fun released freed w' unfolds => ⟨?_, ?_⟩, fun v t' same given => ?_⟩
  · obtain ⟨_, c, _⟩ := unfolds
    rw [World.after_eq]
    exact c.eq_perform
  · obtain ⟨_, c, rfl⟩ := unfolds
    exact World.settles (w.begins t) c listed.kept
  · exact same.after listed.kept given

/-- An object that holds itself twice. -/
def selfHolding : List Action :=
  [ .newBridge (.handle .refCounted) [] .keepPrevious,
    .allocate .empty .refCounted ⟨none, [⟨"kin", ⟨.handle .refCounted, ⟨0⟩⟩⟩]⟩,
    .keep [.object ⟨0⟩],
    .lendExclusively ⟨0⟩,
    .writeNative (T := .handle .refCounted) ⟨0⟩ [⟨⟨0⟩⟩, ⟨⟨0⟩⟩],
    .returnExclusive ⟨0⟩ ]

/-- Once it is freed by hand, both of its references are given back, to nobody. -/
theorem cascades_settle_selfHolding :
    let w := worldFrom .empty selfHolding
    let table : Heap := ⟨#[⟨0, some ⟨0⟩⟩], []⟩
    w.ListedIn [table] ∧ (w.object ⟨0⟩).refs = 3 ∧ ∃ released freed,
      w.Unfolds (.free table ⟨0, 0⟩) released freed (w.after (.free table ⟨0, 0⟩)) ∧
      released.Perm [⟨0⟩, ⟨0⟩] := by
  intro w table
  have size : w.objects.size = 1 := by cbv
  have kept : w.outside = [.object ⟨0⟩] := by cbv
  have listed : w.ListedIn [table] := by
    refine ⟨fun o some => ⟨table, List.mem_cons_self, ?_⟩, ?_⟩
    · have known : o.slot < 1 := by
        by_contra beyond
        rw [World.object_of_ge (by omega)] at some
        exact some rfl
      have here : o = ⟨0⟩ := ObjectId.eq_of_slot (Nat.lt_one_iff.mp known)
      rw [here]
      exact List.mem_cons_self
    · intro h mem v there
      obtain rfl := List.mem_singleton.mp mem
      obtain rfl : v = .object ⟨0⟩ := List.mem_singleton.mp there
      rw [kept]
      exact List.mem_singleton_self _
  obtain ⟨⟨released, freed, unfolds⟩, settles, _⟩ :=
    cascades_settle listed (.free table ⟨0, 0⟩)
  obtain ⟨_, settled⟩ := settles released freed _ unfolds
  have lost : w.lostTo (w.after (.free table ⟨0, 0⟩)) = [⟨0⟩, ⟨0⟩] := by cbv
  have balance := settled.balance
  rw [lost] at balance
  exact ⟨listed, by cbv, released, freed, unfolds, balance⟩

end ArrayBridge
