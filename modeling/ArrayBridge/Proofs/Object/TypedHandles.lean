import ArrayBridge.Proofs.Bridge.Validation
import ArrayBridge.Proofs.Class.Inheritance
import ArrayBridge.Proofs.Run.Script
import ArrayBridge.Proofs.Run.Step
import ArrayBridge.Proofs.World.Codec
import ArrayBridge.World.Borrow

/-!
# Typed handles

The class of a handle is nowhere stored: it is in the type alone, and what it promises was checked
when the handle was made. `Obtained` lists the ways to come by a handle in the course of a run, to
change its class and to keep it while the run goes on. Copying is not among them, since a copy is
the same value.

**What holds.** Whoever makes a handle looks at the class of the object, with one exception: to see
a handle as one of the root class asks for nothing. So a handle is an instance of its class, unless
its class is the root and the object's class has another root (`Obtained.isInstance_iff`). Such
classes can be made: nothing forces a class to have a base.

**What follows.** A handle that is an instance and lives comes back from a variant as it was, the
tag of its class admits it, and a container of such handles passes the check of its own bridge.
-/

namespace ArrayBridge

/-- **Handles that were come by**, up to a point in a run. -/
inductive Obtained : List Event → World → (cls : ClassInfo) → Handle cls → Prop where
  | allocated {past : List Event} {w : World} (run : Run past w) (heap : Heap) (cls : ClassInfo)
      (payload : Payload) (allowed : (Action.allocate heap cls payload).Allowed w) :
      Obtained (⟨w, .allocate heap cls payload⟩ :: past) (w.step (.allocate heap cls payload)) cls
        (heap.allocate w cls payload).2.2
  | ofObject {past : List Event} {w : World} (run : Run past w) {cls : ClassInfo} {o : ObjectId}
      {h : Handle cls} (made : w.handleTo cls o = .ok h) : Obtained past w cls h
  | unwrapped {past : List Event} {w : World} (run : Run past w) {cls : ClassInfo} {v : Variant}
      {h : Handle cls} (made : w.decode (.handle cls) v = .ok h) : Obtained past w cls h
  | unwrappedOptional {past : List Event} {w : World} (run : Run past w) {cls : ClassInfo}
      {v : Variant} {h : Handle cls} (made : w.decode (.optionalHandle cls) v = .ok (some h)) :
      Obtained past w cls h
  | upcast {past : List Event} {w : World} {cls : ClassInfo} {h : Handle cls}
      (got : Obtained past w cls h) : Obtained past w .object h.upcast
  | cast {past : List Event} {w : World} {cls target : ClassInfo} {h : Handle cls}
      {h' : Handle target} (got : Obtained past w cls h) (made : w.cast? h target = some h') :
      Obtained past w target h'
  | later {past : List Event} {w : World} {cls : ClassInfo} {h : Handle cls}
      (got : Obtained past w cls h) (a : Action) (allowed : a.Allowed w) :
      Obtained (⟨w, a⟩ :: past) (w.step a) cls h

/-- A handle on the root class has an object whose class is derived from that. -/
def World.Rooted (w : World) {cls : ClassInfo} (h : Handle cls) : Prop :=
  cls.id = ClassInfo.object.id → (w.object h.object).cls.inherits .object = true

namespace World

variable {w : World} {cls : ClassInfo}

/-- Inheritance asks for the identity of the other class only. -/
theorem isInstance_congr {cls' : ClassInfo} (same : cls.id = cls'.id) (o : ObjectId) :
    w.isInstance o cls = w.isInstance o cls' := by
  rw [isInstance, isInstance, ClassInfo.inherits, ClassInfo.inherits, same]

/-- A handle that was checked is alive and an instance. -/
theorem handleTo_eq_ok_iff {o : ObjectId} {h : Handle cls} :
    w.handleTo cls o = .ok h ↔
      h.object = o ∧ (w.object o).alive = true ∧ w.isInstance o cls = true := by
  unfold handleTo
  obtain ⟨p⟩ := h
  cases (w.object o).alive <;> cases w.isInstance o cls <;> simp [eq_comm]

theorem decode_handle_eq_ok {v : Variant} {h : Handle cls}
    (made : w.decode (.handle cls) v = .ok h) : w.handleTo cls h.object = .ok h := by
  cases v with
  | object o =>
    obtain ⟨rfl, _⟩ := handleTo_eq_ok_iff.mp made
    exact made
  | _ => cases made

theorem decode_optionalHandle_eq_ok {v : Variant} {h : Handle cls}
    (made : w.decode (.optionalHandle cls) v = .ok (some h)) : w.handleTo cls h.object = .ok h := by
  cases v with
  | object o =>
    have made : (w.handleTo cls o).map some = .ok (some h) := made
    cases checked : w.handleTo cls o with
    | error e =>
      rw [checked] at made
      cases made
    | ok h' =>
      rw [checked] at made
      obtain rfl : h' = h := Option.some.inj (Except.ok.inj made)
      obtain ⟨rfl, _⟩ := handleTo_eq_ok_iff.mp checked
      exact checked
  | _ => cases made

end World

namespace Obtained

variable {past : List Event} {w : World} {cls : ClassInfo} {h : Handle cls}

theorem run (got : Obtained past w cls h) : Run past w := by
  induction got with
  | allocated run heap cls payload allowed => exact run.step _ allowed
  | ofObject run _ | unwrapped run _ | unwrappedOptional run _ => exact run
  | upcast _ ih => exact ih
  | cast _ _ ih => exact ih
  | later _ a allowed ih => exact ih.step a allowed

/-- What a handle promises, as far as it was checked: it leads to an object, and that is an instance
of its class or its class is the root. -/
theorem checked (got : Obtained past w cls h) :
    h.object.slot < w.objects.size ∧ (w.isInstance h.object cls = true ∨ cls = .object) := by
  induction got with
  | @allocated past w run heap cls payload allowed =>
    have cell : ((w.step (.allocate heap cls payload)).object
        (heap.allocate w cls payload).2.2.object).cls = cls :=
      congrArg ObjectCell.cls (World.object_addObject_self w _)
    refine ⟨?_, .inl ?_⟩
    · exact Nat.lt_of_lt_of_eq (Nat.lt_succ_self _) (Array.size_push _).symm
    · simp [World.isInstance, cell]
  | ofObject run made =>
    obtain ⟨rfl, alive, fit⟩ := World.handleTo_eq_ok_iff.mp made
    exact ⟨World.lt_of_alive alive, .inl fit⟩
  | unwrapped run made =>
    obtain ⟨_, alive, fit⟩ := World.handleTo_eq_ok_iff.mp (World.decode_handle_eq_ok made)
    exact ⟨World.lt_of_alive alive, .inl fit⟩
  | unwrappedOptional run made =>
    obtain ⟨_, alive, fit⟩ := World.handleTo_eq_ok_iff.mp (World.decode_optionalHandle_eq_ok made)
    exact ⟨World.lt_of_alive alive, .inl fit⟩
  | upcast got ih => exact ⟨ih.1, .inr rfl⟩
  | @cast past w cls target h h' got made ih =>
    unfold World.cast? at made
    split at made
    · rename_i fit
      cases made
      exact ⟨ih.1, .inl fit⟩
    · cases made
  | later got a allowed ih =>
    have evolves := World.evolves_step got.run.sound allowed
    obtain ⟨known, fit⟩ := ih
    refine ⟨Nat.lt_of_lt_of_le known evolves.objects, fit.imp_left fun fit => ?_⟩
    rw [World.isInstance, evolves.cls _ known]
    exact fit

/-- **When a handle is an instance of its class.** -/
theorem isInstance_iff (got : Obtained past w cls h) :
    w.isInstance h.object cls = true ↔ w.Rooted h := by
  constructor
  · intro fit root
    rw [World.isInstance_congr root] at fit
    exact fit
  · intro rooted
    rcases got.checked.2 with fit | rfl
    · exact fit
    · exact rooted rfl

end Obtained

namespace World

variable {T : ElementType} {w : World} {cls : ClassInfo}

/-- A live instance comes back from a variant, and its class admits it. -/
theorem decode_of_isInstance {h : Handle cls} (fit : w.isInstance h.object cls = true)
    (alive : (w.object h.object).alive = true) :
    w.decode (.handle cls) (ElementType.encode (.handle cls) h) = .ok h :=
  handleTo_eq_ok_iff.mpr ⟨rfl, alive, fit⟩

/-- A container passes the check of its own bridge if all its elements unwrap: its mark agrees. -/
theorem Fits.validate {b : Bridge T} (fits : w.Fits b)
    (each : ∀ v ∈ (w.container b.backing).items, ∃ x, w.decode T v = .ok x) :
    w.validate T b.backing = .ok () :=
  validate_eq_ok_iff.mpr ⟨fits.tag, exists_unwraps_of_forall each⟩

end World

/-- **Typed handles stay well typed.** Whatever a run does and however a handle was come by in it:

- the object of the handle is an instance of its class, unless the class is the root and the
  object's class has another;
- a handle that is an instance and lives comes back from a variant as it was, and the tag of its
  class admits it;
- a bridge whose container holds only such live handles accepts its own container. -/
theorem handles_well_typed {past : List Event} {w : World} (run : Run past w) :
    (∀ cls (h : Handle cls), Obtained past w cls h →
      (w.isInstance h.object cls = true ↔ w.Rooted h) ∧
      (w.Rooted h → (w.object h.object).alive = true →
        w.decode (.handle cls) (ElementType.encode (.handle cls) h) = .ok h ∧
        w.admits (ElementType.handle cls).tag (ElementType.encode (.handle cls) h) = true)) ∧
    ∀ cls (r : BridgeRef (.handle cls)) b, w.bridge? r = some b →
      (∀ v ∈ (w.container b.backing).items, ∃ h : Handle cls, Obtained past w cls h ∧
        w.Rooted h ∧ (w.object h.object).alive = true ∧ v = ElementType.encode (.handle cls) h) →
      w.validate (.handle cls) b.backing = .ok () := by
  refine ⟨fun cls h got => ⟨got.isInstance_iff, fun rooted alive => ?_⟩, ?_⟩
  · have fit := got.isInstance_iff.mpr rooted
    exact ⟨World.decode_of_isInstance fit alive, fit⟩
  · intro cls r b open' handles
    apply (run.sound.bridge r.slot _ b (World.bridge?_eq_some_iff.mp open')).validate
    intro v mem
    obtain ⟨h, got, rooted, alive, rfl⟩ := handles v mem
    exact ⟨h, World.decode_of_isInstance (got.isInstance_iff.mpr rooted) alive⟩

/-- An object of a class that is derived from the root, in a bridge of such objects. -/
def oneHeld : List Action :=
  [ .allocate .empty .refCounted ⟨none, []⟩,
    .keep [.object ⟨0⟩],
    .newBridge (.handle .object) [Handle.mk ⟨0⟩] .keepPrevious ]

/-- Seen as one of the root class, the object is an instance, and so is what the bridge holds. -/
theorem handles_well_typed_upcast :
    let w := worldFrom .empty oneHeld
    w.isInstance ⟨0⟩ .object = true ∧
      w.decode (.handle .object) (.object ⟨0⟩) = .ok (Handle.mk ⟨0⟩) ∧
      w.validate (.handle .object) ⟨0⟩ = .ok () := by
  intro w
  have run := Run.start.script oneHeld (by cbv)
  obtain ⟨handles, bridges⟩ := handles_well_typed run
  have made : (worldFrom .empty oneHeld).handleTo .refCounted ⟨0⟩ = .ok ⟨⟨0⟩⟩ :=
    World.handleTo_eq_ok_iff.mpr ⟨rfl, by cbv, by cbv⟩
  have got := (Obtained.ofObject run made).upcast
  have derived : ((worldFrom .empty oneHeld).object ⟨0⟩).cls.inherits .object = true := by cbv
  have alive : ((worldFrom .empty oneHeld).object ⟨0⟩).alive = true := by cbv
  obtain ⟨instance', back⟩ := handles _ _ got
  have held : (worldFrom .empty oneHeld).bridge? (BridgeRef.mk (T := .handle .object) 0) =
      some ⟨[⟨⟨0⟩⟩], some 1, ⟨0⟩, [⟨0⟩], .keepPrevious⟩ := by cbv
  have items : ((worldFrom .empty oneHeld).container ⟨0⟩).items = [.object ⟨0⟩] := by cbv
  refine ⟨instance'.mpr fun _ => derived, (back (fun _ => derived) alive).1, ?_⟩
  apply bridges .object _ _ held
  intro v mem
  rw [items] at mem
  obtain rfl := List.mem_singleton.mp mem
  exact ⟨_, got, fun _ => derived, alive, rfl⟩

/-- A class without a base. -/
def loneClass : ClassInfo := .root "Lone" ⟨2⟩ false

/-- An object of it. -/
def oneLone : List Action := [.allocate .empty loneClass ⟨none, []⟩, .keep [.object ⟨0⟩]]

/-- **Not every handle is an instance of its class**: one on an object of a class without a base can
be seen as one of the root class, and then neither comes back from a variant nor is admitted. -/
theorem upcast_not_well_typed : ∃ past w, ∃ h : Handle .object,
    Run past w ∧ Obtained past w .object h ∧
    (w.object h.object).alive = true ∧ w.isInstance h.object .object = false ∧
    (w.decode (.handle .object) (.object h.object)).toOption = none ∧
    w.admits (ElementType.handle .object).tag (.object h.object) = false := by
  have run := Run.start.script oneLone (by cbv)
  have made : (worldFrom .empty oneLone).handleTo loneClass ⟨0⟩ = .ok ⟨⟨0⟩⟩ :=
    World.handleTo_eq_ok_iff.mpr ⟨rfl, by cbv, by cbv⟩
  exact ⟨_, _, _, run, (Obtained.ofObject run made).upcast, by cbv, by cbv, by cbv, by cbv⟩

end ArrayBridge
