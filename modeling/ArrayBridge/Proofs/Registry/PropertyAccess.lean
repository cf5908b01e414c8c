import ArrayBridge.Proofs.Bridge.Accessors
import ArrayBridge.Proofs.Registry.Members
import ArrayBridge.Proofs.Run.Script

/-!
# Access to array properties

What an engine gets that reads and writes a bridge by the name of a property. A call looks the
accessor up, lends the payload out, asks whether the object is of exactly the owner's class, and
then works on the bridge. `property_access_faithful` puts these together: what the setter answers is
what the next read shows, on whichever way the answer came about.

**Lending changes nothing that is asked for.** The accessors run in a world in which the payload is
lent out (`AlikeButLent`), and the check of an array and the look-up of a field answer there as they
do outside.

**Objects of derived classes** find the property through their bases and are refused, whatever is
offered; the world stays as it is but for a line in the journal (`call_onField_of_other`).
-/

namespace ArrayBridge

namespace World

variable {T : ElementType} {w w' w'' : World} {o : ObjectId}

/-! ## Lending -/

/-- The same world but for how payloads are lent out, and for the journal. -/
structure AlikeButLent (w w' : World) : Prop where
  object : ∀ p, ∃ borrow, w'.object p = { w.object p with borrow }
  containers : w'.containers = w.containers
  bridges : w'.bridges = w.bridges

namespace AlikeButLent

theorem trans (h : w.AlikeButLent w') (h' : w'.AlikeButLent w'') : w.AlikeButLent w'' where
  object p := by
    obtain ⟨_, first⟩ := h.object p
    obtain ⟨borrow, second⟩ := h'.object p
    exact ⟨borrow, by rw [second, first]⟩
  containers := h'.containers.trans h.containers
  bridges := h'.bridges.trans h.bridges

theorem note (w : World) (n : Notice) : w.AlikeButLent (w.note n) := ⟨fun _ => ⟨_, rfl⟩, rfl, rfl⟩

theorem updateObject (w : World) (o : ObjectId) {f : ObjectCell → ObjectCell}
    (h : ∀ cell, ∃ borrow, f cell = { cell with borrow }) :
    w.AlikeButLent (w.updateObject o f) where
  object p := by
    rcases object_updateObject_or (w := w) (o := o) (f := f) p with same | changed
    · exact ⟨_, same⟩
    · obtain ⟨borrow, hb⟩ := h (w.object p)
      exact ⟨borrow, changed.trans hb⟩
  containers := rfl
  bridges := rfl

theorem lend (w : World) (o : ObjectId) : w.AlikeButLent (w.lendExclusively o) :=
  updateObject w o fun _ => ⟨_, rfl⟩

theorem giveBack (w : World) (o : ObjectId) : w.AlikeButLent (w.returnExclusive o) :=
  updateObject w o fun _ => ⟨_, rfl⟩

variable (h : w.AlikeButLent w')

include h

theorem cls (p : ObjectId) : (w'.object p).cls = (w.object p).cls := by
  obtain ⟨_, same⟩ := h.object p
  rw [same]

theorem alive (p : ObjectId) : (w'.object p).alive = (w.object p).alive := by
  obtain ⟨_, same⟩ := h.object p
  rw [same]

theorem payload (p : ObjectId) : (w'.object p).payload = (w.object p).payload := by
  obtain ⟨_, same⟩ := h.object p
  rw [same]

theorem field? (p : ObjectId) (name : String) : w'.field? p name = w.field? p name := by
  rw [World.field?, World.field?, h.payload]

theorem isExactly (p : ObjectId) (cls : ClassInfo) : w'.isExactly p cls = w.isExactly p cls := by
  rw [World.isExactly, World.isExactly, h.cls]

theorem bridge? (r : BridgeRef T) : w'.bridge? r = w.bridge? r := by
  rw [World.bridge?, World.bridge?, h.bridges]

theorem backing? (r : BridgeRef T) : w'.backing? r = w.backing? r := by
  rw [World.backing?, World.backing?, h.bridge?]

theorem container (a : ArrayId) : w'.container a = w.container a := by
  rw [World.container, World.container, h.containers]

/-- Unwrapping asks for lives and classes only. -/
theorem decode (T : ElementType) (v : Variant) : w'.decode T v = w.decode T v := by
  have mismatch : w'.mismatch = w.mismatch := by
    funext expected u
    cases u with
    | object p => rw [World.mismatch, World.mismatch, World.typeName, World.typeName, h.cls]
    | _ => rfl
  have handle : w'.decodeHandle = w.decodeHandle := by
    funext cls u
    cases u with
    | object p =>
      show w'.handleTo cls p = w.handleTo cls p
      rw [handleTo, handleTo, h.alive, isInstance, isInstance, h.cls]
    | _ => exact congrArg Except.error (congrFun (congrFun mismatch cls.name) _)
  cases T with
  | handle cls => exact congrFun (congrFun handle cls) v
  | _ => cases v <;> simp [World.decode, mismatch, handle]

theorem validate (T : ElementType) (a : ArrayId) : w'.validate T a = w.validate T a := by
  have each : ∀ items index, decodeEach.go w' T index items = decodeEach.go w T index items := by
    intro items
    induction items with
    | nil => exact fun _ => rfl
    | cons v rest ih =>
      intro index
      simp only [decodeEach.go, h.decode, ih]
  simp only [World.validate, World.decodeEach, h.container, each]

end AlikeButLent

/-- **A payload that is lent out and returned** was never away. -/
theorem returnExclusive_lendExclusively (idle : (w.object o).borrow = .idle) :
    (w.lendExclusively o).returnExclusive o = w := by
  have same : (w.lendExclusively o).objects.modify o.slot
      (fun cell => { cell with borrow := .idle }) = w.objects := by
    refine Array.ext (by simp [lendExclusively, updateObject]) fun slot _ inside => ?_
    by_cases here : o.slot = slot
    · subst here
      have cell : w.object o = w.objects[o.slot] := by simp [object, Array.getD, inside]
      rw [cell] at idle
      simp [lendExclusively, updateObject, Array.getElem_modify, ← idle]
    · simp [lendExclusively, updateObject, Array.getElem_modify, here]
  exact congrArg (fun objects => ({ w with objects } : World)) same

/-! ## Calls -/

variable {db : ClassDb} {name : String} {m : RegisteredMethod}

/-- The world in which the body of a method runs. -/
def atCall (w : World) (o : ObjectId) (name : String) (arguments : List Variant) : World :=
  (w.note (.calling (w.label o) name arguments.length)).lendExclusively o

theorem alike_atCall (w : World) (o : ObjectId) (name : String) (arguments : List Variant) :
    w.AlikeButLent (w.atCall o name arguments) := (AlikeButLent.note w _).trans (.lend _ o)

@[simp] theorem size_atCall (w : World) (o : ObjectId) (name : String) (arguments : List Variant) :
    (w.atCall o name arguments).objects.size = w.objects.size := by
  simp [atCall, lendExclusively, updateObject, note]

theorem knows_atCall {arguments : List Variant} {v : Variant} :
    (w.atCall o name arguments).Knows v ↔ w.Knows v :=
  ⟨fun h => h.mono (by simp) (Nat.le_refl _), fun h => h.mono (by simp) (Nat.le_refl _)⟩

/-- In the body of a method the payload is lent out. -/
theorem lent_atCall (known : o.slot < w.objects.size) {arguments : List Variant} :
    ((w.atCall o name arguments).object o).borrow = .exclusive := by
  have known' : o.slot < (w.note (.calling (w.label o) name arguments.length)).objects.size := known
  exact congrArg ObjectCell.borrow (object_updateObject_self known')

/-- A call where the payload can be had. -/
theorem call_of_writable (found : db.findMethod (w.object o).cls name = .ok m)
    (there : (w.writable? o).isSome) (arguments : List Variant) :
    db.call w o name arguments =
      ((m.body.run (w.atCall o name arguments) o arguments).1.returnExclusive o,
        (m.body.run (w.atCall o name arguments) o arguments).2) := by
  obtain ⟨p, hp⟩ := Option.isSome_iff_exists.mp there
  have noted : (w.note (.calling (w.label o) name arguments.length)).writable? o = some p := hp
  unfold ClassDb.call withPayload
  simp only [found, noted]
  rfl

/-- A call where it cannot be had. -/
theorem call_of_not_writable (found : db.findMethod (w.object o).cls name = .ok m)
    (there : w.writable? o = none) (arguments : List Variant) :
    db.call w o name arguments = (w.note (.calling (w.label o) name arguments.length),
      .error (.invalidInstance (w.object o).cls.name)) := by
  have noted : (w.note (.calling (w.label o) name arguments.length)).writable? o = none := there
  unfold ClassDb.call withPayload
  simp only [found, noted]

theorem field?_eq (w : World) (o : ObjectId) (field : String) :
    w.field? o field = (w.fields? o).bind fun fields =>
      (fields.find? fun f => f.name == field).map Field.target := by
  rw [field?, fields?]
  cases (w.object o).payload <;> rfl

/-- A payload that is lent out keeps its fields. -/
theorem Evolves.field?_of_lent {fp : Footprint} (h : w.Evolves fp w')
    (known : o.slot < w.objects.size) (lent : (w.object o).borrow = .exclusive)
    (held : Variant.object o ∈ w'.outside) (field : String) :
    w'.field? o field = w.field? o field := by
  have stays : w'.fields? o = w.fields? o := by
    rcases h.spares o known held with stays | ⟨idle, _⟩
    · exact stays
    · rw [lent] at idle
      cases idle
  rw [field?_eq, field?_eq, stays]

theorem lt_of_field? {field : String} {bridge : AnyBridgeRef}
    (h : w.field? o field = some bridge) : o.slot < w.objects.size := by
  rw [field?_eq] at h
  obtain ⟨fields, there, _⟩ := Option.bind_eq_some_iff.mp h
  exact lt_of_fields? there

/-- A payload that can be had is not lent out. -/
theorem idle_of_writable (there : (w.writable? o).isSome) : (w.object o).borrow = .idle := by
  unfold writable? at there
  split at there
  · assumption
  · cases there

/-- A payload can be had if it is there and nobody looks at it. -/
theorem writable_of_field? {field : String} {bridge : AnyBridgeRef}
    (idle : (w.object o).borrow = .idle) (there : w.field? o field = some bridge) :
    (w.writable? o).isSome := by
  obtain ⟨p, hp, _⟩ := Option.bind_eq_some_iff.mp there
  rw [writable?, idle, hp]
  rfl

section Accessors

variable {owner : ClassInfo} {field : String} {bridge : AnyBridgeRef}
  {operation : World → AnyBridgeRef → List Variant → World × Option Variant}

theorem run_onField (operation : World → AnyBridgeRef → List Variant → World × Option Variant)
    (exact' : w.isExactly o owner = true) (there : w.field? o field = some bridge)
    (arguments : List Variant) :
    (onField owner field operation).run w o arguments =
      ((operation w bridge arguments).1, .ok (operation w bridge arguments).2) := by
  simp only [onField, if_pos exact', there]

/-- **An object of another class than the owner is refused**, whatever the accessor does. -/
theorem call_onField_of_other {info : MethodInfo}
    (found : db.findMethod (w.object o).cls name = .ok ⟨info, onField owner field operation⟩)
    (other : w.isExactly o owner = false) (arguments : List Variant) :
    db.call w o name arguments = (w.note (.calling (w.label o) name arguments.length),
      .error (.invalidInstance
        (if (w.writable? o).isSome then owner.name else (w.object o).cls.name))) := by
  by_cases there : (w.writable? o).isSome
  · have refused : (onField owner field operation).run (w.atCall o name arguments) o arguments =
        (w.atCall o name arguments, .error (.invalidInstance owner.name)) := by
      have lent := ((alike_atCall w o name arguments).isExactly o owner).trans other
      simp only [onField, lent, Bool.false_eq_true, if_false]
    rw [call_of_writable found there, refused, if_pos there, atCall,
      returnExclusive_lendExclusively (w := w.note _) (idle_of_writable there)]
  · have none : w.writable? o = none := by simpa using there
    rw [if_neg there, call_of_not_writable found none]

end Accessors

/-! ## The field behind a property -/

/-- The object has the field, and the bridge in it is open and in no other payload. -/
structure HasField (w : World) (o : ObjectId) (field : String) (r : BridgeRef T) (b : Bridge T) :
    Prop where
  field : w.field? o field = some ⟨T, r⟩
  bridge : w.bridge? r = some b
  own : ∀ p fields, w.fields? p = some fields → (∃ f ∈ fields, f.target.ref.slot = r.slot) → p = o

variable {owner : ClassInfo} {field : String} {r : BridgeRef T} {b : Bridge T}

/-- **What a read of the property shows**: the container on which the bridge stands. -/
theorem getProperty_shows (answers : db.AnswersArray (w.object o).cls owner T field name)
    (exact' : w.isExactly o owner = true) (idle : (w.object o).borrow = .idle)
    (there : w.field? o field = some ⟨T, r⟩) {c : ArrayId} (backing : w.backing? r = some c) :
    (db.getProperty w o name).2 = .ok (.array c) := by
  obtain ⟨info, getter⟩ := answers.getter
  have alike := alike_atCall w o (getterName name) []
  have body := run_onField
    (fun w bridge _ => (w, some (w.getAccessor bridge.ref)))
    ((alike.isExactly o owner).trans exact') ((alike.field? o field).trans there) []
  have shown : (w.atCall o (getterName name) []).getAccessor r = .array c :=
    getAccessor_eq ((alike.backing? r).trans backing)
  unfold ClassDb.getProperty
  simp only [answers.property]
  rw [call_of_writable getter (writable_of_field? idle there), arrayGetter, body]
  exact congrArg Except.ok shown

/-- In the body of a call the bridge of the receiver can be reached. -/
theorem atHand_atCall (has : w.HasField o field r b) (arguments : List Variant) :
    (w.atCall o name arguments).AtHand r.slot := by
  intro p fields there inside
  have alike := alike_atCall w o name arguments
  have before : w.fields? p = some fields := by
    rw [fields?, ← alike.payload]
    exact there
  have here : p = o := has.own p fields before inside
  have known : o.slot < w.objects.size := here ▸ lt_of_fields? before
  rw [here, lent_atCall known]
  exact Borrow.noConfusion

end World

section Access

variable {past : List Event} {w : World} {o : ObjectId} {db : ClassDb} {owner : ClassInfo}
  {T : ElementType} {field name : String} {r : BridgeRef T} {b : Bridge T}

/-- **A setter that is called by name**: its answer and the world after it are those of the accessor
of the bridge, and a read afterwards shows the container on which the bridge then stands. -/
theorem Run.call_setter (run : Run past w) (held : Variant.object o ∈ w.outside)
    (answers : db.AnswersArray (w.object o).cls owner T field name)
    (exact' : w.isExactly o owner = true) (idle : (w.object o).borrow = .idle)
    (has : w.HasField o field r b) {arguments : List Variant}
    (known : ∀ v ∈ arguments, w.Knows v) :
    let lent := w.atCall o (setterName name) arguments
    let call := db.call w o (setterName name) arguments
    lent.Sound ∧ lent.Guarded r.slot ∧ call.2 = .ok (lent.setAccessor r arguments).2 ∧
      (∀ a, call.1.container a = (lent.setAccessor r arguments).1.container a) ∧
      ∀ c, (lent.setAccessor r arguments).1.backing? r = some c →
        (db.getProperty call.1 o name).2 = .ok (.array c) := by
  intro lent call
  obtain ⟨info, setter⟩ := answers.setter
  have there := World.writable_of_field? idle has.field
  have alike : w.AlikeButLent lent := World.alike_atCall w o (setterName name) arguments
  have s : lent.Sound :=
    ((run.step (.note _) trivial).step (.lendExclusively o) ⟨held, there⟩).sound
  have hand : lent.AtHand r.slot := World.atHand_atCall has arguments
  have knows : ∀ v ∈ arguments, lent.Knows v := fun v hv => World.knows_atCall.mpr (known v hv)
  have body := World.run_onField
    (fun w bridge arguments => w.setAccessor bridge.ref arguments)
    ((alike.isExactly o owner).trans exact') ((alike.field? o field).trans has.field) arguments
  have same : call = ((lent.setAccessor r arguments).1.returnExclusive o,
      .ok (lent.setAccessor r arguments).2) := by
    show db.call w o (setterName name) arguments = _
    rw [World.call_of_writable setter there, arraySetter, body]
  have back := World.AlikeButLent.giveBack (lent.setAccessor r arguments).1 o
  refine ⟨s, s.guarded hand, by rw [same], fun a => by rw [same]; exact back.container a, ?_⟩
  intro c backing
  -- what the accessor leaves of the receiver: its class, and its payload, which is lent out
  have course := World.course_setAccessor s (Footprint.quiet_bridge r.slot) rfl knows
  have evolves := course.evolves (Footprint.quiet_bridge r.slot)
  have outside : (lent.setAccessor r arguments).1.outside = w.outside := course.tables.2.2
  have inTable : o.slot < w.objects.size := World.lt_of_field? has.field
  have inTable' : o.slot < lent.objects.size := by simpa [lent] using inTable
  have cls : (call.1.object o).cls = (w.object o).cls := by
    rw [same, back.cls, evolves.cls o inTable', alike.cls]
  have returned : (call.1.object o).borrow = .idle := by
    rw [same]
    exact congrArg ObjectCell.borrow (World.object_updateObject_self (Nat.lt_of_lt_of_le inTable'
      evolves.objects))
  have there' : call.1.field? o field = some ⟨T, r⟩ := by
    rw [same, back.field?, evolves.field?_of_lent inTable' (World.lent_atCall inTable)
      (outside ▸ held), alike.field?]
    exact has.field
  refine World.getProperty_shows (cls ▸ answers) ?_ returned there' ?_
  · rwa [World.isExactly, cls]
  · rw [same, back.backing?]
    exact backing

/-- What a call of the setter by name does to the property, for an object of exactly the owner's
class. -/
structure World.SetsFaithfully (w : World) (db : ClassDb) (o : ObjectId) (name : String)
    (b : Bridge T) (arguments : List Variant) : Prop where
  /-- What the property shows before the call. -/
  before : (db.getProperty w o name).2 = .ok (.array b.backing)
  /-- Nothing is answered exactly when an array was offered that passes the check. -/
  answer : (db.call w o (setterName name) arguments).2 = .ok none ↔
    ∃ a, w.Offers T arguments a
  /-- Then the property shows that array. -/
  taken : ∀ a, w.Offers T arguments a →
    (db.getProperty (db.call w o (setterName name) arguments).1 o name).2 = .ok (.array a)
  /-- Otherwise what is answered is what the property shows. -/
  refused : (∀ a, ¬ w.Offers T arguments a) → ∃ c,
    (db.call w o (setterName name) arguments).2 = .ok (some (.array c)) ∧
      (db.getProperty (db.call w o (setterName name) arguments).1 o name).2 = .ok (.array c) ∧
      w.StandsAfterRefusal (db.call w o (setterName name) arguments).1 b
        (arguments.head? = some (.array b.backing)) c

/-- **Setting an array property of an object of exactly the owner's class.** -/
theorem Run.setsFaithfully (run : Run past w) (held : Variant.object o ∈ w.outside)
    (answers : db.AnswersArray (w.object o).cls owner T field name)
    (exact' : w.isExactly o owner = true) (idle : (w.object o).borrow = .idle)
    (has : w.HasField o field r b) {arguments : List Variant}
    (known : ∀ v ∈ arguments, w.Knows v) : w.SetsFaithfully db o name b arguments := by
  obtain ⟨sound, guarded, answer, containers, shows⟩ :=
    run.call_setter held answers exact' idle has known
  have alike := World.alike_atCall w o (setterName name) arguments
  have bridge : (w.atCall o (setterName name) arguments).bridge? r = some b :=
    (alike.bridge? r).trans has.bridge
  have offers : ∀ a, (w.atCall o (setterName name) arguments).Offers T arguments a ↔
      w.Offers T arguments a := fun a => by rw [World.Offers, World.Offers, alike.validate]
  have taken : ∀ a, w.Offers T arguments a →
      (db.call w o (setterName name) arguments).2 = .ok none ∧
        (db.getProperty (db.call w o (setterName name) arguments).1 o name).2 =
          .ok (.array a) := by
    intro a offered
    obtain ⟨nothing, backing⟩ := World.setAccessor_taken sound guarded bridge
      (fun v hv => World.knows_atCall.mpr (known v hv)) ((offers a).mpr offered)
    exact ⟨answer.trans (congrArg Except.ok nothing), shows a backing⟩
  have refused : (∀ a, ¬ w.Offers T arguments a) → ∃ c,
      (db.call w o (setterName name) arguments).2 = .ok (some (.array c)) ∧
        (db.getProperty (db.call w o (setterName name) arguments).1 o name).2 = .ok (.array c) ∧
        w.StandsAfterRefusal (db.call w o (setterName name) arguments).1 b
          (arguments.head? = some (.array b.backing)) c := by
    intro none
    obtain ⟨c, own, backing, stands⟩ := World.setAccessor_refused sound guarded bridge
      fun a offered => none a ((offers a).mp offered)
    refine ⟨c, answer.trans (congrArg Except.ok own), shows c backing, stands.keeps, ?_⟩
    intro policy foreign
    obtain ⟨new, fresh⟩ := stands.resets policy foreign
    refine ⟨fun known => new (World.knows_atCall.mpr known), ?_⟩
    rw [containers c]
    exact fresh
  refine ⟨?_, ⟨fun nothing => ?_, fun ⟨a, offered⟩ => (taken a offered).1⟩,
    fun a offered => (taken a offered).2, refused⟩
  · exact World.getProperty_shows answers exact' idle has.field
      (World.backing?_of_bridge? has.bridge)
  · by_contra none
    obtain ⟨c, own, _⟩ := refused fun a offered => none ⟨a, offered⟩
    rw [nothing] at own
    cases own

/-- Reading and writing an array property of an object of another class than the owner's. -/
theorem World.access_of_other (answers : db.AnswersArray (w.object o).cls owner T field name)
    (other : w.isExactly o owner = false) (value : Variant) :
    let refusal := CallError.invalidInstance
      (if (w.writable? o).isSome then owner.name else (w.object o).cls.name)
    db.getProperty w o name =
        (w.note (.calling (w.label o) (getterName name) 0), .error refusal) ∧
      db.setProperty w o name value =
        (w.note (.calling (w.label o) (setterName name) 1), .error refusal) := by
  obtain ⟨_, getter⟩ := answers.getter
  obtain ⟨_, setter⟩ := answers.setter
  constructor
  · unfold ClassDb.getProperty
    simp only [answers.property, World.call_onField_of_other getter other]
    rfl
  · unfold ClassDb.setProperty
    simp only [answers.property, World.call_onField_of_other setter other]
    rfl

/-- **Access to array properties is faithful from end to end.** A property is registered on a class,
among other registrations, all of them accepted, and the property and its two accessors are what an
object answers with, whatever else was registered. Then for an object of exactly the owner's class
the setter and the next read agree on every list of arguments; an object of another class, one
derived from the owner, is refused and stays as it is. -/
theorem property_access_faithful (run : Run past w) (held : Variant.object o ∈ w.outside)
    {before later : List Registration}
    (accepted : (ClassDb.new.registerAll
      (before ++ arrayPropertyRegistrations owner T field name ++ later)).refusal = none)
    (answers : (ClassDb.new.registerAll
      (before ++ arrayPropertyRegistrations owner T field name ++ later)).db.AnswersFrom
        (w.object o).cls name owner.id) :
    let db := (ClassDb.new.registerAll
      (before ++ arrayPropertyRegistrations owner T field name ++ later)).db
    (w.isExactly o owner = true → (w.object o).borrow = .idle →
      ∀ (r : BridgeRef T) (b : Bridge T), w.HasField o field r b →
        ∀ arguments, (∀ v ∈ arguments, w.Knows v) → w.SetsFaithfully db o name b arguments) ∧
    (w.isExactly o owner = false → ∀ value,
      let refusal := CallError.invalidInstance
        (if (w.writable? o).isSome then owner.name else (w.object o).cls.name)
      db.getProperty w o name =
          (w.note (.calling (w.label o) (getterName name) 0), .error refusal) ∧
        db.setProperty w o name value =
          (w.note (.calling (w.label o) (setterName name) 1), .error refusal)) := by
  intro db
  obtain ⟨consistent, _, registered⟩ := ClassDb.consistent_new.registerAll accepted
  have array : db.AnswersArray (w.object o).cls owner T field name :=
    consistent.answersArray (fun part mem => registered part (by simp [mem])) answers
  exact ⟨fun exact' idle _ _ has _ known => run.setsFaithfully held array exact' idle has known,
    fun other value => World.access_of_other array other value⟩

/-- A class with an array of numbers. -/
def storeClass : ClassInfo := ClassInfo.refCounted.extend "Store" ⟨2⟩

/-- A class derived from it. -/
def boxClass : ClassInfo := storeClass.extend "Box" ⟨3⟩

/-- An object of the one and an object of the other, each with a bridge, and an array to offer. -/
def twoStores : List Action :=
  [ .newBridge .bool [true] .keepPrevious,
    .newBridge .bool [] .keepPrevious,
    .allocate .empty storeClass ⟨none, [⟨"marks", ⟨.bool, ⟨0⟩⟩⟩]⟩,
    .allocate .empty boxClass ⟨none, [⟨"marks", ⟨.bool, ⟨1⟩⟩⟩]⟩,
    .keep [.object ⟨0⟩, .object ⟨1⟩],
    .newArray (some ElementType.bool.tag) [.bool false, .bool true] ]

/-- The property of the array is registered on the base of the two. -/
def storeRegistrations : List Registration :=
  [.newClass storeClass] ++ arrayPropertyRegistrations storeClass .bool "marks" "marks" ++
    [.newClass boxClass]

/-- On the object of the owner's class the array is taken over; the other object is refused. -/
theorem property_access_faithful_of_store :
    let db := (ClassDb.new.registerAll storeRegistrations).db
    let w := worldFrom .empty twoStores
    (db.call w ⟨0⟩ (setterName "marks") [.array ⟨2⟩]).2 = .ok none ∧
      (db.setProperty w ⟨1⟩ "marks" (.array ⟨2⟩)).2 = .error (.invalidInstance "Store") := by
  intro db w
  have run := Run.start.script twoStores (by cbv)
  have accepted : (ClassDb.new.registerAll storeRegistrations).refusal = none := by
    decide +kernel
  have size : w.objects.size = 2 := by cbv
  have second : w.fields? ⟨1⟩ = some [⟨"marks", ⟨.bool, ⟨1⟩⟩⟩] := by cbv
  have only : ∀ p fields, w.fields? p = some fields →
      (∃ f ∈ fields, f.target.ref.slot = 0) → p = ⟨0⟩ := by
    rintro ⟨n⟩ fields there ⟨f, mem, here⟩
    have known : n < 2 := size ▸ World.lt_of_fields? there
    by_contra other
    obtain rfl : n = 1 := Nat.le_antisymm (Nat.le_of_lt_succ known)
      (Nat.pos_of_ne_zero fun first => other (congrArg ObjectId.mk first))
    obtain rfl := Option.some.inj (second.symm.trans there)
    obtain rfl := List.mem_singleton.mp mem
    cases here
  have cls : (w.object ⟨0⟩).cls = storeClass := by cbv
  have cls' : (w.object ⟨1⟩).cls = boxClass := by cbv
  have answers : db.AnswersFrom (w.object ⟨0⟩).cls "marks" storeClass.id := by
    rw [cls]
    exact ⟨by decide +kernel, by decide +kernel, by decide +kernel, by decide +kernel⟩
  have answers' : db.AnswersFrom (w.object ⟨1⟩).cls "marks" storeClass.id := by
    rw [cls']
    exact ⟨by decide +kernel, by decide +kernel, by decide +kernel, by decide +kernel⟩
  obtain ⟨own, _⟩ := property_access_faithful run (o := ⟨0⟩) (.head _) accepted answers
  obtain ⟨_, other⟩ := property_access_faithful run (o := ⟨1⟩) (.tail _ (.head _)) accepted answers'
  have faithful := own (by cbv) (by cbv) ⟨0⟩ _ ⟨by cbv, by cbv, only⟩ [.array ⟨2⟩]
    (List.forall_mem_singleton.mpr (by cbv))
  exact ⟨faithful.answer.mpr ⟨⟨2⟩, by cbv, by cbv⟩,
    (congrArg Prod.snd (other (by cbv) _).2).trans (by cbv)⟩

end Access

end ArrayBridge
