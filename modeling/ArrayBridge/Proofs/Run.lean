import ArrayBridge.Bridge.Boundary
import ArrayBridge.Proofs.World.Waning
import ArrayBridge.World.Heap

/-!
# Runs

Everything that can be done to a world from outside, one action at a time, and all the ways to get
from nothing to a world by such actions. What is said of every run holds in every order of actions,
with any number of objects, containers and bridges, and with bridges on their own or in payloads.

**Operations inside operations.** A payload that is lent out is two actions, one that lends it and
one that returns it. Whatever is done in between, a call of a method or an open session, is more
actions between the two. So a run also stops in the middle of those.

**What is allowed** is what a caller can do at all: he names only what exists, he reaches the bridge
in a payload only while the payload is lent out to him, and to have a payload lent out he needs a
handle on its object, which he keeps until he returns it. `Action.Allowed` asks for no more. A
refused operation is allowed, and so is one that does nothing.

**Instance tables** are not part of a world. An action that needs one brings it along, and any table
will do.
-/

namespace ArrayBridge

/-- One thing done to a world. -/
inductive Action where
  | allocate (h : Heap) (cls : ClassInfo) (payload : Payload)
  | free (h : Heap) (id : InstanceId)
  | reference (o : ObjectId)
  | unreference (o : ObjectId)
  | setValue (o : ObjectId) (n : Int64)
  | lendExclusively (o : ObjectId)
  | lendToReader (o : ObjectId)
  | returnExclusive (o : ObjectId)
  | returnFromReader (o : ObjectId)
  | newArray (tag : Option TypeTag) (items : List Variant)
  | duplicate (a : ArrayId)
  | append (a : ArrayId) (v : Variant)
  | tryAppend (a : ArrayId) (v : Variant)
  | setAt (a : ArrayId) (index : Nat) (v : Variant)
  | insertAt (a : ArrayId) (index : Nat) (v : Variant)
  | removeAt (a : ArrayId) (index : Nat)
  | clear (a : ArrayId)
  | newBridge (T : ElementType) (values : List T.Carrier) (policy : RejectionPolicy)
  | setPolicy {T : ElementType} (r : BridgeRef T) (policy : RejectionPolicy)
  | dropBridge {T : ElementType} (r : BridgeRef T)
  | readNative {T : ElementType} (r : BridgeRef T)
  | writeNative {T : ElementType} (r : BridgeRef T) (values : List T.Carrier)
  | pushNative {T : ElementType} (r : BridgeRef T) (x : T.Carrier)
  | openSession {T : ElementType} (r : BridgeRef T)
  | closeSession {T : ElementType} (r : BridgeRef T) (values : List T.Carrier)
  | writeUntyped {T : ElementType} (r : BridgeRef T) (candidate : ArrayId)
  | setAccessor {T : ElementType} (r : BridgeRef T) (arguments : List Variant)
  | keep (handles : List Variant)
  | letGo (handles : List Variant)
  | settle
  | note (n : Notice)

namespace World

/-- The world after an action. -/
def step (w : World) : Action → World
  | .allocate h cls payload => (h.allocate w cls payload).2.1
  | .free h id => (h.free w id).2.1
  | .reference o => (w.reference o).1
  | .unreference o => (w.unreference o).1
  | .setValue o n => w.setValue o n
  | .lendExclusively o => w.lendExclusively o
  | .lendToReader o => w.lendToReader o
  | .returnExclusive o => w.returnExclusive o
  | .returnFromReader o => w.returnFromReader o
  | .newArray tag items => (w.newArray tag items).1
  | .duplicate a => (w.duplicate a).1
  | .append a v => w.append a v
  | .tryAppend a v => (w.tryAppend a v).1
  | .setAt a index v => (w.setAt a index v).1
  | .insertAt a index v => (w.insertAt a index v).1
  | .removeAt a index => (w.removeAt a index).1
  | .clear a => w.clear a
  | .newBridge T values policy => (w.newBridge T values policy).1
  | .setPolicy r policy => w.setPolicy r policy
  | .dropBridge r => w.dropBridge r
  | .readNative r => (w.readNative r).1
  | .writeNative r values => w.writeNative r values
  | .pushNative r x => w.pushNative r x
  | .openSession r => (w.openSession r).1
  | .closeSession r values => w.closeSession r values
  | .writeUntyped r candidate => (w.writeUntyped r candidate).1
  | .setAccessor r arguments => (w.setAccessor r arguments).1
  | .keep handles => { w with outside := handles ++ w.outside }
  | .letGo handles => { w with outside := handles.foldl List.erase w.outside }.letGo handles
  | .settle => w.discardUnheld
  | .note n => w.note n

/-- Whether what a value leads to exists. -/
def Knows (w : World) : Variant → Prop
  | .object o => o.slot < w.objects.size
  | .array a => a.slot < w.containers.size
  | _ => True

/-- The bridges in an object's payload, while there is one. -/
def fields? (w : World) (o : ObjectId) : Option (List Field) :=
  (w.object o).payload.map Payload.fields

/-- Whether a bridge can be reached: every payload that it is in is lent out. -/
def AtHand (w : World) (slot : Nat) : Prop :=
  ∀ o fields, w.fields? o = some fields → (∃ f ∈ fields, f.target.ref.slot = slot) →
    (w.object o).borrow ≠ .idle

end World

/-- What a caller can do. -/
def Action.Allowed (w : World) : Action → Prop
  | .allocate _ _ payload => ∀ f ∈ payload.fields, f.target.ref.slot < w.bridges.size
  | .reference o | .unreference o => w.Knows (.object o)
  | .lendExclusively o => Variant.object o ∈ w.outside ∧ (w.writable? o).isSome
  | .lendToReader o => Variant.object o ∈ w.outside ∧ (w.readable? o).isSome
  | .returnExclusive o => (w.object o).borrow = .exclusive
  | .returnFromReader o => ∃ readers, (w.object o).borrow = .shared readers
  | .newArray _ items => ∀ v ∈ items, w.Knows v
  | .append _ v | .tryAppend _ v | .setAt _ _ v | .insertAt _ _ v => w.Knows v
  | .newBridge T values _ => ∀ x ∈ values, w.Knows (T.encode x)
  | .dropBridge r | .readNative r | .openSession r => w.AtHand r.slot
  | @Action.writeNative T r values | @Action.closeSession T r values =>
    w.AtHand r.slot ∧ ∀ x ∈ values, w.Knows (T.encode x)
  | @Action.pushNative T r x => w.AtHand r.slot ∧ w.Knows (T.encode x)
  | .writeUntyped r candidate => w.AtHand r.slot ∧ w.Knows (.array candidate)
  | .setAccessor r arguments => w.AtHand r.slot ∧ ∀ v ∈ arguments, w.Knows v
  | .keep handles => ∀ v ∈ handles, w.Knows v
  | .letGo handles =>
    ∀ o, (w.object o).borrow ≠ .idle → Variant.object o ∈ handles.foldl List.erase w.outside
  | .free .. | .setValue .. | .duplicate .. | .removeAt .. | .clear .. | .setPolicy .. | .settle
  | .note .. => True

/-- An action, and the world in which it was done. -/
structure Event where
  world : World
  action : Action

/-- The world after the action. -/
def Event.after (e : Event) : World := e.world.step e.action

/-- **Runs**: what was done so far, the latest first, and the world it led to. -/
inductive Run : List Event → World → Prop where
  | start : Run [] .empty
  | step {past : List Event} {w : World} (run : Run past w) (a : Action) (allowed : a.Allowed w) :
    Run (⟨w, a⟩ :: past) (w.step a)

end ArrayBridge
