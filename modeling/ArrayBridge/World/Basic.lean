import ArrayBridge.Value.Element
import ArrayBridge.World.Journal

/-!
# The world

All that is shared stands here: the objects, the array containers, the bridges, and the journal. An
id, a handle or a reference is a number into one of the tables, so "two handles share a container"
is equality of two numbers, and every operation is a function from a world to a world.

**What is never taken back.** The tables only grow, so a number never comes to mean something else.
An object that was freed stays in its place, marked as dead; a container on which there is no handle
any more stays as it was, and is marked; a bridge that was closed leaves an empty place.

**What is kept outside.** A world knows which handles are kept outside of it, since what they lead
to stays.
-/

namespace ArrayBridge

/-- The generational id of an instance: a place in the instance table and how often that place
was vacated before. -/
structure InstanceId where
  index : Nat
  generation : UInt32
deriving DecidableEq

def InstanceId.text (id : InstanceId) : String :=
  toString id.index ++ ":" ++ toString id.generation.toNat

/-- An array container: an optional mark, the elements, and a counter every change moves. It is
dropped when the last handle on it is gone, and then holds its elements no more. -/
structure Container where
  tag : Option TypeTag
  items : List Variant
  revision : UInt64
  dropped : Bool

/-- What stands where no container is. -/
instance : Inhabited Container := ⟨⟨none, [], 0, true⟩⟩

/-- What a bridge does with its contents when a write is refused. -/
inductive RejectionPolicy where
  /-- Both views stay as they are. -/
  | keepPrevious
  /-- Both views become empty, in a container of their own. -/
  | resetToEmpty
deriving DecidableEq

namespace RejectionPolicy

def name : RejectionPolicy → String
  | .keepPrevious => "KeepPrevious"
  | .resetToEmpty => "ResetToEmpty"

/-- The configuration of a bridge as a developer sees it. -/
def debugText (policy : RejectionPolicy) : String :=
  "BridgeConfig \x7b rejection: " ++ policy.name ++ " \x7d"

end RejectionPolicy

/-- A bridge: one container seen as a list of native values.

`values` is the native view as it was when the container showed `revision`; without a revision the
view is out of date whatever the container shows. `retained` lists the objects on which the bridge
holds a reference. -/
structure Bridge (T : ElementType) where
  values : List T.Carrier
  revision : Option UInt64
  backing : ArrayId
  retained : List ObjectId
  policy : RejectionPolicy

/-- A bridge of some element type. -/
structure AnyBridge where
  elem : ElementType
  bridge : Bridge elem

/-- Which bridge, with its element type. -/
structure BridgeRef (T : ElementType) where
  slot : Nat
deriving DecidableEq

/-- A reference to a bridge of some element type. -/
structure AnyBridgeRef where
  elem : ElementType
  ref : BridgeRef elem

/-- A named bridge inside an object. -/
structure Field where
  name : String
  target : AnyBridgeRef

/-- What an object carries: a number, for the classes that have one, and its bridges in the
order in which they are closed. -/
structure Payload where
  value : Option Int64
  fields : List Field

/-- Who is looking at a payload. -/
inductive Borrow where
  | idle
  /-- As many readers as the number says, and at least one. -/
  | shared (readers : Nat)
  | exclusive
deriving DecidableEq

/-- An object. Its payload is of the native type of its class. The count is that of references
taken and not given back; for a class that does not count it is zero. -/
structure ObjectCell where
  id : InstanceId
  cls : ClassInfo
  refs : Nat
  alive : Bool
  payload : Option Payload
  borrow : Borrow

/-- What stands where no object is: a dead one that carries nothing. -/
instance : Inhabited ObjectCell := ⟨⟨⟨0, 0⟩, .object, 0, false, none, .idle⟩⟩

/-- The count that no further reference moves. -/
def maxReferences : Nat := UInt32.size - 1

/-- Everything shared. -/
structure World where
  objects : Array ObjectCell
  containers : Array Container
  bridges : Array (Option AnyBridge)
  /-- Oldest first. -/
  journal : Array Notice
  /-- The handles kept outside. -/
  outside : List Variant

namespace World

/-- Nothing yet. -/
def empty : World := ⟨#[], #[], #[], #[], []⟩

instance : Inhabited World := ⟨empty⟩

/-- Writes a notice. -/
def note (w : World) (n : Notice) : World := { w with journal := w.journal.push n }

/-! ## Reading and changing one place -/

def object (w : World) (o : ObjectId) : ObjectCell := w.objects.getD o.slot default

def updateObject (w : World) (o : ObjectId) (f : ObjectCell → ObjectCell) : World :=
  { w with objects := w.objects.modify o.slot f }

def container (w : World) (a : ArrayId) : Container := w.containers.getD a.slot default

def updateContainer (w : World) (a : ArrayId) (f : Container → Container) : World :=
  { w with containers := w.containers.modify a.slot f }

/-- The bridge, unless it was closed. -/
def bridge? (w : World) {T : ElementType} (r : BridgeRef T) : Option (Bridge T) :=
  match w.bridges.getD r.slot none with
  | some b => if h : b.elem = T then some (h ▸ b.bridge) else none
  | none => none

def setBridge (w : World) {T : ElementType} (r : BridgeRef T) (b : Bridge T) : World :=
  { w with bridges := w.bridges.setIfInBounds r.slot (some ⟨T, b⟩) }

/-! ## Taking a new place -/

def addObject (w : World) (cell : ObjectCell) : World × ObjectId :=
  ({ w with objects := w.objects.push cell }, ⟨w.objects.size⟩)

def addContainer (w : World) (c : Container) : World × ArrayId :=
  ({ w with containers := w.containers.push c }, ⟨w.containers.size⟩)

def addBridge (w : World) {T : ElementType} (b : Bridge T) : World × BridgeRef T :=
  ({ w with bridges := w.bridges.push (some ⟨T, b⟩) }, ⟨w.bridges.size⟩)

/-! ## What a change leaves -/

@[simp] theorem object_updateObject_self {w : World} {o : ObjectId} {f : ObjectCell → ObjectCell}
    (h : o.slot < w.objects.size) : (w.updateObject o f).object o = f (w.object o) := by
  simp [object, updateObject, Array.getD, Array.getElem_modify, h]

@[simp] theorem object_updateObject_of_ne {w : World} {o p : ObjectId} {f : ObjectCell → ObjectCell}
    (h : p ≠ o) : (w.updateObject o f).object p = w.object p := by
  have apart : o.slot ≠ p.slot := fun same => h (ObjectId.eq_of_slot same.symm)
  simp [object, updateObject, Array.getElem?_modify, apart]

@[simp] theorem container_updateContainer_self {w : World} {a : ArrayId} {f : Container → Container}
    (h : a.slot < w.containers.size) : (w.updateContainer a f).container a = f (w.container a) := by
  simp [container, updateContainer, Array.getD, Array.getElem_modify, h]

@[simp] theorem container_updateContainer_of_ne {w : World} {a b : ArrayId}
    {f : Container → Container} (h : b ≠ a) :
    (w.updateContainer a f).container b = w.container b := by
  have apart : a.slot ≠ b.slot := fun same => h (ArrayId.eq_of_slot same.symm)
  simp [container, updateContainer, Array.getElem?_modify, apart]

@[simp] theorem bridge?_setBridge_self {w : World} {T : ElementType} {r : BridgeRef T}
    {b : Bridge T} (h : r.slot < w.bridges.size) : (w.setBridge r b).bridge? r = some b := by
  simp [bridge?, setBridge, Array.getD, h]

/-- What takes a new place is found there. -/
@[simp] theorem object_addObject_self (w : World) (cell : ObjectCell) :
    (w.addObject cell).1.object (w.addObject cell).2 = cell := by
  simp [object, addObject]

@[simp] theorem container_addContainer_self (w : World) (c : Container) :
    (w.addContainer c).1.container (w.addContainer c).2 = c := by
  simp [container, addContainer]

@[simp] theorem bridge?_addBridge_self (w : World) {T : ElementType} (b : Bridge T) :
    (w.addBridge b).1.bridge? (w.addBridge b).2 = some b := by
  simp [bridge?, addBridge]

/-- A new place moves nothing that had one. -/
@[simp] theorem object_addObject_of_lt {w : World} {cell : ObjectCell} {o : ObjectId}
    (h : o.slot < w.objects.size) : (w.addObject cell).1.object o = w.object o := by
  simp [object, addObject, Array.getD, h, Nat.lt_succ_of_lt h, Array.getElem_push_lt h]

@[simp] theorem container_addContainer_of_lt {w : World} {c : Container} {a : ArrayId}
    (h : a.slot < w.containers.size) : (w.addContainer c).1.container a = w.container a := by
  simp [container, addContainer, Array.getD, h, Nat.lt_succ_of_lt h, Array.getElem_push_lt h]

/-! ## What is said of an object and of a value -/

/-- The label of an object: its class, its id, and whether it was freed. -/
def label (w : World) (o : ObjectId) : String :=
  let cell := w.object o
  cell.cls.name ++ "#" ++ cell.id.text ++ (if cell.alive then "" else " (freed)")

/-- The name of a value's type; an object is named by its class. -/
def typeName (w : World) : Variant → String
  | .object o => (w.object o).cls.name
  | v => v.kind.name

/-- Whether the object is an instance of the class, freed or not. -/
def isInstance (w : World) (o : ObjectId) (cls : ClassInfo) : Bool := (w.object o).cls.inherits cls

/-- Whether an array with the tag may hold the value. The object kind admits the null object and
every instance of its class, freed ones too; a kind other than that admits its own. -/
def admits (w : World) (tag : TypeTag) (v : Variant) : Bool :=
  match tag.kind, v with
  | .object, .nil => true
  | .object, .object o =>
    match tag.class? with
    | some cls => w.isInstance o cls
    | none => true
  | kind, v => v.kind == kind

end World

end ArrayBridge
