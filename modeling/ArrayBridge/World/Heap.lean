import ArrayBridge.World.Borrow

/-!
# The instance table

A table of places, each with the object that sits in it and the number of times it was vacated
before. An id names a place and that number, so an id kept from before a place was vacated never
resolves to the next object in it, until the number has come round modulo two to the thirty-two.

A place is vacated when its object is freed through the table, or, for an object that died by its
count, when the table is swept. The place vacated last is taken first.
-/

namespace ArrayBridge

/-- A place of the table. -/
structure Slot where
  generation : UInt32
  object : Option ObjectId

/-- The instance table. `vacant` lists the places free to be taken, the next one first. -/
structure Heap where
  slots : Array Slot
  vacant : List Nat

namespace Heap

def empty : Heap := ⟨#[], []⟩

instance : Inhabited Heap := ⟨empty⟩

/-- Empties a place; what sat there before makes the difference to its generation. -/
def reclaim (h : Heap) (index : Nat) : Heap :=
  match h.slots[index]? with
  | some ⟨generation, some _⟩ =>
    ⟨h.slots.setIfInBounds index ⟨generation + 1, none⟩, index :: h.vacant⟩
  | _ => h

/-- The place for the next object, and the table in which it is no longer vacant. -/
def take (h : Heap) : Heap × Nat :=
  match h.vacant with
  | index :: vacant => ({ h with vacant }, index)
  | [] => ({ h with slots := h.slots.push ⟨0, none⟩ }, h.slots.size)

/-- The generation of a place. -/
def generation (h : Heap) (index : Nat) : UInt32 :=
  match h.slots[index]? with
  | some slot => slot.generation
  | none => 0

/-- A new object of the class. Where references are counted it starts with one. -/
def allocate (h : Heap) (w : World) (cls : ClassInfo) (payload : Payload) :
    Heap × World × Handle cls :=
  let (h, index) := h.take
  let generation := h.generation index
  let (w, o) := w.addObject
    { id := ⟨index, generation⟩
      cls
      refs := if cls.refcounted then 1 else 0
      alive := true
      payload := some payload
      borrow := .idle }
  let h := { h with slots := h.slots.setIfInBounds index ⟨generation, some o⟩ }
  (h, w.note (.allocated (w.label o)), ⟨o⟩)

/-- The live object of an id. A stale id resolves to none. -/
def get (h : Heap) (w : World) (id : InstanceId) : Option ObjectId :=
  match h.slots[id.index]? with
  | some ⟨generation, some o⟩ =>
    if generation = id.generation ∧ (w.object o).alive then some o else none
  | _ => none

/-- Frees the object of an id, whatever its count, and vacates its place. The answer is false if
the id does not resolve. -/
def free (h : Heap) (w : World) (id : InstanceId) : Heap × World × Bool :=
  match h.get w id with
  | some o => (h.reclaim id.index, w.free o, true)
  | none => (h, w, false)

/-- Whether a dead object sits in the place. -/
def isDead (h : Heap) (w : World) (index : Nat) : Bool :=
  match h.slots[index]? with
  | some ⟨_, some o⟩ => !(w.object o).alive
  | _ => false

/-- Vacates the places of the dead, in ascending order, and tells how many there were. -/
def sweep (h : Heap) (w : World) : Heap × Nat :=
  let dead := (List.range h.slots.size).filter (h.isDead w)
  (dead.foldl reclaim h, dead.length)

/-- The number of objects in the table that live. -/
def liveCount (h : Heap) (w : World) : Nat :=
  h.slots.countP fun slot => slot.object.any fun o => (w.object o).alive

/-- The handles that the table holds, dead objects included, in the order of the places. -/
def handles (h : Heap) : List Variant :=
  h.slots.toList.filterMap fun slot => slot.object.map .object

/-- The table as a developer sees it. -/
def debugText (h : Heap) (w : World) : String :=
  "ObjectHeap \x7b slot_count: " ++ toString h.slots.size ++
    ", free_count: " ++ toString h.vacant.length ++
    ", live_count: " ++ toString (h.liveCount w) ++ " \x7d"

end Heap

end ArrayBridge
