import ArrayBridge.World.Basic

/-!
# Objects and their references

An object of a class that counts is held by references and freed with the last one; an object of
another class is freed by hand. A dead object stays dead: references to it are neither taken nor
given back.
-/

namespace ArrayBridge

namespace ObjectCell

/-- Whether references to the object are counted at present. -/
def counted (cell : ObjectCell) : Bool := cell.cls.refcounted && cell.alive

/-- The count, where there is one. -/
def referenceCount (cell : ObjectCell) : Option Nat := if cell.counted then some cell.refs else none

/-- The object with one more reference, up to the most that are counted. -/
def addReference (cell : ObjectCell) : ObjectCell :=
  { cell with refs := min (cell.refs + 1) maxReferences }

/-- The object with one reference less. -/
def dropReference (cell : ObjectCell) : ObjectCell := { cell with refs := cell.refs - 1 }

/-- The object once it is dead. -/
def killed (cell : ObjectCell) : ObjectCell := { cell with alive := false, refs := 0 }

end ObjectCell

namespace World

/-! ## Taking references -/

/-- Takes a reference. Nothing happens, and the answer is false, where references are not
counted. -/
def reference (w : World) (o : ObjectId) : World × Bool :=
  if (w.object o).counted then (w.updateObject o ObjectCell.addReference, true) else (w, false)

/-- Takes a reference on each object of the list, and keeps those that count it. -/
def referenceAll (w : World) : List ObjectId → World × List ObjectId
  | [] => (w, [])
  | o :: rest =>
    let (w, taken) := w.reference o
    let (w, held) := w.referenceAll rest
    (w, if taken then o :: held else held)

/-- The count of references to the object, where there is one. -/
def referenceCount (w : World) (o : ObjectId) : Option Nat := (w.object o).referenceCount

end World

end ArrayBridge
