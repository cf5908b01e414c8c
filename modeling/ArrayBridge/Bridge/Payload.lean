import ArrayBridge.Bridge.Sync

/-!
# Payloads with bridges

The layout of a class's payload says which bridges it holds. A new payload has them all, empty and
with the policy that keeps previous contents.
-/

namespace ArrayBridge

/-- The layout of a payload: whether there is a number in it, and its bridges in the order in
which they are closed. -/
structure Layout where
  hasValue : Bool
  fields : List (String × ElementType)

namespace World

/-- Empty bridges of the named types, in order. -/
def newFields (w : World) : List (String × ElementType) → World × List Field
  | [] => (w, [])
  | (name, elem) :: rest =>
    let (w, ref) := w.newBridge elem [] .keepPrevious
    let (w, fields) := w.newFields rest
    (w, ⟨name, elem, ref⟩ :: fields)

/-- A new payload of the layout; the number goes where there is a place for one. -/
def newPayload (w : World) (layout : Layout) (value : Int64) : World × Payload :=
  let (w, fields) := w.newFields layout.fields
  (w, ⟨if layout.hasValue then some value else none, fields⟩)

end World

end ArrayBridge
