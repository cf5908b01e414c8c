import ArrayBridge.World.Container

/-!
# Equality of values

Scalars are compared by value, floats by the numeric comparison (a NaN differs from itself), objects
by identity. Two arrays are equal if they are one container, or else if they have as many elements
and the elements are equal in order; marks and revisions play no part.

**Depth.** In a world whose containers do not contain themselves, a chain of containers, each an
element of the one before, is no longer than there are containers. `depth` bounds the chain;
`World.depth` is that bound.
-/

namespace ArrayBridge

namespace World

/-- Whether two lists are as long as each other and related element by element. -/
def pairwise (related : Variant → Variant → Bool) : List Variant → List Variant → Bool
  | [], [] => true
  | x :: xs, y :: ys => related x y && pairwise related xs ys
  | _, _ => false

/-- Equality of values whose chains of containers are no longer than `depth`. -/
def equalTo (w : World) : (depth : Nat) → Variant → Variant → Bool
  | _, .nil, .nil => true
  | _, .bool x, .bool y => x == y
  | _, .int x, .int y => x == y
  | _, .float x, .float y => x.numEq y
  | _, .string x, .string y => x == y
  | _, .object x, .object y => x == y
  | 0, .array a, .array b => a == b
  | depth + 1, .array a, .array b =>
    a == b || pairwise (w.equalTo depth) (w.container a).items (w.container b).items
  | _, _, _ => false

/-- No chain of distinct containers is longer. -/
def depth (w : World) : Nat := w.containers.size + 1

/-- Equality of values. -/
def equal (w : World) (x y : Variant) : Bool := w.equalTo w.depth x y

/-- Equality of arrays. -/
def equalArrays (w : World) (a b : ArrayId) : Bool := w.equal (.array a) (.array b)

/-- The first index whose element satisfies the condition. -/
def position (w : World) (a : ArrayId) (condition : Variant → Bool) : Option Nat :=
  (w.container a).items.findIdx? condition

/-- Whether all elements satisfy the condition, and how many were asked: the first that does not
is the last asked. -/
def allSatisfy (w : World) (a : ArrayId) (condition : Variant → Bool) : Bool × Nat :=
  match w.position a fun v => !condition v with
  | some index => (false, index + 1)
  | none => (true, (w.container a).items.length)

end World

end ArrayBridge
