import ArrayBridge.Number.Binary
import ArrayBridge.Value.Kind

/-!
# Variants

The one dynamic type of the engine. Scalars are values; an object and an array are shared, so a
variant holds only which one it is, and what is in it stands in the `World`.
-/

namespace ArrayBridge

/-- Which object. Two handles to one object hold the same number. -/
structure ObjectId where
  slot : Nat
deriving DecidableEq

/-- Which array container. Two handles on one container hold the same number. -/
structure ArrayId where
  slot : Nat
deriving DecidableEq

/-- Two ids with one number are one id. -/
theorem ObjectId.eq_of_slot {o p : ObjectId} (h : o.slot = p.slot) : o = p := by
  cases o
  cases p
  exact congrArg ObjectId.mk h

theorem ArrayId.eq_of_slot {a b : ArrayId} (h : a.slot = b.slot) : a = b := by
  cases a
  cases b
  exact congrArg ArrayId.mk h

/-- A value that crosses the bridge. `nil` is also the null object. -/
inductive Variant where
  | nil
  | bool (value : Bool)
  | int (value : Int64)
  | float (value : Binary64)
  | string (value : String)
  | object (id : ObjectId)
  | array (id : ArrayId)
deriving DecidableEq

namespace Variant

def kind : Variant → Kind
  | .nil => .nil
  | .bool _ => .bool
  | .int _ => .int
  | .float _ => .float
  | .string _ => .string
  | .object _ => .object
  | .array _ => .array

def isNil : Variant → Bool
  | .nil => true
  | _ => false

def object? : Variant → Option ObjectId
  | .object o => some o
  | _ => none

def array? : Variant → Option ArrayId
  | .array a => some a
  | _ => none

end Variant

end ArrayBridge
