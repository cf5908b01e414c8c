import ArrayBridge.Text.Quoted
import ArrayBridge.World.Compare

/-!
# Values as a developer sees them

A scalar stands in the name of its kind, an object under its label, and an array with its count, its
mark and all its elements, however deep they go (see `World.depth`).
-/

namespace ArrayBridge

namespace World

def commaSeparated (parts : List String) : String := String.intercalate ", " parts

/-- The text of a value whose chains of containers are no longer than `depth`. -/
def debugTextTo (w : World) : (depth : Nat) → Variant → String
  | _, .nil => "Nil"
  | _, .bool b => if b then "Bool(true)" else "Bool(false)"
  | _, .int n => "Int(" ++ toString n.toInt ++ ")"
  | _, .float x => "Float(" ++ x.text ++ ")"
  | _, .string s => "String(" ++ Text.quote s ++ ")"
  | _, .object o => "Object(" ++ w.label o ++ ")"
  | 0, .array _ => "Array(..)"
  | depth + 1, .array a =>
    "Array(" ++ arrayText (w.container a) (w.debugTextTo depth) ++ ")"
where
  /-- The text of an array whose elements have the given texts. -/
  arrayText (c : Container) (element : Variant → String) : String :=
    "VariantArray \x7b count: " ++ toString c.items.length ++ ", typed: " ++
      (match c.tag with | some tag => tag.text | none => "false") ++
      ", elements: [" ++ commaSeparated (c.items.map element) ++ "] \x7d"

/-- The text of a value. -/
def debugText (w : World) (v : Variant) : String := w.debugTextTo w.depth v

/-- The text of an array. -/
def arrayDebugText (w : World) (a : ArrayId) : String :=
  debugTextTo.arrayText (w.container a) w.debugText

end World

end ArrayBridge
