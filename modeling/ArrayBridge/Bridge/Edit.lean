/-!
# Edits of a native list

What is done to the list that a session hands out. An edit at an index that is out of range does
nothing.
-/

namespace ArrayBridge

/-- One edit. -/
inductive ListEdit (α : Type) where
  | push (x : α)
  | set (index : Nat) (x : α)
  | insert (index : Nat) (x : α)
  | remove (index : Nat)
  | pop
  | clear
  | truncate (length : Nat)
  | reverse
  /-- Adds a copy of the list to its end. -/
  | double

namespace ListEdit

variable {α : Type}

def apply (values : List α) : ListEdit α → List α
  | .push x => values ++ [x]
  | .set index x => values.set index x
  | .insert index x => if index ≤ values.length then values.insertIdx index x else values
  | .remove index => values.eraseIdx index
  | .pop => values.dropLast
  | .clear => []
  | .truncate length => values.take length
  | .reverse => values.reverse
  | .double => values ++ values

/-- The element that an edit brings. -/
def operand? : ListEdit α → Option α
  | .push x | .set _ x | .insert _ x => some x
  | _ => none

/-- What an edit takes out of the list, in order: the element it brings, if there is no place for
it. -/
def removed (values : List α) : ListEdit α → List α
  | .set index x => [values.getD index x]
  | .insert index x => if index ≤ values.length then [] else [x]
  | .remove index => values[index]?.toList
  | .pop => values.getLast?.toList
  | .clear => values
  | .truncate length => values.drop length
  | .push _ | .reverse | .double => []

end ListEdit

end ArrayBridge
