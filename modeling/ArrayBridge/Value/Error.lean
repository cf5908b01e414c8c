import ArrayBridge.Number.Shortest
import ArrayBridge.Value.TypeTag

/-!
# Why a value or an array is refused

Two types of causes: `ConversionError` for one value, `BridgeError` for an array or an access to it.
Their wording stands in one place each.
-/

namespace ArrayBridge

/-- Why one variant is no value of the native type asked for. -/
inductive ConversionError where
  /-- The variant is of another kind. Names are as the engine shows them. -/
  | typeMismatch (expected actual : String)
  /-- The integer lies outside the width. -/
  | integerOverflow (value : Int64) (target : String)
  /-- The finite float lies outside the width. -/
  | floatOverflow (value : Binary64) (target : String)
  /-- The object is no instance of the class. -/
  | classMismatch (expected actual : String)
  /-- The object was freed. -/
  | freedObject (cls : String)
deriving DecidableEq

/-- The short name of the cause. -/
def ConversionError.name : ConversionError → String
  | .typeMismatch .. => "TypeMismatch"
  | .integerOverflow .. => "IntegerOverflow"
  | .floatOverflow .. => "FloatOverflow"
  | .classMismatch .. => "ClassMismatch"
  | .freedObject .. => "FreedObject"

/-- The wording. -/
def ConversionError.message : ConversionError → String
  | .typeMismatch expected actual => "type mismatch: expected " ++ expected ++ ", got " ++ actual
  | .integerOverflow value target =>
    "integer " ++ toString value.toInt ++ " out of range for " ++ target
  | .floatOverflow value target => "float " ++ value.text ++ " out of range for " ++ target
  | .classMismatch expected actual => "class mismatch: expected " ++ expected ++ ", got " ++ actual
  | .freedObject cls => "object of class " ++ cls ++ " was freed"

/-- Why an array, or an access to one, is refused. -/
inductive BridgeError where
  /-- The array carries no tag. -/
  | untypedInput (expected : TypeTag)
  /-- The array carries another tag. -/
  | typeTagMismatch (expected actual : TypeTag)
  /-- The tag is right and the element at `index` is the first that does not convert. -/
  | elementConversionFailure (index : Nat) (expected : String) (source : ConversionError)
  /-- There is no element at the index. -/
  | indexOutOfRange (index length : Nat)
  /-- A checked addition offered a value that the tag does not admit. -/
  | elementRejected (expected : TypeTag) (actual : String)
  /-- The argument of a setter is no array. -/
  | notAnArray (actual : String)
  /-- The setter was called without an argument. -/
  | missingArgument

/-- The short name of the cause. -/
def BridgeError.name : BridgeError → String
  | .untypedInput .. => "UntypedInput"
  | .typeTagMismatch .. => "TypeTagMismatch"
  | .elementConversionFailure .. => "ElementConversionFailure"
  | .indexOutOfRange .. => "IndexOutOfRange"
  | .elementRejected .. => "ElementRejected"
  | .notAnArray .. => "NotAnArray"
  | .missingArgument => "MissingArgument"

/-- The wording. -/
def BridgeError.message : BridgeError → String
  | .untypedInput expected => "untyped array rejected, expected Array[" ++ expected.text ++ "]"
  | .typeTagMismatch expected actual =>
    "Array[" ++ actual.text ++ "] rejected, expected Array[" ++ expected.text ++ "]"
  | .elementConversionFailure index expected source =>
    "element " ++ toString index ++ " does not convert to " ++ expected ++ ": " ++ source.message
  | .indexOutOfRange index length =>
    "index " ++ toString index ++ " out of range for array of length " ++ toString length
  | .elementRejected expected actual =>
    actual ++ " value rejected by Array[" ++ expected.text ++ "]"
  | .notAnArray actual => "expected an Array argument, got " ++ actual
  | .missingArgument => "missing argument"

end ArrayBridge
