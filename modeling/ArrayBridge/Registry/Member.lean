import ArrayBridge.Registry.Flags
import ArrayBridge.Value.Element

/-!
# Descriptions of members

What the engine is told of a property, a method or a signal of a class. Nothing here looks into the
descriptions; the engine knows the property of a typed array by one exact shape, which is
`PropertyInfo.ofArray`.
-/

namespace ArrayBridge

/-- The hint of a property for the editor. -/
inductive PropertyHint where
  | none
  | range
  | enumeration
  | resourceType
  | arrayType
deriving DecidableEq

namespace PropertyHint

def all : List PropertyHint := [.none, .range, .enumeration, .resourceType, .arrayType]

/-- The engine's number of the hint. -/
def code : PropertyHint → Int
  | .none => 0
  | .range => 1
  | .enumeration => 2
  | .resourceType => 17
  | .arrayType => 31

/-- The hint that a number stands for. -/
def ofCode (code : Int) : Except UnmatchedCode PropertyHint :=
  match all.find? fun hint => hint.code = code with
  | some hint => .ok hint
  | .none => .error ⟨"PropertyHint", code⟩

def debugText : PropertyHint → String
  | .none => "None"
  | .range => "Range"
  | .enumeration => "Enum"
  | .resourceType => "ResourceType"
  | .arrayType => "ArrayType"

/-- The hint of a property that was given none. -/
def standard : PropertyHint := .none

end PropertyHint

/-- The description of a property, an argument or a returned value. -/
structure PropertyInfo where
  kind : Kind
  name : String
  className : String
  hint : PropertyHint
  hintText : String
  usage : UInt32
deriving DecidableEq

namespace PropertyInfo

/-- A plain property. -/
def plain (kind : Kind) (name : String) : PropertyInfo :=
  ⟨kind, name, "", .standard, "", PropertyUsage.standard⟩

/-- The property of a typed array, in the one shape that the engine knows it by. -/
def ofArray (elem : ElementType) (name : String) : PropertyInfo :=
  { plain .array name with
    className := "Array[" ++ elem.name ++ "]"
    hintText := "Array of " ++ elem.name }

end PropertyInfo

/-- The description of a method. -/
structure MethodInfo where
  name : String
  flags : UInt32
  result : Option PropertyInfo
  arguments : List PropertyInfo
deriving DecidableEq

/-- An ordinary method. -/
def MethodInfo.plain (name : String) (result : Option PropertyInfo)
    (arguments : List PropertyInfo) : MethodInfo :=
  ⟨name, MethodFlags.standard, result, arguments⟩

/-- The description of a signal. -/
structure SignalInfo where
  name : String
  arguments : List PropertyInfo
deriving DecidableEq

end ArrayBridge
