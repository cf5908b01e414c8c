/-!
# Kinds of values

The seven kinds of value that cross the bridge, each with the number the engine gives it and the
name the engine shows.
-/

namespace ArrayBridge

inductive Kind where
  | nil
  | bool
  | int
  | float
  | string
  | object
  | array
deriving DecidableEq

/-- A number that stands for no member of the enumeration it was read as. -/
structure UnmatchedCode where
  enumeration : String
  code : Int
deriving DecidableEq

/-- The text of the refusal. -/
def UnmatchedCode.message (e : UnmatchedCode) : String :=
  "No discriminant in enum `" ++ e.enumeration ++ "` matches the value `" ++ toString e.code ++ "`"

namespace Kind

/-- All kinds, by ascending number. -/
def all : List Kind := [.nil, .bool, .int, .float, .string, .object, .array]

/-- The engine's number of the kind. -/
def code : Kind → Int
  | .nil => 0
  | .bool => 1
  | .int => 2
  | .float => 3
  | .string => 4
  | .object => 24
  | .array => 28

/-- The kind that a number stands for. -/
def ofCode (code : Int) : Except UnmatchedCode Kind :=
  match all.find? fun kind => kind.code = code with
  | some kind => .ok kind
  | none => .error ⟨"VariantKind", code⟩

/-- The name the engine shows. -/
def name : Kind → String
  | .nil => "Nil"
  | .bool => "bool"
  | .int => "int"
  | .float => "float"
  | .string => "String"
  | .object => "Object"
  | .array => "Array"

/-- The kind of that name. -/
def ofName? (name : String) : Option Kind := all.find? fun kind => kind.name == name

/-- The name a developer sees. -/
def debugText : Kind → String
  | .nil => "Nil"
  | .bool => "Bool"
  | .int => "Int"
  | .float => "Float"
  | .string => "String"
  | .object => "Object"
  | .array => "Array"

end Kind

end ArrayBridge
