/-!
# Why a registration or a call is refused
-/

namespace ArrayBridge

/-- The sorts of members that a class can have. -/
inductive MemberSort where
  | method
  | property
  | signal
deriving DecidableEq

def MemberSort.name : MemberSort → String
  | .method => "method"
  | .property => "property"
  | .signal => "signal"

/-- Why a registration is refused. -/
inductive RegistrationError where
  /-- The identity or the name is taken. -/
  | duplicateClass (name : String)
  /-- A member is to be added to a class that is not registered. -/
  | unknownClass (name : String)
  /-- The base has to be registered first. -/
  | unregisteredBase (cls base : String)
  /-- The class has a member of that sort and name. -/
  | duplicateRegistration (cls name : String) (sort : MemberSort)
  /-- A property names an accessor that is no method of the same class. -/
  | unknownAccessor (cls property accessor : String)
deriving DecidableEq

/-- The short name of the cause. -/
def RegistrationError.name : RegistrationError → String
  | .duplicateClass .. => "DuplicateClass"
  | .unknownClass .. => "UnknownClass"
  | .unregisteredBase .. => "UnregisteredBase"
  | .duplicateRegistration .. => "DuplicateRegistration"
  | .unknownAccessor .. => "UnknownAccessor"

/-- The wording. -/
def RegistrationError.message : RegistrationError → String
  | .duplicateClass name => "duplicate class: " ++ name
  | .unknownClass name => "class not registered: " ++ name
  | .unregisteredBase cls base => "base class '" ++ base ++ "' of '" ++ cls ++ "' is not registered"
  | .duplicateRegistration cls name sort =>
    "duplicate registration: '" ++ name ++ "' already registered as " ++ sort.name ++ " on " ++ cls
  | .unknownAccessor cls property accessor =>
    "property '" ++ property ++ "' on " ++ cls ++ " refers to unknown accessor '" ++ accessor ++ "'"

/-- Why a call is refused. -/
inductive CallError where
  /-- The class of the object is not registered. -/
  | unknownClass (name : String)
  /-- Neither the class nor a base of it has the method. -/
  | unknownMethod (cls method : String)
  /-- Neither the class nor a base of it has the property. -/
  | unknownProperty (cls property : String)
  /-- The payload cannot be had, or is not of the class that the method was made for. -/
  | invalidInstance (expected : String)
deriving DecidableEq

/-- The short name of the cause. -/
def CallError.name : CallError → String
  | .unknownClass .. => "UnknownClass"
  | .unknownMethod .. => "UnknownMethod"
  | .unknownProperty .. => "UnknownProperty"
  | .invalidInstance .. => "InvalidInstance"

/-- The wording. -/
def CallError.message : CallError → String
  | .unknownClass name => "class not registered: " ++ name
  | .unknownMethod cls method => "method '" ++ method ++ "' not found on " ++ cls
  | .unknownProperty cls property => "property '" ++ property ++ "' not found on " ++ cls
  | .invalidInstance expected => "instance is not a " ++ expected

end ArrayBridge
