import ArrayBridge.Bridge.Boundary
import ArrayBridge.Registry.Dispatch

/-!
# Array properties

A bridge in the payload of a class, shown to the engine as a property: a getter and a setter named
after it, and the property itself. The accessors take only objects of exactly that class. An object
of a derived class finds the property through its base, and is then refused.
-/

namespace ArrayBridge

/-- The body that runs an operation on a bridge of the receiver, if that is of exactly the class. -/
def onField (cls : ClassInfo) (field : String)
    (operation : World → AnyBridgeRef → List Variant → World × Option Variant) : MethodBody where
  run w o arguments :=
    if w.isExactly o cls then
      match w.field? o field with
      | some bridge =>
        let (w, answer) := operation w bridge arguments
        (w, .ok answer)
      | none => (w, .error (.invalidInstance cls.name))
    else (w, .error (.invalidInstance cls.name))
  keeps := []

/-- The getter of a bridge. -/
def arrayGetter (cls : ClassInfo) (field : String) : MethodBody :=
  onField cls field fun w bridge _ => (w, some (w.getAccessor bridge.ref))

/-- The setter of a bridge. -/
def arraySetter (cls : ClassInfo) (field : String) : MethodBody :=
  onField cls field fun w bridge arguments => w.setAccessor bridge.ref arguments

def getterName (property : String) : String := "get_" ++ property

def setterName (property : String) : String := "set_" ++ property

/-- The registrations that make a bridge a property, in order: getter, setter, property. -/
def arrayPropertyRegistrations (cls : ClassInfo) (elem : ElementType) (field property : String) :
    List Registration :=
  let info := PropertyInfo.ofArray elem property
  [ .newMethod cls (.plain (getterName property) (some info) []) (arrayGetter cls field),
    .newMethod cls (.plain (setterName property) none [info]) (arraySetter cls field),
    .newProperty cls info (getterName property) (setterName property) ]

/-- A bridge that a class exports: where it is in the payload, and as which property. -/
structure Export where
  field : String
  elem : ElementType
  property : String

/-- The registrations of a class with its exports: the class, then each export in order. -/
def exportRegistrations (cls : ClassInfo) (exports : List Export) : List Registration :=
  .newClass cls ::
    exports.flatMap fun e => arrayPropertyRegistrations cls e.elem e.field e.property

end ArrayBridge
