import ArrayBridge.Registry.ClassDb
import ArrayBridge.World.Borrow

/-!
# Calls by name

How the engine reaches the members of an object by their names. A property is read and written
through the methods it names as its accessors, and these are looked up again from the class of the
object, so a derived class may replace them.
-/

namespace ArrayBridge

namespace ClassDb

/-- The method an object of the class answers to, or why there is none. -/
def findMethod (db : ClassDb) (cls : ClassInfo) (name : String) :
    Except CallError RegisteredMethod :=
  if (db.entry? cls.id).isNone then .error (.unknownClass cls.name)
  else
    match db.methodOf? cls name with
    | some method => .ok method
    | none => .error (.unknownMethod cls.name name)

/-- The property an object of the class answers to, or why there is none. -/
def findProperty (db : ClassDb) (cls : ClassInfo) (name : String) :
    Except CallError RegisteredProperty :=
  if (db.entry? cls.id).isNone then .error (.unknownClass cls.name)
  else
    match db.propertyOf? cls name with
    | some property => .ok property
    | none => .error (.unknownProperty cls.name name)

/-- Calls a method of an object. The payload is lent out to the body; if it cannot be had, the
object is no instance to call anything on. -/
def call (db : ClassDb) (w : World) (o : ObjectId) (method : String) (arguments : List Variant) :
    World × Except CallError (Option Variant) :=
  let cls := (w.object o).cls
  match db.findMethod cls method with
  | .error e => (w, .error e)
  | .ok registered =>
    let w := w.note (.calling (w.label o) method arguments.length)
    match w.withPayload o fun w => registered.body.run w o arguments with
    | (w, some answer) => (w, answer)
    | (w, none) => (w, .error (.invalidInstance cls.name))

/-- Reads a property through its getter. A getter that returns no value reads as `nil`. -/
def getProperty (db : ClassDb) (w : World) (o : ObjectId) (property : String) :
    World × Except CallError Variant :=
  match db.findProperty (w.object o).cls property with
  | .error e => (w, .error e)
  | .ok registered =>
    let (w, answer) := db.call w o registered.getter []
    (w, answer.map fun value => value.getD .nil)

/-- Writes a property through its setter, and answers what the setter does: nothing if the value
was taken over. -/
def setProperty (db : ClassDb) (w : World) (o : ObjectId) (property : String) (value : Variant) :
    World × Except CallError (Option Variant) :=
  match db.findProperty (w.object o).cls property with
  | .error e => (w, .error e)
  | .ok registered => db.call w o registered.setter [value]

end ClassDb

end ArrayBridge
