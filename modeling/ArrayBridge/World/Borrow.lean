import ArrayBridge.World.Codec
import ArrayBridge.World.Release

/-!
# Lending payloads out

A payload can be read by several at a time, or changed by one alone. What is asked is only whether
the payload is there and how it is lent out at present; whether the object lives is not asked, so an
object that died while its payload was lent out still shows it afterwards.

A typed handle reaches the payload only if the object is of exactly the class of the handle, and not
of one derived from it.
-/

namespace ArrayBridge

/-- The handle seen as one of the root class. -/
def Handle.upcast {cls : ClassInfo} (h : Handle cls) : Handle .object := ⟨h.object⟩

namespace World

/-! ## Handles -/

/-- The handle seen as one of another class, if its object is an instance of that, freed or not. -/
def cast? (w : World) {cls : ClassInfo} (h : Handle cls) (target : ClassInfo) :
    Option (Handle target) :=
  if w.isInstance h.object target then some ⟨h.object⟩ else none

/-- A handle as a developer sees it. -/
def handleText (w : World) {cls : ClassInfo} (h : Handle cls) : String :=
  "Gd<" ++ cls.name ++ ">(" ++ w.label h.object ++ ")"

/-! ## What is there to lend -/

/-- The payload, for one who wants to change it. -/
def writable? (w : World) (o : ObjectId) : Option Payload :=
  match (w.object o).borrow with
  | .idle => (w.object o).payload
  | _ => none

/-- The payload, for one who wants to read it. -/
def readable? (w : World) (o : ObjectId) : Option Payload :=
  match (w.object o).borrow with
  | .exclusive => none
  | _ => (w.object o).payload

/-- Whether the object is of exactly the class. -/
def isExactly (w : World) (o : ObjectId) (cls : ClassInfo) : Bool := (w.object o).cls.id == cls.id

/-- The payload behind a handle, to be read. -/
def bind? (w : World) {cls : ClassInfo} (h : Handle cls) : Option Payload :=
  if w.isExactly h.object cls then w.readable? h.object else none

/-- The payload behind a handle, to be changed. -/
def bindMut? (w : World) {cls : ClassInfo} (h : Handle cls) : Option Payload :=
  if w.isExactly h.object cls then w.writable? h.object else none

/-! ## Lending and returning -/

/-- Lends the payload to one who may change it. -/
def lendExclusively (w : World) (o : ObjectId) : World :=
  w.updateObject o fun cell => { cell with borrow := .exclusive }

/-- Lends the payload to one reader more. -/
def lendToReader (w : World) (o : ObjectId) : World :=
  w.updateObject o fun cell =>
    { cell with
      borrow := match cell.borrow with
        | .shared readers => .shared (readers + 1)
        | _ => .shared 1 }

/-- The one who could change the payload is done with it. -/
def returnExclusive (w : World) (o : ObjectId) : World :=
  w.updateObject o fun cell => { cell with borrow := .idle }

/-- One reader is done with the payload. -/
def returnFromReader (w : World) (o : ObjectId) : World :=
  w.updateObject o fun cell =>
    { cell with
      borrow := match cell.borrow with
        | .shared (readers + 2) => .shared (readers + 1)
        | _ => .idle }

/-- Runs an operation while the payload is lent out to it, if the payload can be had. -/
def withPayload {α : Type} (w : World) (o : ObjectId) (run : World → World × α) :
    World × Option α :=
  match w.writable? o with
  | some _ =>
    let (w, answer) := run (w.lendExclusively o)
    (w.returnExclusive o, some answer)
  | none => (w, none)

/-! ## The number in a payload -/

/-- The number that the object's payload holds, for the classes that have one. -/
def value? (w : World) (o : ObjectId) : Option Int64 := (w.object o).payload.bind Payload.value

/-- Changes the number in the object's payload; a payload without one stays without. -/
def setValue (w : World) (o : ObjectId) (n : Int64) : World :=
  w.updateObject o fun cell =>
    { cell with payload := cell.payload.map fun p => { p with value := p.value.map fun _ => n } }

/-- The bridge of that name in the object's payload. -/
def field? (w : World) (o : ObjectId) (name : String) : Option AnyBridgeRef :=
  (w.object o).payload.bind fun p =>
    (p.fields.find? fun field => field.name == name).map Field.target

end World

end ArrayBridge
