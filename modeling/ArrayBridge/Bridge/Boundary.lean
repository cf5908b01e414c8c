import ArrayBridge.Bridge.Sync

/-!
# Arrays that come from the engine

The check an array passes before a bridge takes it over, and what happens when it does not pass.

**Validation** asks three things in order and stops at the first that fails: the array carries a
mark, the mark agrees with that of the element type, and every element converts.

**A write** takes over the array that passes, container and all. One that does not pass is never
taken over in part: the policy of the bridge decides whether the contents stay or become empty. An
array that is the bridge's own container is exempt from the policy, and both views stay.

**The accessors** are how an engine reads and writes a bridge as a property. There is no room for an
error in their convention: a setter answers nothing when it took the value over, and otherwise the
array that the property holds now.
-/

namespace ArrayBridge

namespace World

variable {T : ElementType}

/-- Validation of an array for an element type. -/
def validate (w : World) (T : ElementType) (candidate : ArrayId) : Except BridgeError Unit :=
  let c := w.container candidate
  match c.tag with
  | none => .error (.untypedInput T.tag)
  | some actual =>
    if actual.same T.tag then
      match w.decodeEach T c.items with
      | .ok _ => .ok ()
      | .error (index, source) => .error (.elementConversionFailure index T.name source)
    else .error (.typeTagMismatch T.tag actual)

/-- Puts the bridge on another container and lets go of the former one. The native list is still
that of the former. -/
def moveTo (w : World) (r : BridgeRef T) (candidate : ArrayId) : World :=
  match w.bridge? r with
  | some b => (w.setBridge r { b with backing := candidate }).letGo [.array b.backing]
  | none => w

/-- The world in which the bridge shows the container and has not yet looked after its references.
The former container is let go of before the elements of the new one are unwrapped. -/
def takeOver (w : World) (r : BridgeRef T) (candidate : ArrayId) : World :=
  (w.moveTo r candidate).derive r

/-- Takes a container over: both views are those of the container from now on. -/
def adopt (w : World) (r : BridgeRef T) (candidate : ArrayId) : World :=
  match w.bridge? r with
  | some _ =>
    let w := w.note (.adopted T.tag (w.container candidate).items.length)
    (w.takeOver r candidate).retainBacking r
  | none => w

/-- Applies the policy of the bridge to a write that failed for the reason. -/
def reject (w : World) (r : BridgeRef T) (reason : BridgeError) : World :=
  match w.policy? r with
  | some .keepPrevious => w.note (.rejectedKeeping T.tag reason)
  | some .resetToEmpty => (w.note (.rejectedResetting T.tag reason)).writeNative r []
  | none => w

/-- A write from the engine. -/
def writeUntyped (w : World) (r : BridgeRef T) (candidate : ArrayId) :
    World × Except BridgeError Unit :=
  match w.validate T candidate with
  | .ok () => (w.adopt r candidate, .ok ())
  | .error reason =>
    if w.backing? r = some candidate then
      ((w.note (.rejectedOwnBacking T.tag reason)).sync r, .error reason)
    else (w.reject r reason, .error reason)

/-- Writes the bridge's own container back to it. -/
def writeBack (w : World) (r : BridgeRef T) : World × Except BridgeError Unit :=
  match w.backing? r with
  | some backing => w.writeUntyped r backing
  | none => (w, .ok ())

/-! ## Accessors -/

/-- What a getter answers: the container, shared. -/
def getAccessor (w : World) (r : BridgeRef T) : Variant :=
  match w.backing? r with
  | some backing => .array backing
  | none => .nil

/-- What a setter does with its arguments, of which only the first counts. It answers nothing if
that was taken over, and otherwise the array the bridge shows afterwards. -/
def setAccessor (w : World) (r : BridgeRef T) (arguments : List Variant) : World × Option Variant :=
  match arguments.head? with
  | some (.array candidate) =>
    match w.writeUntyped r candidate with
    | (w, .ok ()) => (w, none)
    | (w, .error _) => (w, some (w.getAccessor r))
  | some other =>
    let w := w.reject r (.notAnArray (w.typeName other))
    (w, some (w.getAccessor r))
  | none =>
    let w := w.reject r .missingArgument
    (w, some (w.getAccessor r))

end World

end ArrayBridge
