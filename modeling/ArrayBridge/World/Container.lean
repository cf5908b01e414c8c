import ArrayBridge.World.Release

/-!
# Array containers

The engine's untyped arrays: shared, ordered, of any length. The mark of a container is a promise
that plain additions do not check; `tryAppend` is the one that does.

**The revision.** Every change that happens moves the counter by one, modulo two to the sixty-four;
an operation that is refused moves nothing. So an unchanged counter says that nothing changed, as
long as fewer than two to the sixty-four changes lie between.

**What is replaced or cleared** is let go of by the container. What is taken out is handed over.
-/

namespace ArrayBridge

namespace Container

/-- The container after a change to its elements. -/
def changed (c : Container) (items : List Variant) : Container :=
  { c with items, revision := c.revision + 1 }

def append (c : Container) (v : Variant) : Container := c.changed (c.items ++ [v])

/-- The refusal of an index. -/
def outOfRange (c : Container) (index : Nat) : BridgeError := .indexOutOfRange index c.items.length

def get (c : Container) (index : Nat) : Except BridgeError Variant :=
  match c.items[index]? with
  | some v => .ok v
  | none => .error (c.outOfRange index)

/-- The element at the index, and `nil` where there is none. -/
def getOrNil (c : Container) (index : Nat) : Variant := c.items.getD index .nil

def set (c : Container) (index : Nat) (v : Variant) : Except BridgeError Container :=
  if index < c.items.length then .ok (c.changed (c.items.set index v))
  else .error (c.outOfRange index)

/-- Puts a value before the element at the index, or behind the last one. -/
def insert (c : Container) (index : Nat) (v : Variant) : Except BridgeError Container :=
  if index ≤ c.items.length then .ok (c.changed (c.items.insertIdx index v))
  else .error (c.outOfRange index)

/-- Takes the element at the index out. -/
def removeAt (c : Container) (index : Nat) : Except BridgeError (Variant × Container) :=
  match c.items[index]? with
  | some v => .ok (v, c.changed (c.items.eraseIdx index))
  | none => .error (c.outOfRange index)

def clear (c : Container) : Container := c.changed []

end Container

namespace World

/-- A new container. Nobody else holds it, and the elements are not checked against the tag. -/
def newArray (w : World) (tag : Option TypeTag) (items : List Variant) : World × ArrayId :=
  w.addContainer ⟨tag, items, 0, false⟩

/-- A new container with the tag and the elements of another. -/
def duplicate (w : World) (a : ArrayId) : World × ArrayId :=
  let c := w.container a
  w.newArray c.tag c.items

/-- Runs an operation on a container and keeps what it leaves. -/
def onContainer {α : Type} (w : World) (a : ArrayId)
    (operation : Container → Except BridgeError (α × Container)) : World × Except BridgeError α :=
  match operation (w.container a) with
  | .ok (answer, c) => (w.updateContainer a fun _ => c, .ok answer)
  | .error e => (w, .error e)

def append (w : World) (a : ArrayId) (v : Variant) : World :=
  w.updateContainer a fun c => c.append v

/-- Adds a value that the tag admits; a container without a tag admits every value. -/
def tryAppend (w : World) (a : ArrayId) (v : Variant) : World × Except BridgeError Unit :=
  w.onContainer a fun c =>
    match c.tag with
    | some tag =>
      if w.admits tag v then .ok ((), c.append v)
      else .error (.elementRejected tag (w.typeName v))
    | none => .ok ((), c.append v)

def setAt (w : World) (a : ArrayId) (index : Nat) (v : Variant) : World × Except BridgeError Unit :=
  let replaced := (w.container a).items[index]?
  let (w, answer) := w.onContainer a fun c => (c.set index v).map fun c => ((), c)
  (w.letGo replaced.toList, answer)

def insertAt (w : World) (a : ArrayId) (index : Nat) (v : Variant) :
    World × Except BridgeError Unit :=
  w.onContainer a fun c => (c.insert index v).map fun c => ((), c)

def removeAt (w : World) (a : ArrayId) (index : Nat) : World × Except BridgeError Variant :=
  w.onContainer a fun c => c.removeAt index

def clear (w : World) (a : ArrayId) : World :=
  (w.updateContainer a Container.clear).letGo (w.container a).items

/-- Adds every element that the container has now behind those it has. -/
def appendOwnElements (w : World) (a : ArrayId) : World :=
  (w.container a).items.foldl (fun w v => w.append a v) w

/-- Whether two containers carry agreeing marks, or neither carries one. -/
def sameTyped (w : World) (a b : ArrayId) : Bool :=
  TypeTag.same? (w.container a).tag (w.container b).tag

end World

end ArrayBridge
