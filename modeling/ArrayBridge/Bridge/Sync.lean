import ArrayBridge.World.Borrow
import ArrayBridge.World.Container
import ArrayBridge.World.Show

/-!
# Bridges

A bridge shows one container as a list of native values. The two views are kept together by deriving
one from the other:

- a **native write** builds a new container, marked for the element type, so that a container
  someone else holds is never changed;
- a **native read** derives the list again whenever the container shows another revision than the
  one the list was derived from. Elements that do not convert are passed over.

**References.** A bridge holds one reference for each object that sat in its container, as an
element and alive, when it last looked. On looking again it first takes the new references and then
gives the old ones back, so an object that stays is not freed in between.

**Handles.** The container and the native list that a bridge moves on from are let go of before the
references are looked after. If a handle in them is the last on its object, that object and what it
keeps come to their end then, objects in the new contents included.

**A session** hands the native list out to be edited. While it is open the bridge has no list of its
own, and closing it is a native write; a session that is never closed leaves the bridge to derive
the list again at the next read.
-/

namespace ArrayBridge

namespace World

variable {T : ElementType}

/-- The objects among values, in order. Arrays among them are not looked into. -/
def directObjects (items : List Variant) : List ObjectId := items.filterMap Variant.object?

/-- Looks at the container again: takes a reference on each object in it, and then gives back
those taken before. -/
def retainBacking (w : World) (r : BridgeRef T) : World :=
  match w.bridge? r with
  | some b =>
    let (w, held) := w.referenceAll (directObjects (w.container b.backing).items)
    let w := w.setBridge r { b with retained := held }
    let w :=
      if held.isEmpty && b.retained.isEmpty then w
      else w.note (.holding T.tag held.length b.retained.length)
    w.release b.retained
  | none => w

/-- A new container of wrapped values, marked for the element type and filled one by one. -/
def wrapAll (w : World) (T : ElementType) (values : List T.Carrier) : World × ArrayId :=
  let (w, a) := w.newArray (some T.tag) []
  (values.foldl (fun w x => w.append a (T.encode x)) w, a)

/-- A bridge in a new place, with the values as its native list and without a reference yet. -/
def openBridge (w : World) (T : ElementType) (values : List T.Carrier) (policy : RejectionPolicy) :
    World × BridgeRef T :=
  let (w, backing) := w.wrapAll T values
  w.addBridge
    { values, revision := some (w.container backing).revision, backing, retained := [], policy }

/-- A new bridge over the values, which are its native list as they are. -/
def newBridge (w : World) (T : ElementType) (values : List T.Carrier) (policy : RejectionPolicy) :
    World × BridgeRef T :=
  let (w, r) := w.openBridge T values policy
  (w.retainBacking r, r)

/-- Closes a bridge: it gives back its references and lets go of all that it keeps. -/
def dropBridge (w : World) (r : BridgeRef T) : World :=
  let (w, duties) := w.closeBridge r.slot
  w.perform duties

/-! ## The native view -/

/-- Derives the native list from the container as it is now, and lets go of the former list. -/
def derive (w : World) (r : BridgeRef T) : World :=
  match w.bridge? r with
  | some b =>
    let c := w.container b.backing
    let w := w.setBridge r { b with values := w.decodeAll T c.items, revision := some c.revision }
    w.letGo (T.encodeAll b.values)
  | none => w

/-- The world with the native list derived again, if the container shows another revision. -/
def refreshed? (w : World) (r : BridgeRef T) : Option World :=
  match w.bridge? r with
  | some b =>
    let c := w.container b.backing
    if b.revision = some c.revision then none
    else
      let kept := (w.decodeAll T c.items).length
      some ((w.derive r).note (.rederived T.tag kept c.items.length))
  | none => none

/-- Derives the native list again if the container shows another revision. -/
def sync (w : World) (r : BridgeRef T) : World :=
  match w.refreshed? r with
  | some w => w.retainBacking r
  | none => w

/-- The native list as it stands, without a look at the container. -/
def nativeValues (w : World) (r : BridgeRef T) : List T.Carrier :=
  match w.bridge? r with
  | some b => b.values
  | none => []

/-- A native read: a copy of the list, brought up to date. -/
def readNative (w : World) (r : BridgeRef T) : World × List T.Carrier :=
  let w := w.sync r
  (w, w.nativeValues r)

/-- The bridge on a container of its own with the values. The former container and the former list
are let go of. -/
def rebuild (w : World) (r : BridgeRef T) (values : List T.Carrier) : World :=
  match w.bridge? r with
  | some b =>
    let (w, backing) := w.wrapAll T values
    let w := w.setBridge r
      { b with values, revision := some (w.container backing).revision, backing }
    w.letGo (.array b.backing :: T.encodeAll b.values)
  | none => w

/-- A native write: the values in a container of their own. -/
def writeNative (w : World) (r : BridgeRef T) (values : List T.Carrier) : World :=
  match w.bridge? r with
  | some _ => ((w.rebuild r values).retainBacking r).note (.rebuilt T.tag values.length)
  | none => w

/-- Opens a session: the up-to-date list is handed out, and the bridge is left without one. -/
def openSession (w : World) (r : BridgeRef T) : World × List T.Carrier :=
  let w := w.sync r
  match w.bridge? r with
  | some b => (w.setBridge r { b with values := [], revision := none }, b.values)
  | none => (w, [])

/-- Closes a session with the edited list. -/
def closeSession (w : World) (r : BridgeRef T) (values : List T.Carrier) : World :=
  w.writeNative r values

/-- Adds one native value, in a session of its own. -/
def pushNative (w : World) (r : BridgeRef T) (x : T.Carrier) : World :=
  let (w, values) := w.openSession r
  w.closeSession r (values ++ [x])

/-! ## The container behind it -/

/-- The container that the bridge shows, shared with it. -/
def backing? (w : World) (r : BridgeRef T) : Option ArrayId := (w.bridge? r).map Bridge.backing

def policy? (w : World) (r : BridgeRef T) : Option RejectionPolicy :=
  (w.bridge? r).map Bridge.policy

def setPolicy (w : World) (r : BridgeRef T) (policy : RejectionPolicy) : World :=
  match w.bridge? r with
  | some b => w.setBridge r { b with policy }
  | none => w

/-- The bridge as a developer sees it. -/
def bridgeDebugText (w : World) (r : BridgeRef T) : String :=
  match w.bridge? r with
  | some b =>
    "TypedArray \x7b tag: " ++ T.tag.debugText ++ ", backing: " ++ w.arrayDebugText b.backing ++
      ", config: " ++ b.policy.debugText ++ " \x7d"
  | none => ""

end World

end ArrayBridge
