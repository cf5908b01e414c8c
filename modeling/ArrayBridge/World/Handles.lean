import ArrayBridge.World.Basic

/-!
# Handles

Objects and containers are shared by handles: those kept outside of the world, those that are
elements of containers, and those that bridges keep. Every occurrence counts. A container that was
dropped has no elements for this purpose, and a bridge that was closed keeps nothing.

Things that hold each other in a circle keep each other, whether or not a way leads to them from
outside.
-/

namespace ArrayBridge

/-- The handles that a bridge keeps: its references, its native list and its container. -/
def AnyBridge.handles (b : AnyBridge) : List Variant :=
  b.bridge.retained.map .object ++ b.elem.encodeAll b.bridge.values ++ [.array b.bridge.backing]

/-- The handles that are elements of a container. -/
def Container.handles (c : Container) : List Variant := if c.dropped then [] else c.items

namespace World

/-- All handles that there are. Scalars among them lead nowhere and do no harm. -/
def handles (w : World) : List Variant :=
  w.outside ++ w.containers.toList.flatMap Container.handles ++
    w.bridges.toList.flatMap fun entry => entry.elim [] AnyBridge.handles

/-- The number of handles on an object or a container. -/
def handleCount (w : World) (v : Variant) : Nat := w.handles.count v

end World

end ArrayBridge
