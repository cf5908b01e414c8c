import ArrayBridge.Bridge.Edit
import ArrayBridge.Bridge.Sync
import ArrayBridge.Registry.ClassDb
import ArrayBridge.World.Heap

/-!
# Scopes

A world with those who hold something in it by name: objects, typed handles, arrays, native lists,
bridges, databases and instance tables, each in a name space of its own. Binding a name that is
taken lets go of what it held before, after the new value is there.

**In hand** are the handles that nobody holds by name at the moment, but who is at work does: the
lists of open sessions, and the objects whose payload is lent out. What a session that is never
closed has in hand stays there.

**Settling** a scope discards what none of them holds any more, and hands over the notices written
since the last time.
-/

namespace ArrayBridge

/-- A name space. -/
abbrev Names (α : Type) := List (String × α)

namespace Names

variable {α : Type}

def erase (names : Names α) (name : String) : Names α := names.filter fun row => row.1 != name

def bind (names : Names α) (name : String) (value : α) : Names α :=
  (name, value) :: names.erase name

def find? (names : Names α) (name : String) : Option α := names.lookup name

def values (names : Names α) : List α := names.map Prod.snd

end Names

/-- A scope. The world in it learns of the handles outside when something is done to it. -/
structure Scope where
  world : World
  objects : Names ObjectId
  handles : Names AnyHandle
  arrays : Names ArrayId
  lists : Names NativeList
  bridges : Names AnyBridgeRef
  databases : Names ClassDb
  heaps : Names Heap
  inHand : List Variant

namespace Scope

/-- A fresh scope: an empty world with one database and one instance table, so named. -/
def fresh (database heap : String) : Scope :=
  { world := .empty
    objects := []
    handles := []
    arrays := []
    lists := []
    bridges := []
    databases := [(database, .new)]
    heaps := [(heap, .empty)]
    inHand := [] }

/-- All handles that the scope holds. -/
def outside (s : Scope) : List Variant :=
  s.objects.values.map .object ++
    s.handles.values.map (fun h => .object h.handle.object) ++
    s.arrays.values.map .array ++
    s.lists.values.flatMap (fun l => l.elem.encodeAll l.values) ++
    s.databases.values.flatMap ClassDb.keeps ++
    s.heaps.values.flatMap Heap.handles ++
    s.inHand

/-- The world, which knows of all handles that the scope holds. -/
def present (s : Scope) : World := { s.world with outside := s.outside }

/-- Does something to the world. -/
def act {α : Type} (s : Scope) (f : World → World × α) : Scope × α :=
  let (world, answer) := f s.present
  ({ s with world }, answer)

/-- Lets go of handles, in order. The scope does not hold them any more. -/
def letGo (s : Scope) (handles : List Variant) : Scope :=
  { s with world := s.present.letGo handles }

/-! ## Binding names -/

def bindObject (s : Scope) (name : String) (o : ObjectId) : Scope :=
  letGo { s with objects := s.objects.bind name o }
    ((s.objects.find? name).toList.map .object)

def bindHandle (s : Scope) (name : String) (h : AnyHandle) : Scope :=
  letGo { s with handles := s.handles.bind name h }
    ((s.handles.find? name).toList.map fun former => .object former.handle.object)

def bindArray (s : Scope) (name : String) (a : ArrayId) : Scope :=
  letGo { s with arrays := s.arrays.bind name a } ((s.arrays.find? name).toList.map .array)

def dropArray (s : Scope) (name : String) : Scope :=
  letGo { s with arrays := s.arrays.erase name } ((s.arrays.find? name).toList.map .array)

def bindList (s : Scope) (name : String) (l : NativeList) : Scope :=
  letGo { s with lists := s.lists.bind name l }
    ((s.lists.find? name).toList.flatMap fun former => former.elem.encodeAll former.values)

def bindDatabase (s : Scope) (name : String) (db : ClassDb) : Scope :=
  letGo { s with databases := s.databases.bind name db }
    ((s.databases.find? name).toList.flatMap ClassDb.keeps)

/-- Names an instance table. The places of the one that had the name are let go of in order. -/
def bindHeap (s : Scope) (name : String) (h : Heap) : Scope :=
  letGo { s with heaps := s.heaps.bind name h } ((s.heaps.find? name).toList.flatMap Heap.handles)

/-- Closes the bridge of that name, if there is one. -/
def dropBridge (s : Scope) (name : String) : Scope :=
  match s.bridges.find? name with
  | some b => { s with bridges := s.bridges.erase name, world := s.present.dropBridge b.ref }
  | none => s

/-- Names a bridge; the one that had the name is closed. -/
def bindBridge (s : Scope) (name : String) (b : AnyBridgeRef) : Scope :=
  let s := s.dropBridge name
  { s with bridges := s.bridges.bind name b }

/-! ## What is in hand -/

/-- Takes handles in hand. -/
def hold (s : Scope) (handles : List Variant) : Scope := { s with inHand := handles ++ s.inHand }

/-- Handles go from the hand to another holder, or are to be let go of. -/
def handOver (s : Scope) (handles : List Variant) : Scope :=
  { s with inHand := handles.foldl List.erase s.inHand }

/-- Edits a list that is in hand, together with what the edit brings, and lets go of what the edit
takes out. -/
def edit {T : ElementType} (s : Scope) (values : List T.Carrier) (e : ListEdit T.Carrier) :
    Scope × List T.Carrier :=
  let edited := e.apply values
  let s := s.handOver (T.encodeAll (values ++ e.operand?.toList))
  ((s.hold (T.encodeAll edited)).letGo (T.encodeAll (e.removed values)), edited)

/-! ## What is held -/

/-- The number of handles on a container. -/
def arrayHandleCount (s : Scope) (a : ArrayId) : Nat := s.present.handleCount (.array a)

/-- Settles the scope. -/
def settle (s : Scope) : Scope × List Notice :=
  let world := s.present.discardUnheld
  ({ s with world := { world with journal := #[] } }, world.journal.toList)

end Scope

end ArrayBridge
