import ArrayBridge.World.Handles
import ArrayBridge.World.Object

/-!
# Giving back and letting go

Two things keep an object: references, for as long as it lives, and handles, for as long as there is
anything of it. When a holder comes to its end it gives its references back and lets go of its
handles, and either can bring others to their end:

- the last **reference** that is given back frees the object. Its payload goes at once, unless
  someone looks at it just then;
- the last **handle** that is let go of takes with it what is left: of a container its elements, of
  an object the payload.

A payload that goes closes the bridges in it one after another, and a bridge that is closed gives
back its references, each with the handle on its object, and then lets go of its native list and of
its container.

**`perform`** is the one place where this spreads. What has to be done stands in a list, and what
comes up on the way is done before the rest of the list. A handle that the list is still to let go
of counts until its turn has come.

**Why it ends.** Each step shortens the list, or takes a life, a payload or a container away, and
none of these ever comes back.
-/

namespace ArrayBridge

/-- What a holder that comes to its end has to do. -/
inductive Duty where
  /-- A reference is given back. -/
  | giveBack (o : ObjectId)
  /-- A handle is let go of. -/
  | letGo (v : Variant)
deriving DecidableEq

namespace Duty

/-- Gives back a list of references, and lets go of each object with its reference. -/
def givingBack (held : List ObjectId) : List Duty :=
  held.flatMap fun o => [.giveBack o, .letGo (.object o)]

/-- Lets go of a list of handles. -/
def lettingGo (handles : List Variant) : List Duty := handles.map .letGo

end Duty

/-- What a bridge has to do when it is closed. -/
def AnyBridge.duties (b : AnyBridge) : List Duty :=
  Duty.givingBack b.bridge.retained ++ Duty.lettingGo (b.elem.encodeAll b.bridge.values) ++
    [.letGo (.array b.bridge.backing)]

namespace World

/-! ## Closing bridges and dropping payloads -/

/-- Closes the bridge in a place. What it has to do is left to be done. -/
def closeBridge (w : World) (slot : Nat) : World × List Duty :=
  match w.bridges.getD slot none with
  | some b => ({ w with bridges := w.bridges.setIfInBounds slot none }, b.duties)
  | none => (w, [])

/-- Closes bridges, and lists what they have to do, in order. -/
def closeFields (w : World) : List Field → World × List Duty
  | [] => (w, [])
  | field :: rest =>
    let (w, duties) := w.closeBridge field.target.ref.slot
    let (w, more) := w.closeFields rest
    (w, duties ++ more)

/-- Takes the payload away and closes its bridges. -/
def dropPayload (w : World) (o : ObjectId) : World × List Duty :=
  match (w.object o).payload with
  | some payload =>
    (w.updateObject o fun cell => { cell with payload := none }).closeFields payload.fields
  | none => (w, [])

/-- The death of a live object, and what is to be done because of it. While the payload is lent
out it stays. -/
def kill (w : World) (o : ObjectId) : World × List Duty :=
  let w := w.updateObject o ObjectCell.killed
  let w := w.note (.freeing (w.label o))
  if (w.object o).borrow = .idle then w.dropPayload o else (w, [])

/-- Whether there is anything to go with the last handle. -/
def isIntact (w : World) : Variant → Bool
  | .object o => (w.object o).payload.isSome
  | .array a => !(w.container a).dropped
  | _ => false

/-- Takes away what is left of a thing on which there is no handle. -/
def demolish (w : World) : Variant → World × List Duty
  | .object o => w.dropPayload o
  | .array a =>
    (w.updateContainer a fun c => { c with dropped := true },
      Duty.lettingGo (w.container a).items)
  | _ => (w, [])

/-- Whether there is a handle, or one that is still to be let go of. -/
def isHeld (w : World) (pending : List Duty) (v : Variant) : Bool :=
  w.handles.contains v || pending.contains (.letGo v)

/-! ### What there is to lose -/

/-- The number of objects that live. -/
def liveCount (w : World) : Nat := w.objects.countP fun cell => cell.alive

/-- The number of payloads. -/
def payloadCount (w : World) : Nat := w.objects.countP fun cell => cell.payload.isSome

/-- The number of containers that were not dropped. -/
def containerCount (w : World) : Nat := w.containers.countP fun c => !c.dropped

/-- All lives, payloads and containers together. -/
def remaining (w : World) : Nat := w.liveCount + w.payloadCount + w.containerCount

/-- A change that gives the property to no element does not raise the number of elements with it. -/
theorem countP_modify_le {α : Type} {p : α → Bool} {f : α → α} (hf : ∀ a, p (f a) → p a)
    (xs : List α) (i : Nat) : (xs.modify i f).countP p ≤ xs.countP p := by
  induction xs generalizing i with
  | nil => cases i <;> exact Nat.le_refl _
  | cons x xs ih =>
    cases i with
    | zero =>
      simp only [List.modify_zero_cons, List.countP_cons]
      by_cases h : p (f x) = true
      · simp [h, hf x h]
      · simp [h]
    | succ i =>
      have := ih i
      simp only [List.modify_succ_cons, List.countP_cons]
      omega

/-- A change that takes the property from an element that has it lowers the number. -/
theorem countP_modify_lt {α : Type} {p : α → Bool} {f : α → α} {xs : List α} {i : Nat} {a : α}
    (ha : xs[i]? = some a) (h : p a = true) (hf : p (f a) = false) :
    (xs.modify i f).countP p < xs.countP p := by
  induction xs generalizing i with
  | nil => simp at ha
  | cons x xs ih =>
    cases i with
    | zero =>
      obtain rfl : x = a := by simpa using ha
      simp [h, hf]
    | succ i =>
      have := ih (i := i) (by simpa using ha)
      simp only [List.modify_succ_cons, List.countP_cons]
      omega

@[simp] theorem closeBridge_objects (w : World) (slot : Nat) :
    (w.closeBridge slot).1.objects = w.objects := by
  unfold closeBridge
  split <;> rfl

@[simp] theorem closeBridge_containers (w : World) (slot : Nat) :
    (w.closeBridge slot).1.containers = w.containers := by
  unfold closeBridge
  split <;> rfl

@[simp] theorem closeFields_objects (w : World) (fields : List Field) :
    (w.closeFields fields).1.objects = w.objects := by
  induction fields generalizing w with
  | nil => rfl
  | cons field rest ih => simp [closeFields, ih]

@[simp] theorem closeFields_containers (w : World) (fields : List Field) :
    (w.closeFields fields).1.containers = w.containers := by
  induction fields generalizing w with
  | nil => rfl
  | cons field rest ih => simp [closeFields, ih]

/-- What closing bridges leaves: there is as much to lose as before. -/
@[simp] theorem remaining_closeFields (w : World) (fields : List Field) :
    (w.closeFields fields).1.remaining = w.remaining := by
  simp [remaining, liveCount, payloadCount, containerCount]

/-- An object has a place in the table if it lives. -/
theorem getElem?_of_alive {w : World} {o : ObjectId} (h : (w.object o).alive = true) :
    w.objects.toList[o.slot]? = some (w.object o) := by
  unfold object at h ⊢
  rw [Array.getElem?_toList]
  by_cases hs : o.slot < w.objects.size
  · simp [Array.getD, hs]
  · simp [Array.getD, hs, default] at h

/-- An object has a place in the table if it has a payload. -/
theorem getElem?_of_payload {w : World} {o : ObjectId} (h : (w.object o).payload.isSome = true) :
    w.objects.toList[o.slot]? = some (w.object o) := by
  unfold object at h ⊢
  rw [Array.getElem?_toList]
  by_cases hs : o.slot < w.objects.size
  · simp [Array.getD, hs]
  · simp [Array.getD, hs, default] at h

/-- A container has a place in the table if it was not dropped. -/
theorem getElem?_of_not_dropped {w : World} {a : ArrayId} (h : (w.container a).dropped = false) :
    w.containers.toList[a.slot]? = some (w.container a) := by
  unfold container at h ⊢
  rw [Array.getElem?_toList]
  by_cases hs : a.slot < w.containers.size
  · simp [Array.getD, hs]
  · simp [Array.getD, hs, default] at h

theorem liveCount_updateObject_le (w : World) (o : ObjectId) {f : ObjectCell → ObjectCell}
    (hf : ∀ cell, (f cell).alive → cell.alive) : (w.updateObject o f).liveCount ≤ w.liveCount := by
  simp only [liveCount, updateObject, ← Array.countP_toList, Array.toList_modify]
  exact countP_modify_le hf _ _

theorem payloadCount_updateObject_le (w : World) (o : ObjectId) {f : ObjectCell → ObjectCell}
    (hf : ∀ cell, (f cell).payload.isSome → cell.payload.isSome) :
    (w.updateObject o f).payloadCount ≤ w.payloadCount := by
  simp only [payloadCount, updateObject, ← Array.countP_toList, Array.toList_modify]
  exact countP_modify_le hf _ _

theorem liveCount_killed_lt {w : World} {o : ObjectId} (h : (w.object o).alive = true) :
    (w.updateObject o ObjectCell.killed).liveCount < w.liveCount := by
  simp only [liveCount, updateObject, ← Array.countP_toList, Array.toList_modify]
  exact countP_modify_lt (getElem?_of_alive h) h rfl

theorem payloadCount_dropped_lt {w : World} {o : ObjectId}
    (h : (w.object o).payload.isSome = true) :
    (w.updateObject o fun cell => { cell with payload := none }).payloadCount < w.payloadCount := by
  simp only [payloadCount, updateObject, ← Array.countP_toList, Array.toList_modify]
  exact countP_modify_lt (getElem?_of_payload h) h rfl

theorem containerCount_dropped_lt {w : World} {a : ArrayId}
    (h : (w.container a).dropped = false) :
    (w.updateContainer a fun c => { c with dropped := true }).containerCount <
      w.containerCount := by
  simp only [containerCount, updateContainer, ← Array.countP_toList, Array.toList_modify]
  exact countP_modify_lt (getElem?_of_not_dropped h) (by simpa using h) rfl

/-- A change to an object that brings neither life nor payload leaves no more to lose. -/
theorem remaining_updateObject_le (w : World) (o : ObjectId) {f : ObjectCell → ObjectCell}
    (live : ∀ cell, (f cell).alive → cell.alive)
    (payload : ∀ cell, (f cell).payload.isSome → cell.payload.isSome) :
    (w.updateObject o f).remaining ≤ w.remaining :=
  Nat.add_le_add_right
    (Nat.add_le_add (liveCount_updateObject_le w o live) (payloadCount_updateObject_le w o payload))
    _

theorem remaining_dropPayload_le (w : World) (o : ObjectId) :
    (w.dropPayload o).1.remaining ≤ w.remaining := by
  unfold dropPayload
  split
  · rw [remaining_closeFields]
    exact remaining_updateObject_le w o (fun _ h => h) fun _ h => by simp at h
  · exact Nat.le_refl _

theorem remaining_dropPayload_lt {w : World} {o : ObjectId}
    (h : (w.object o).payload.isSome = true) : (w.dropPayload o).1.remaining < w.remaining := by
  unfold dropPayload
  split
  · rw [remaining_closeFields]
    have lives := liveCount_updateObject_le w o
      (f := fun cell => { cell with payload := none }) fun _ h => h
    exact Nat.add_lt_add_right (Nat.add_lt_add_of_le_of_lt lives (payloadCount_dropped_lt h)) _
  · rename_i hp
    simp [hp] at h

/-- A death is one life less. -/
theorem remaining_kill_lt {w : World} {o : ObjectId} (h : (w.object o).alive = true) :
    (w.kill o).1.remaining < w.remaining := by
  have payloads := payloadCount_updateObject_le w o (f := ObjectCell.killed) fun _ h => h
  have fewer : (w.updateObject o ObjectCell.killed).remaining < w.remaining :=
    Nat.add_lt_add_right (Nat.add_lt_add_of_lt_of_le (liveCount_killed_lt h) payloads) _
  simp only [kill]
  split
  · exact Nat.lt_of_le_of_lt (remaining_dropPayload_le _ o) fewer
  · exact fewer

/-- What is demolished is one thing less. -/
theorem remaining_demolish_lt {w : World} {v : Variant} (h : w.isIntact v = true) :
    (w.demolish v).1.remaining < w.remaining := by
  cases v with
  | object o => exact remaining_dropPayload_lt h
  | array a => exact Nat.add_lt_add_left (containerCount_dropped_lt (by simpa [isIntact] using h)) _
  | _ => simp [isIntact] at h

/-- A reference less is nothing more to lose. -/
theorem remaining_dropReference_le (w : World) (o : ObjectId) :
    (w.updateObject o ObjectCell.dropReference).remaining ≤ w.remaining :=
  remaining_updateObject_le w o (fun _ h => h) fun _ h => h

/-! ## Doing what is to be done -/

/-- Does all that stands in the list, in order, and what comes up on the way. -/
def perform (w : World) : List Duty → World
  | [] => w
  | .giveBack o :: rest =>
    if _h : (w.object o).counted then
      if (w.object o).refs ≤ 1 then
        let killed := w.kill o
        killed.1.perform (killed.2 ++ rest)
      else (w.updateObject o ObjectCell.dropReference).perform rest
    else w.perform rest
  | .letGo v :: rest =>
    if _h : w.isIntact v = true ∧ w.isHeld rest v = false then
      let ruins := w.demolish v
      ruins.1.perform (ruins.2 ++ rest)
    else w.perform rest
termination_by pending => (w.remaining, pending.length)
decreasing_by
  · exact Prod.Lex.left _ _ (remaining_kill_lt (Bool.and_eq_true_iff.mp ‹_›).2)
  · rcases Nat.lt_or_eq_of_le (remaining_dropReference_le w o) with less | same
    · exact Prod.Lex.left _ _ less
    · rw [same]
      exact Prod.Lex.right _ (Nat.lt_succ_self _)
  · exact Prod.Lex.right _ (Nat.lt_succ_self _)
  · exact Prod.Lex.left _ _ (remaining_demolish_lt (And.left ‹_›))
  · exact Prod.Lex.right _ (Nat.lt_succ_self _)

/-- Gives back one reference to each object of the list, in order, and lets go of it. -/
def release (w : World) (held : List ObjectId) : World := w.perform (Duty.givingBack held)

/-- Lets go of handles, in order. -/
def letGo (w : World) (handles : List Variant) : World := w.perform (Duty.lettingGo handles)

/-- Gives back one reference; the answer says whether that freed the object. -/
def unreference (w : World) (o : ObjectId) : World × Bool :=
  let cell := w.object o
  (w.perform [.giveBack o], cell.counted && decide (cell.refs ≤ 1))

/-- Frees an object whatever its count. A dead one is left as it is. -/
def free (w : World) (o : ObjectId) : World :=
  if (w.object o).alive then
    let (w, duties) := w.kill o
    w.perform duties
  else w

/-- Everything that is not held and of which something is left. -/
def unheld (w : World) : List Variant :=
  let handles := w.handles
  let things :=
    (List.range w.containers.size).map (fun slot => Variant.array ⟨slot⟩) ++
      (List.range w.objects.size).map fun slot => Variant.object ⟨slot⟩
  things.filter fun v => w.isIntact v && !handles.contains v

/-- Takes away everything that is not held, as if the last handle on it were let go of now. -/
def discardUnheld (w : World) : World := w.letGo w.unheld

end World

end ArrayBridge
