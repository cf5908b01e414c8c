import ArrayBridge.Proofs.Bridge.Contents
import ArrayBridge.Proofs.Bridge.Exchange
import ArrayBridge.Proofs.World.Deferral

/-!
# Rebuilding late, and in worlds that are alike

A bridge that is rebuilt moves to a new container and lets go of the former one with its list. That
is a change to one place of the bridges and to a new place of the containers (`Patch.refilling`),
which can wait for handles that are let go of before it (`World.admits_refilling`).

Worlds that differ in nothing but their journals are so after a bridge has looked after its
references (`World.Alike.retainBacking`).
-/

namespace ArrayBridge

namespace World

variable {T : ElementType} {w w' : World} {r : BridgeRef T} {b e : Bridge T}
  {values : List T.Carrier}

/-! ## Rebuilding -/

/-- The container of wrapped values. -/
def wrapped (T : ElementType) (values : List T.Carrier) : Container :=
  ⟨some T.tag, T.encodeAll values, UInt64.ofNat values.length, false⟩

/-- A bridge on a new container with the values, before the former one is let go of. -/
def refilled (w : World) (r : BridgeRef T) (b : Bridge T) (values : List T.Carrier) : World :=
  (w.addContainer (wrapped T values)).1.setBridge r (w.rebuilt b values)

theorem rebuild_eq (h : w.bridge? r = some b) (values : List T.Carrier) :
    w.rebuild r values =
      (w.refilled r b values).letGo (.array b.backing :: T.encodeAll b.values) := by
  have revision := congrArg Container.revision (container_addContainer_self w (wrapped T values))
  unfold rebuild refilled
  rw [h, wrapAll_eq]
  exact congrArg
    (fun n => letGo (setBridge _ r { b with values, revision := some n, backing := _ }) _) revision

theorem container_addContainer (w : World) (c : Container) (a : ArrayId) :
    (w.addContainer c).1.container a =
      if a = ⟨w.containers.size⟩ then c else w.container a := by
  split
  · rename_i new
    rw [new]
    exact container_addContainer_self w c
  · rename_i old
    by_cases inside : a.slot < w.containers.size
    · exact container_addContainer_of_lt inside
    · have beyond : ¬ a.slot < w.containers.size + 1 := fun last =>
        old (ArrayId.eq_of_slot (Nat.le_antisymm (Nat.le_of_lt_succ last) (Nat.not_lt.mp inside)))
      simp [container, addContainer, Array.getD, inside, beyond]

end World

/-- The change that rebuilding is. -/
def Patch.refilling {T : ElementType} (w : World) (r : BridgeRef T) (b : Bridge T)
    (values : List T.Carrier) (outside : List Variant) : Patch where
  container a := if a = ⟨w.containers.size⟩ then some (World.wrapped T values) else none
  entry slot := if slot = r.slot then some ⟨T, w.rebuilt b values⟩ else none
  outside
  added := 1

namespace World

variable {T : ElementType} {w w' : World} {r : BridgeRef T} {b e : Bridge T}
  {values : List T.Carrier}

/-- Another entry for a bridge, as one that takes the place of what stands there. -/
theorem anyBridge?_setBridge_or (h : w.bridge? r = some b) (b' : Bridge T) (slot : Nat) :
    (w.setBridge r b').anyBridge? slot =
      Option.or (if slot = r.slot then some ⟨T, b'⟩ else none) (w.anyBridge? slot) := by
  by_cases here : slot = r.slot
  · subst here
    simp [lt_of_bridge? h]
  · simp [here]

theorem patched_refilled (h : w.bridge? r = some b) (values : List T.Carrier)
    (outside : List Variant) :
    Patched (.refilling w r b values outside) w ({ w with outside }.refilled r b values) where
  objects := rfl
  containers := by simp [refilled, addContainer, setBridge, Patch.refilling]
  bridges := by simp [refilled, addContainer, setBridge]
  outside := rfl
  object _ := rfl
  container a := by
    have read := container_addContainer w (wrapped T values) a
    show (w.addContainer (wrapped T values)).1.container a =
      Option.getD (if a = ⟨w.containers.size⟩ then some (wrapped T values) else none)
        (w.container a)
    split
    · rename_i new
      rwa [if_pos new] at read
    · rename_i old
      rwa [if_neg old] at read
  entry slot := anyBridge?_setBridge_or
    ((bridge?_congr rfl : (w.addContainer (wrapped T values)).1.bridge? r = w.bridge? r).trans h) _
    slot

/-- Nothing but the size of one table makes a difference. -/
theorem refilling_congr (size : w'.containers.size = w.containers.size) (r : BridgeRef T)
    (b : Bridge T) (values : List T.Carrier) (outside : List Variant) :
    Patch.refilling w' r b values outside = Patch.refilling w r b values outside := by
  simp only [Patch.refilling, rebuilt, size]

/-- The handles of a bridge. -/
theorem mem_handles_bridge {u : Variant} : u ∈ AnyBridge.handles ⟨T, b⟩ ↔
    (∃ o ∈ b.retained, .object o = u) ∨ u ∈ T.encodeAll b.values ∨ u = .array b.backing := by
  simp [AnyBridge.handles]

theorem admits_refilling {x : World} {outside : List Variant} (h : w.bridge? r = some b)
    (g : w.Guarded r.slot) (covers : ∀ u ∈ w.outside, u ∈ outside ∨ u ∈ T.encodeAll values)
    (brought : ∀ u, u ∈ outside ∨ u ∈ T.encodeAll values ∨ u ∈ AnyBridge.handles ⟨T, b⟩ →
      u ∈ x.handles) :
    Admits (.refilling w r b values outside) w x (.array b.backing :: T.encodeAll b.values) := by
  let p := Patch.refilling w r b values outside
  have new : ∀ {a c}, p.container a = some c → a = ⟨w.containers.size⟩ ∧ wrapped T values = c :=
    Option.ite_some_none_eq_some.mp
  have changed : ∀ {slot b'}, p.entry slot = some b' →
      slot = r.slot ∧ (⟨T, w.rebuilt b values⟩ : AnyBridge) = b' := Option.ite_some_none_eq_some.mp
  have empty : (w.container ⟨w.containers.size⟩).dropped = true := by
    by_contra kept
    exact Nat.lt_irrefl _ (not_dropped_lt (Bool.not_eq_true _ ▸ kept))
  have filled : ∀ u ∈ AnyBridge.handles ⟨T, w.rebuilt b values⟩, p.Holds u := fun u mem =>
    .entry (if_pos rfl) mem
  have listed : ∀ u ∈ T.encodeAll values, p.Holds u := fun u mem =>
    filled u (mem_handles_bridge.mpr (.inr (.inl mem)))
  refine
    { spared := fun a c here intact => ?_
      held := fun a c here _ => ?_
      guarded := fun slot b' here => (changed here).1 ▸ g
      outside := fun u mem => (covers u mem).elim (fun out => .inl (.outside out)) fun mem =>
        .inl (listed u mem)
      items := fun a c here kept => ?_
      entries := fun slot b' b'' here there u mem => ?_
      brought := fun u among intact => ?_ }
  · obtain ⟨rfl, -⟩ := new here
    rw [isIntact, empty] at intact
    cases intact
  · obtain ⟨rfl, -⟩ := new here
    exact filled _ (mem_handles_bridge.mpr (.inr (.inr rfl)))
  · obtain ⟨rfl, -⟩ := new here
    rw [empty] at kept
    cases kept
  · obtain ⟨rfl, -⟩ := changed here
    rw [bridge?_eq_some_iff.mp h] at there
    obtain rfl := Option.some.inj there
    rcases mem_handles_bridge.mp mem with retained | mem | rfl
    · exact .inl (filled u (mem_handles_bridge.mpr (.inl retained)))
    · exact .inr (List.mem_cons_of_mem _ mem)
    · exact .inr List.mem_cons_self
  · apply brought
    rcases among with (out | ⟨here, _, mem⟩ | ⟨here, mem⟩) | late
    · exact .inl out
    · obtain ⟨-, rfl⟩ := new here
      exact .inr (.inl mem)
    · obtain ⟨-, rfl⟩ := changed here
      rcases mem_handles_bridge.mp mem with retained | mem | rfl
      · exact .inr (.inr (mem_handles_bridge.mpr (.inl retained)))
      · exact .inr (.inl mem)
      · have none : (w.container ⟨w.containers.size⟩).dropped = false := by
          simpa [isIntact, rebuilt] using intact
        rw [empty] at none
        cases none
    · rcases List.mem_cons.mp late with rfl | mem
      · exact .inr (.inr (mem_handles_bridge.mpr (.inr (.inr rfl))))
      · exact .inr (.inr (mem_handles_bridge.mpr (.inr (.inl mem))))

/-! ## Worlds that are alike -/

theorem referenceAll_journal (w : World) (journal : Array Notice) (objects : List ObjectId) :
    { w with journal }.referenceAll objects =
      ({ (w.referenceAll objects).1 with journal }, (w.referenceAll objects).2) := by
  induction objects generalizing w with
  | nil => rfl
  | cons o rest ih =>
    have first : { w with journal }.reference o =
        ({ (w.reference o).1 with journal }, (w.reference o).2) := by
      by_cases counted : (w.object o).counted = true
      · rw [reference, reference, if_pos counted]
        exact if_pos counted
      · rw [reference, reference, if_neg counted]
        exact if_neg counted
    rw [referenceAll, referenceAll, first]
    simp only [ih]

theorem Alike.retainBacking (h : w.Alike w') (r : BridgeRef T) :
    (w.retainBacking r).Alike (w'.retainBacking r) := by
  have same : w'.bridge? r = w.bridge? r := bridge?_congr (h.anyBridge? r.slot)
  cases here : w.bridge? r with
  | none => simpa [here, same] using h
  | some b =>
    have secured : (w.secured r b).Alike (w'.secured r b) := by
      obtain ⟨journal, rfl⟩ := h.exists_journal
      have taken := referenceAll_journal w journal (directObjects (w.container b.backing).items)
      have eq : { w with journal }.secured r b = { w.secured r b with journal } :=
        congrArg (fun t : World × List ObjectId => t.1.setBridge r { b with retained := t.2 }) taken
      rw [eq]
      exact ⟨rfl, rfl, rfl, rfl⟩
    obtain ⟨x, objects, containers, bridges, outside, eq⟩ := retainBacking_eq here
    obtain ⟨y, objects', containers', bridges', outside', eq'⟩ := retainBacking_eq (same.trans here)
    have alike : x.Alike y :=
      { objects := by rw [objects', objects, secured.objects]
        containers := by rw [containers', containers, secured.containers]
        bridges := by rw [bridges', bridges, secured.bridges]
        outside := by rw [outside', outside, secured.outside] }
    rw [eq, eq']
    exact alike.perform (fun _ => rfl) (fun _ => .inl) fun _ => .inl

end World

end ArrayBridge
