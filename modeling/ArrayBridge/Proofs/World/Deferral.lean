import ArrayBridge.Proofs.World.Confluence
import ArrayBridge.Proofs.World.Sound

/-!
# Letting go later

Between two changes to a world handles are let go of, and what comes of that happens at once. This
module says that it could wait (`World.deferred`): the same changes, with all handles let go of only
after the last of them, lead to the same end.

**Changes.** A `Patch` says what stands where after a change: in some places of containers and
bridges, and outside. Put on the world before a cascade and on the one after it, it is the same
change at two moments (`World.Patched`).

**The argument.** The cascade is followed in the patched world, step by step. The two decide alike
whether a thing goes, since the change takes no handle away that is not to be let go of afterwards,
and brings none but on what is held at the end (`World.Admits`). What the change is about is not
among what goes.
-/

namespace ArrayBridge

/-- **A change to a world**: other contents of some containers, other entries for some bridges, as
many new containers as are added, and the handles outside. -/
structure Patch where
  container : ArrayId → Option Container
  entry : Nat → Option AnyBridge
  outside : List Variant
  added : Nat

/-- A change to nothing but what is kept outside. -/
def Patch.keeping (outside : List Variant) : Patch := ⟨fun _ => none, fun _ => none, outside, 0⟩

/-- A change to one container, and to what is kept outside. -/
def Patch.putting (a : ArrayId) (c : Container) (outside : List Variant) : Patch :=
  { keeping outside with container := fun d => if d = a then some c else none }

/-- The handles that the change puts somewhere. -/
inductive Patch.Holds (p : Patch) (u : Variant) : Prop where
  | outside (mem : u ∈ p.outside)
  | item {a : ArrayId} {c : Container} (new : p.container a = some c) (kept : c.dropped = false)
    (mem : u ∈ c.items)
  | entry {slot : Nat} {b : AnyBridge} (new : p.entry slot = some b) (mem : u ∈ b.handles)

theorem Patch.holds_keeping {outside : List Variant} {u : Variant} :
    (keeping outside).Holds u ↔ u ∈ outside := by
  constructor
  · intro held
    cases held with
    | outside mem => exact mem
    | item new => cases new
    | entry new => cases new
  · exact fun mem => .outside mem

namespace World

variable {p : Patch} {w w' x y Y : World} {u v : Variant} {o : ObjectId} {pending : List Duty}
  {handles : List Variant}

/-- **The second world is the first with the change**, whatever stands in the journals. -/
structure Patched (p : Patch) (y Y : World) : Prop where
  objects : Y.objects.size = y.objects.size
  containers : Y.containers.size = y.containers.size + p.added
  bridges : Y.bridges.size = y.bridges.size
  outside : Y.outside = p.outside
  object : ∀ o, Y.object o = y.object o
  container : ∀ a, Y.container a = (p.container a).getD (y.container a)
  entry : ∀ slot, Y.anyBridge? slot = (p.entry slot).or (y.anyBridge? slot)

/-- **The change can wait** for the cascade from the first world to the second, with the handles to
be let go of afterwards. -/
structure Admits (p : Patch) (y x : World) (handles : List Variant) : Prop where
  /-- A container that is changed, and there, is kept from outside. -/
  spared : ∀ a c, p.container a = some c → y.isIntact (.array a) = true → .array a ∈ y.outside
  held : ∀ a c, p.container a = some c → c.dropped = false → p.Holds (.array a)
  guarded : ∀ slot b, p.entry slot = some b → y.Guarded slot
  /-- What was held where something else stands now is held there, or is to be let go of. -/
  outside : ∀ u ∈ y.outside, p.Holds u ∨ u ∈ handles
  items : ∀ a c, p.container a = some c → (y.container a).dropped = false →
    ∀ u ∈ (y.container a).items, p.Holds u ∨ u ∈ handles
  entries : ∀ slot b b', p.entry slot = some b → y.anyBridge? slot = some b' →
    ∀ u ∈ b'.handles, p.Holds u ∨ u ∈ handles
  /-- What is brought is held in the end. -/
  brought : ∀ u, p.Holds u ∨ u ∈ handles → y.isIntact u = true → u ∈ x.handles

theorem patched_keeping (w : World) (outside : List Variant) :
    Patched (.keeping outside) w { w with outside } :=
  ⟨rfl, rfl, rfl, rfl, fun _ => rfl, fun _ => rfl, fun _ => rfl⟩

theorem patched_putting {a : ArrayId} (place : a.slot < w.containers.size) (c : Container)
    (outside : List Variant) :
    Patched (.putting a c outside) w { w.updateContainer a fun _ => c with outside } where
  objects := rfl
  containers := by simp [updateContainer, Patch.putting, Patch.keeping]
  bridges := rfl
  outside := rfl
  object _ := rfl
  container d := by
    show (w.updateContainer a fun _ => c).container d =
      (if d = a then some c else none).getD (w.container d)
    split
    · rename_i here
      simp [here, place]
    · rename_i apart
      simp [apart]
  entry _ := rfl

theorem Admits.keeping {outside : List Variant}
    (covers : ∀ u ∈ y.outside, u ∈ outside ∨ u ∈ handles)
    (brought : ∀ u, u ∈ outside ∨ u ∈ handles → y.isIntact u = true → u ∈ x.handles) :
    Admits (.keeping outside) y x handles where
  spared a c new := by cases new
  held a c new := by cases new
  guarded slot b new := by cases new
  outside u mem := (covers u mem).imp_left Patch.holds_keeping.mpr
  items a c new := by cases new
  entries slot b b' new := by cases new
  brought u among := brought u (among.imp_left Patch.holds_keeping.mp)

theorem Admits.putting {a : ArrayId} {c : Container} {outside : List Variant}
    (reached : .array a ∈ y.outside) (covers : ∀ u ∈ y.outside, u ∈ outside)
    (there : c.dropped = false)
    (items : ∀ u ∈ (y.container a).items, u ∈ c.items ∨ u ∈ outside ∨ u ∈ handles)
    (brought : ∀ u, u ∈ c.items ∨ u ∈ outside ∨ u ∈ handles → y.isIntact u = true →
      u ∈ x.handles) : Admits (.putting a c outside) y x handles := by
  have held : ∀ {u}, u ∈ c.items → (Patch.putting a c outside).Holds u := fun mem =>
    .item (if_pos rfl) there mem
  have at' : ∀ {d e}, (Patch.putting a c outside).container d = some e → d = a ∧ e = c := by
    intro d e new
    obtain ⟨here, same⟩ := Option.ite_some_none_eq_some.mp new
    exact ⟨here, same.symm⟩
  refine
    { spared := fun d e new _ => ?_
      held := fun d e new _ => ?_
      guarded := fun slot b new => by cases new
      outside := fun u mem => .inl (.outside (covers u mem))
      items := fun d e new _ u mem => ?_
      entries := fun slot b b' new => by cases new
      brought := fun u among => brought u ?_ }
  · obtain ⟨rfl, -⟩ := at' new
    exact reached
  · obtain ⟨rfl, -⟩ := at' new
    exact .outside (covers _ reached)
  · obtain ⟨rfl, -⟩ := at' new
    rcases items u mem with still | out | late
    · exact .inl (held still)
    · exact .inl (.outside out)
    · exact .inr late
  · rcases among with (mem | ⟨new, _, mem⟩ | ⟨new, _⟩) | late
    · exact .inr (.inl mem)
    · obtain ⟨-, rfl⟩ := at' new
      exact .inl mem
    · cases new
    · exact .inr (.inr late)

/-- Losses leave it so. -/
theorem Admits.decline (h : Admits p y x handles) (d : y.Declines w) : Admits p w x handles where
  spared a c new intact := by
    rw [d.outside]
    exact h.spared a c new (d.intact intact)
  held := h.held
  guarded slot b new := (h.guarded slot b new).wane d.toWanes
  outside := d.outside ▸ h.outside
  items a c new kept u mem := by
    rw [(d.container a).2.1] at mem
    refine h.items a c new ?_ u mem
    by_contra dropped
    rw [d.dropped a (by simpa using dropped)] at kept
    cases kept
  entries slot b b' new here := by
    rcases d.entry slot with none | same
    · rw [none] at here
      cases here
    · rw [same] at here
      exact h.entries slot b b' new here
  brought u among intact := h.brought u among (d.intact intact)

namespace Patched

/-! ## Handles -/

theorem mem_of_holds (h : Patched p y Y) (held : p.Holds u) : u ∈ Y.handles := by
  rw [mem_handles_iff]
  cases held with
  | outside mem => exact .inl (h.outside ▸ mem)
  | @item a c new kept mem =>
    have here : Y.container a = c := by rw [h.container, new, Option.getD_some]
    exact .inr (.inl ⟨a, here ▸ kept, here ▸ mem⟩)
  | @entry slot b new mem =>
    have here : Y.anyBridge? slot = some b := by rw [h.entry, new, Option.some_or]
    exact .inr (.inr ⟨slot, b, here, mem⟩)

/-- What is held in the changed world was held before, or is put there by the change. -/
theorem holds_or_mem (h : Patched p y Y) (held : u ∈ Y.handles) : p.Holds u ∨ u ∈ y.handles := by
  rw [mem_handles_iff] at held ⊢
  rcases held with outside | ⟨a, kept, mem⟩ | ⟨slot, b, here, mem⟩
  · exact .inl (.outside (h.outside ▸ outside))
  · cases new : p.container a with
    | none =>
      have same : Y.container a = y.container a := by rw [h.container, new, Option.getD_none]
      exact .inr (.inr (.inl ⟨a, same ▸ kept, same ▸ mem⟩))
    | some c =>
      have same : Y.container a = c := by rw [h.container, new, Option.getD_some]
      exact .inl (.item new (same ▸ kept) (same ▸ mem))
  · cases new : p.entry slot with
    | none =>
      have same : Y.anyBridge? slot = y.anyBridge? slot := by rw [h.entry, new, Option.none_or]
      exact .inr (.inr (.inr ⟨slot, b, same ▸ here, mem⟩))
    | some c =>
      rw [h.entry, new, Option.some_or] at here
      obtain rfl := Option.some.inj here
      exact .inl (.entry new mem)

/-- What was held is held in the changed world, or is to be let go of. -/
theorem mem_or_mem (h : Patched p y Y) (fits : Admits p y x handles) (held : u ∈ y.handles) :
    u ∈ Y.handles ∨ u ∈ handles := by
  rw [mem_handles_iff] at held
  rcases held with outside | ⟨a, kept, mem⟩ | ⟨slot, b, here, mem⟩
  · exact (fits.outside u outside).imp_left h.mem_of_holds
  · cases new : p.container a with
    | none =>
      have same : Y.container a = y.container a := by rw [h.container, new, Option.getD_none]
      exact .inl (mem_handles_iff.mpr (.inr (.inl ⟨a, same ▸ kept, same ▸ mem⟩)))
    | some c => exact (fits.items a c new kept u mem).imp_left h.mem_of_holds
  · cases new : p.entry slot with
    | none =>
      have same : Y.anyBridge? slot = y.anyBridge? slot := by rw [h.entry, new, Option.none_or]
      exact .inl (mem_handles_iff.mpr (.inr (.inr ⟨slot, b, same ▸ here, mem⟩)))
    | some c => exact (fits.entries slot c b new here u mem).imp_left h.mem_of_holds

/-- What is there and is not about the change is there afterwards, and the other way round. -/
theorem isIntact_eq (h : Patched p y Y) (other : ∀ a, u = .array a → p.container a = none) :
    Y.isIntact u = y.isIntact u := by
  cases u with
  | object o => rw [isIntact, isIntact, h.object]
  | array a => rw [isIntact, isIntact, h.container, other a rfl, Option.getD_none]
  | _ => rfl

/-- **The same things go.** -/
theorem goes_iff (h : Patched p y Y) (fits : Admits p y x handles) (d : y.Declines x) :
    (Y.isIntact u = true ∧ Y.isHeld (pending ++ Duty.lettingGo handles) u = false) ↔
      (y.isIntact u = true ∧ y.isHeld pending u = false) := by
  have heldOf : y.isHeld pending u = true →
      Y.isHeld (pending ++ Duty.lettingGo handles) u = true := by
    simp only [isHeld_iff, List.mem_append, Duty.letGo_mem_lettingGo]
    rintro (held | due)
    · exact (h.mem_or_mem fits held).imp_right .inr
    · exact .inr (.inl due)
  have heldIf : y.isIntact u = true → Y.isHeld (pending ++ Duty.lettingGo handles) u = true →
      y.isHeld pending u = true := by
    simp only [isHeld_iff, List.mem_append, Duty.letGo_mem_lettingGo]
    intro intact
    have brought := fun among => d.handles (fits.brought u among intact)
    rintro (held | due | later)
    · exact (h.holds_or_mem held).elim (fun new => .inl (brought (.inl new))) .inl
    · exact .inr due
    · exact .inl (brought (.inr later))
  constructor
  · rintro ⟨intact, unheld⟩
    have other : ∀ a, u = .array a → p.container a = none := by
      rintro a rfl
      by_contra changed
      obtain ⟨c, new⟩ := Option.ne_none_iff_exists'.mp changed
      have kept : c.dropped = false := by
        simpa [isIntact, h.container, new] using intact
      have held := h.mem_of_holds (fits.held a c new kept)
      rw [isHeld_iff.mpr (.inl held)] at unheld
      cases unheld
    rw [h.isIntact_eq other] at intact
    refine ⟨intact, ?_⟩
    by_contra held
    rw [heldOf (by simpa using held)] at unheld
    cases unheld
  · rintro ⟨intact, unheld⟩
    have other : ∀ a, u = .array a → p.container a = none := by
      rintro a rfl
      by_contra changed
      obtain ⟨c, new⟩ := Option.ne_none_iff_exists'.mp changed
      exact not_mem_outside_of_isHeld unheld (fits.spared a c new intact)
    refine ⟨(h.isIntact_eq other).trans intact, ?_⟩
    by_contra held
    rw [heldIf intact (by simpa using held)] at unheld
    cases unheld

/-! ## Steps -/

theorem note (h : Patched p y Y) (n m : Notice) : Patched p (y.note n) (Y.note m) :=
  ⟨h.objects, h.containers, h.bridges, h.outside, h.object, h.container, h.entry⟩

theorem updateObject (h : Patched p y Y) (o : ObjectId) {f : ObjectCell → ObjectCell}
    (keeps : f default = default) : Patched p (y.updateObject o f) (Y.updateObject o f) where
  objects := by simpa [World.updateObject] using h.objects
  containers := h.containers
  bridges := h.bridges
  outside := h.outside
  object q := by rw [object_updateObject keeps, object_updateObject keeps, h.object]
  container := h.container
  entry := h.entry

/-- A container that the change is not about is changed in both. -/
theorem updateContainer (h : Patched p y Y) {a : ArrayId} (place : a.slot < y.containers.size)
    (other : p.container a = none) (f : Container → Container) :
    Patched p (y.updateContainer a f) (Y.updateContainer a f) where
  objects := h.objects
  containers := by simpa [World.updateContainer] using h.containers
  bridges := h.bridges
  outside := h.outside
  object := h.object
  container b := by
    by_cases here : b = a
    · subst here
      have same : Y.container b = y.container b := by rw [h.container, other, Option.getD_none]
      have place' : b.slot < Y.containers.size := by
        rw [h.containers]
        omega
      simp [place, place', other, same]
    · simp [here, h.container]
  entry := h.entry

/-- A bridge that is not changed is closed in both. -/
theorem closeBridge (h : Patched p y Y) {slot : Nat} (other : p.entry slot = none) :
    Patched p (y.closeBridge slot).1 (Y.closeBridge slot).1 ∧
      (Y.closeBridge slot).2 = (y.closeBridge slot).2 := by
  have same : Y.bridges.getD slot none = y.bridges.getD slot none := by
    have entry := h.entry slot
    rwa [other, Option.none_or] at entry
  constructor
  · exact
      { objects := by simp [h.objects]
        containers := by simp [h.containers]
        bridges := by simp [h.bridges]
        outside := by simp [h.outside]
        object := fun q => by simp [h.object q]
        container := fun a => by simp [h.container a]
        entry := fun s => by
          rw [anyBridge?_closeBridge, anyBridge?_closeBridge]
          split
          · rename_i here
            rw [here, other, Option.none_or]
          · exact h.entry s }
  · rw [World.closeBridge, World.closeBridge, same]
    cases y.bridges.getD slot none <;> rfl

theorem closeFields (h : Patched p y Y) {fields : List Field}
    (other : ∀ f ∈ fields, p.entry f.target.ref.slot = none) :
    Patched p (y.closeFields fields).1 (Y.closeFields fields).1 ∧
      (Y.closeFields fields).2 = (y.closeFields fields).2 := by
  induction fields generalizing y Y with
  | nil => exact ⟨h, rfl⟩
  | cons field rest ih =>
    obtain ⟨first, duties⟩ := h.closeBridge (other field List.mem_cons_self)
    obtain ⟨second, more⟩ := ih first fun f mem => other f (List.mem_cons_of_mem _ mem)
    exact ⟨second, congrArg₂ (· ++ ·) duties more⟩

theorem dropPayload (h : Patched p y Y)
    (other : ∀ q, (y.object o).payload = some q → ∀ f ∈ q.fields,
      p.entry f.target.ref.slot = none) :
    Patched p (y.dropPayload o).1 (Y.dropPayload o).1 ∧
      (Y.dropPayload o).2 = (y.dropPayload o).2 := by
  unfold World.dropPayload
  rw [h.object]
  cases payload : (y.object o).payload with
  | none => exact ⟨h, rfl⟩
  | some q => exact (h.updateObject o rfl).closeFields (other q payload)

/-- A bridge that is changed is in no payload that goes, since such a payload is lent out. -/
theorem entry_of_idle (fits : Admits p y x handles) {q : Payload}
    (payload : (y.object o).payload = some q)
    (goes : (y.object o).borrow = .idle ∨ .object o ∉ y.outside) :
    ∀ f ∈ q.fields, p.entry f.target.ref.slot = none := by
  intro f mem
  by_contra changed
  obtain ⟨b, new⟩ := Option.ne_none_iff_exists'.mp changed
  have fields : y.fields? o = some q.fields := by rw [fields?, payload, Option.map_some]
  obtain ⟨lent, held⟩ := fits.guarded _ b new o q.fields fields ⟨f, mem, rfl⟩
  rcases goes with idle | unheld
  · exact lent idle
  · exact unheld held

theorem kill (h : Patched p y Y) (fits : Admits p y x handles) (o : ObjectId) :
    Patched p (y.kill o).1 (Y.kill o).1 ∧ (Y.kill o).2 = (y.kill o).2 := by
  have marked : Patched p (y.marked o) (Y.marked o) := (h.updateObject o rfl).note _ _
  have read : (y.marked o).object o = (y.object o).killed := by rw [object_marked, if_pos rfl]
  rw [kill_eq, kill_eq, h.object]
  split
  · rename_i idle
    refine marked.dropPayload fun q payload => ?_
    rw [read] at payload
    exact entry_of_idle fits payload (.inl idle)
  · exact ⟨marked, rfl⟩

theorem demolish (h : Patched p y Y) (fits : Admits p y x handles)
    (goes : y.isIntact v = true ∧ y.isHeld pending v = false) :
    Patched p (y.demolish v).1 (Y.demolish v).1 ∧ (Y.demolish v).2 = (y.demolish v).2 := by
  have unheld := not_mem_outside_of_isHeld goes.2
  cases v with
  | object o =>
    exact h.dropPayload fun q payload => entry_of_idle fits payload (.inr unheld)
  | array a =>
    have other : p.container a = none := by
      by_contra changed
      obtain ⟨c, new⟩ := Option.ne_none_iff_exists'.mp changed
      exact unheld (fits.spared a c new goes.1)
    have same : Y.container a = y.container a := by
      rw [h.container, other, Option.getD_none]
    have place : a.slot < y.containers.size := not_dropped_lt (by simpa [isIntact] using goes.1)
    exact ⟨h.updateContainer place other _,
      congrArg (fun c : Container => Duty.lettingGo c.items) same⟩
  | _ => exact ⟨h, rfl⟩

/-! ## The whole way -/

/-- **A cascade in the changed world** comes to the changed end of the cascade, with what the change
lets go of still to be done. -/
theorem cascade {released freed : List ObjectId} (c : Cascade y pending released freed x)
    (h : Patched p y Y) (fits : Admits p y x handles) :
    ∃ Z, Patched p x Z ∧ Y.perform (pending ++ Duty.lettingGo handles) =
      Z.perform (Duty.lettingGo handles) := by
  induction c generalizing Y with
  | done y => exact ⟨Y, h, rfl⟩
  | @frees y x o rest _ _ counted last next ih =>
    obtain ⟨patched, duties⟩ := h.kill fits o
    obtain ⟨Z, there, same⟩ :=
      ih patched (fits.decline (declines_kill (Bool.and_eq_true_iff.mp counted).2))
    rw [← duties, List.append_assoc] at same
    refine ⟨Z, there, ?_⟩
    rw [List.cons_append, perform, h.object, dif_pos counted, if_pos last, ← same]
  | @counts y x o rest _ _ counted more next ih =>
    obtain ⟨Z, there, same⟩ :=
      ih (h.updateObject o rfl) (fits.decline (declines_dropReference y o))
    refine ⟨Z, there, ?_⟩
    rw [List.cons_append, perform, h.object, dif_pos counted, if_neg more, same]
  | @ignores y x o rest _ _ uncounted next ih =>
    obtain ⟨Z, there, same⟩ := ih h fits
    refine ⟨Z, there, ?_⟩
    rw [List.cons_append, perform, h.object, dif_neg uncounted, same]
  | @demolishes y x v rest _ _ goes next ih =>
    have loss := declines_demolish (not_mem_outside_of_isHeld goes.2)
    obtain ⟨patched, duties⟩ := h.demolish fits goes
    obtain ⟨Z, there, same⟩ := ih patched (fits.decline loss)
    rw [← duties, List.append_assoc] at same
    refine ⟨Z, there, ?_⟩
    rw [List.cons_append, perform, dif_pos ((h.goes_iff fits (loss.trans next.declines)).mpr goes),
      ← same]
  | @spares y x v rest _ _ stays next ih =>
    obtain ⟨Z, there, same⟩ := ih h fits
    refine ⟨Z, there, ?_⟩
    rw [List.cons_append, perform,
      dif_neg (mt (h.goes_iff fits next.declines).mp stays), same]

/-- One change to worlds that are alike leads to worlds that are. -/
theorem alike {Y' : World} (same : y.Alike w) (h : Patched p y Y) (h' : Patched p w Y') :
    Y.Alike Y' := by
  refine .of_places ?_ ?_ ?_ ?_ (fun o => ?_) (fun a => ?_) fun slot => ?_
  · rw [h'.objects, h.objects, same.objects]
  · rw [h'.containers, h.containers, same.containers]
  · rw [h'.bridges, h.bridges, same.bridges]
  · rw [h'.outside, h.outside]
  · rw [h'.object, h.object, same.object]
  · rw [h'.container, h.container, same.container]
  · rw [h'.entry, h.entry, same.anyBridge?]

end Patched

/-- **What was let go of before a change could have been let go of afterwards.** -/
theorem deferred {early : List Variant} (same : (y.letGo early).Alike w) (h : Patched p y Y)
    (h' : Patched p w w') (fits : Admits p y w handles) :
    (Y.letGo (early ++ handles)).Alike (w'.letGo handles) := by
  obtain ⟨_, _, c⟩ := exists_cascade y (Duty.lettingGo early)
  have fits' : Admits p y (y.letGo early) handles :=
    { fits with brought := fun u among intact => same.handles ▸ fits.brought u among intact }
  obtain ⟨Z, there, ends⟩ := h.cascade c fits'
  have split : Duty.lettingGo (early ++ handles) = Duty.lettingGo early ++ Duty.lettingGo handles :=
    List.map_append
  rw [letGo, split, ends]
  exact (there.alike same h').perform (fun _ => rfl) (fun _ => .inl) fun _ => .inl

end World

end ArrayBridge
