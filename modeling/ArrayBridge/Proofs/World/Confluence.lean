import ArrayBridge.Proofs.World.Holding
import ArrayBridge.Proofs.World.Order

/-!
# The order of letting go

Two worlds that differ in nothing but their journals (`World.Alike`), and two lists of duties that
give back the same references and let go of the same handles, in any order and any number, where
handles on what is held anyway do not count: the two cascades end alike (`Alike.perform`).

The argument is that of `Toward`, with handles in it (`Nearing`). Seen from the end of the one way,
a handle that is to be let go of on the other leads to something of which nothing is left there, or
which is held there. And what is held there is held on the way, since no holder is lost on the way
that is not lost there. So what is demolished on the way is gone at that end.
-/

namespace ArrayBridge

theorem ObjectCell.eq_of_fields {c d : ObjectCell} (id : d.id = c.id) (cls : d.cls = c.cls)
    (refs : d.refs = c.refs) (alive : d.alive = c.alive) (payload : d.payload = c.payload)
    (borrow : d.borrow = c.borrow) : d = c := by
  obtain ⟨⟩ := c
  obtain ⟨⟩ := d
  subst id cls refs alive payload borrow
  rfl

theorem Container.eq_of_fields {c d : Container} (tag : d.tag = c.tag) (items : d.items = c.items)
    (revision : d.revision = c.revision) (dropped : d.dropped = c.dropped) : d = c := by
  obtain ⟨⟩ := c
  obtain ⟨⟩ := d
  subst tag items revision dropped
  rfl

namespace World

variable {w w' v v' x x' : World} {u : Variant} {o : ObjectId} {pending rest : List Duty}

/-- **The same but for the journal.** -/
structure Alike (w v : World) : Prop where
  objects : v.objects = w.objects
  containers : v.containers = w.containers
  bridges : v.bridges = w.bridges
  outside : v.outside = w.outside

namespace Alike

theorem refl (w : World) : w.Alike w := ⟨rfl, rfl, rfl, rfl⟩

theorem symm (h : w.Alike v) : v.Alike w :=
  ⟨h.objects.symm, h.containers.symm, h.bridges.symm, h.outside.symm⟩

theorem trans (h : w.Alike v) (h' : v.Alike x) : w.Alike x :=
  ⟨h'.objects.trans h.objects, h'.containers.trans h.containers, h'.bridges.trans h.bridges,
    h'.outside.trans h.outside⟩

theorem note (w : World) (n : Notice) : w.Alike (w.note n) := ⟨rfl, rfl, rfl, rfl⟩

/-- Worlds that are alike are one world with two journals. -/
theorem exists_journal (h : w.Alike v) : ∃ journal, v = { w with journal } := by
  obtain ⟨objects, containers, bridges, journal, outside⟩ := v
  obtain ⟨rfl, rfl, rfl, rfl⟩ := h
  exact ⟨journal, rfl⟩

theorem reordered (h : w.Alike v) : w.Reordered v := by
  obtain ⟨journal, rfl⟩ := h.exists_journal
  exact ⟨rfl, rfl, fun _ => rfl, fun _ => rfl, fun _ => rfl, fun _ => rfl, fun _ => .rfl,
    fun _ => .refl _, fun _ => .rfl, fun _ => .refl _⟩

theorem handles (h : w.Alike v) : v.handles = w.handles := by
  obtain ⟨journal, rfl⟩ := h.exists_journal
  rfl

theorem isIntact (h : w.Alike v) (u : Variant) : v.isIntact u = w.isIntact u := by
  obtain ⟨journal, rfl⟩ := h.exists_journal
  cases u <;> rfl

theorem container (h : w.Alike v) (a : ArrayId) : v.container a = w.container a := by
  rw [World.container, h.containers]
  rfl

theorem anyBridge? (h : w.Alike v) (slot : Nat) : v.anyBridge? slot = w.anyBridge? slot := by
  rw [World.anyBridge?, h.bridges]
  rfl

theorem object (h : w.Alike v) (o : ObjectId) : v.object o = w.object o := by
  rw [World.object, h.objects]
  rfl

/-- Tables are the same if they are so place by place. -/
theorem of_places (objects : v.objects.size = w.objects.size)
    (containers : v.containers.size = w.containers.size)
    (bridges : v.bridges.size = w.bridges.size) (outside : v.outside = w.outside)
    (object : ∀ o, v.object o = w.object o) (container : ∀ a, v.container a = w.container a)
    (entry : ∀ slot, v.anyBridge? slot = w.anyBridge? slot) : w.Alike v := by
  refine ⟨Array.ext objects fun i here there => ?_, Array.ext containers fun i here there => ?_,
    Array.ext bridges fun i here there => ?_, outside⟩
  · simpa [World.object, Array.getD, here, there] using object ⟨i⟩
  · simpa [World.container, Array.getD, here, there] using container ⟨i⟩
  · simpa [World.anyBridge?, Array.getD, here, there] using entry i

end Alike

/-! ## On the way -/

/-- A world on the way from `v`, as seen from the world `w'` in which another way has ended, where
it is also known which handles are left. -/
structure Nearing (w' v x : World) (pending : List Duty) : Prop extends Toward w' v x pending where
  declines : v.Declines x
  dropped : ∀ a, (x.container a).dropped = true → (w'.container a).dropped = true
  /-- What is to be let go of is held there, or nothing of it is left there. -/
  due : ∀ u, .letGo u ∈ pending → w'.isIntact u = true → u ∈ w'.handles

namespace Nearing

/-- The first of the duties lets go of nothing, and what comes of it is the second list. -/
theorem due_of_cons {duty : Duty} {more : List Duty} (t : Nearing w' v x (duty :: rest))
    (held : ∀ u ∈ v.handles, w'.isIntact u = true → u ∈ w'.handles)
    (came : ∀ u, .letGo u ∈ more → u ∈ x.handles) :
    ∀ u, .letGo u ∈ more ++ rest → w'.isIntact u = true → u ∈ w'.handles := by
  intro u among intact
  rcases List.mem_append.mp among with new | old
  · exact held u (t.declines.handles (came u new)) intact
  · exact t.due u (List.mem_cons_of_mem _ old) intact

section Ways

variable {duties : List Duty} {released freed : List ObjectId}
  (c : Cascade w duties released freed w') (alike : w.Alike v)

include c alike

/-- At the start everything that is held settles there. -/
theorem held_settles (u : Variant) (held : u ∈ v.handles) (intact : w'.isIntact u = true) :
    u ∈ w'.handles :=
  c.settled (fun _ => .inl (alike.handles ▸ held)) intact

theorem start (given : ∀ o, pending.count (.giveBack o) = duties.count (.giveBack o))
    (lets : ∀ u, .letGo u ∈ pending → .letGo u ∈ duties ∨ u ∈ w.handles) :
    Nearing w' v v pending where
  toToward := toward_start c alike.reordered given
  declines := .refl v
  dropped a dropped := c.declines.dropped a (alike.container a ▸ dropped)
  due u among intact := c.settled (fun _ => (lets u among).symm) intact

/-- What is held there is held on the way. -/
theorem handles (t : Nearing w' v x pending) (held : u ∈ w'.handles) : u ∈ x.handles := by
  rw [mem_handles_iff] at held ⊢
  rcases held with outside | ⟨a, kept, mem⟩ | ⟨slot, b, here, mem⟩
  · exact .inl (by rwa [t.wanes.outside, alike.outside, ← c.wanes.outside])
  · refine .inr (.inl ⟨a, ?_, ?_⟩)
    · by_contra dropped
      rw [t.dropped a (by simpa using dropped)] at kept
      cases kept
    · rwa [(t.wanes.container a).2.1, alike.container, ← (c.wanes.container a).2.1]
  · refine .inr (.inr ⟨slot, b, ?_, mem⟩)
    rcases c.wanes.entry slot with none | same
    · rw [none] at here
      cases here
    rcases t.wanes.entry slot with lost | same'
    · rw [t.closed slot lost] at here
      cases here
    · rw [same', alike.anyBridge?, ← same, here]

/-- What is not held on the way and is to be let go of is gone there. -/
theorem gone (t : Nearing w' v x (.letGo u :: rest))
    (goes : x.isIntact u = true ∧ x.isHeld rest u = false) : w'.isIntact u = false := by
  by_contra intact
  have held := t.handles c alike (t.due u List.mem_cons_self (by simpa using intact))
  rw [isHeld_iff.mpr (.inl held)] at goes
  cases goes.2

theorem kill (t : Nearing w' v x (.giveBack o :: rest))
    (counted : (x.object o).counted = true) (last : (x.object o).refs ≤ 1) :
    Nearing w' v (x.kill o).1 ((x.kill o).2 ++ rest) where
  toToward := t.toToward.kill c alike.reordered counted last
  declines := t.declines.trans (declines_kill (Bool.and_eq_true_iff.mp counted).2)
  dropped a dropped := t.dropped a (by simpa using dropped)
  due := t.due_of_cons (held_settles c alike) fun u => (accounts_kill x o u).2

theorem demolish (t : Nearing w' v x (.letGo u :: rest))
    (goes : x.isIntact u = true ∧ x.isHeld rest u = false) :
    Nearing w' v (x.demolish u).1 ((x.demolish u).2 ++ rest) where
  toToward := t.toToward.demolish c alike.reordered goes fun p here => by
    have gone := t.gone c alike goes
    rw [here] at gone
    simpa [isIntact] using gone
  declines := t.declines.trans (declines_demolish (not_mem_outside_of_isHeld goes.2))
  dropped a dropped := by
    cases u with
    | array b =>
      rw [World.demolish, dropped_drop, Bool.or_eq_true, decide_eq_true_eq] at dropped
      rcases dropped with rfl | before
      · simpa [isIntact] using t.gone c alike goes
      · exact t.dropped a before
    | object p =>
      exact t.dropped a (by simpa [World.demolish] using dropped)
    | _ => exact t.dropped a dropped
  due := t.due_of_cons (held_settles c alike) fun v => (accounts_demolish goes.1 v).2

/-- **The whole way.** -/
theorem cascade {given gone : List ObjectId} (way : Cascade x pending given gone x')
    (t : Nearing w' v x pending) : Nearing w' v x' [] := by
  induction way with
  | done x => exact t
  | frees counted last _ ih => exact ih (t.kill c alike counted last)
  | @counts x x' o rest _ _ _ more _ ih =>
    refine ih
      { toToward := t.toToward.dropReference more
        declines := t.declines.trans (declines_dropReference x o)
        dropped := t.dropped
        due := fun u among => t.due u (List.mem_cons_of_mem _ among) }
  | @ignores x x' o rest _ _ uncounted _ ih =>
    refine ih
      { toToward := t.toToward.skip fun p survives => ?_
        declines := t.declines
        dropped := t.dropped
        due := fun u among => t.due u (List.mem_cons_of_mem _ among) }
    have other : p ≠ o := by
      rintro rfl
      exact uncounted (t.toToward.counted c alike.reordered survives)
    rw [owed_cons, if_neg other, Nat.add_zero]
  | demolishes goes _ ih => exact ih (t.demolish c alike goes)
  | spares _ _ ih =>
    exact ih
      { toToward := t.toToward.skip fun p _ => owed_cons_letGo ..
        declines := t.declines
        dropped := t.dropped
        due := fun u among => t.due u (List.mem_cons_of_mem _ among) }

end Ways

end Nearing

/-! ## The two ends -/

/-- **The order of duties makes no difference**, nor does it make one whether what is held is let go
of. -/
theorem Alike.perform (alike : w.Alike v) {duties duties' : List Duty}
    (given : ∀ o, duties'.count (.giveBack o) = duties.count (.giveBack o))
    (lets : ∀ u, .letGo u ∈ duties' → .letGo u ∈ duties ∨ u ∈ w.handles)
    (lets' : ∀ u, .letGo u ∈ duties → .letGo u ∈ duties' ∨ u ∈ w.handles) :
    (w.perform duties).Alike (v.perform duties') := by
  obtain ⟨_, _, c⟩ := exists_cascade w duties
  obtain ⟨_, _, c'⟩ := exists_cascade v duties'
  have there : Nearing (w.perform duties) v (v.perform duties') [] :=
    (Nearing.start c alike given lets).cascade c alike c'
  have back : Nearing (v.perform duties') w (w.perform duties) [] := by
    refine (Nearing.start c' alike.symm (fun o => (given o).symm) ?_).cascade c' alike.symm c
    intro u among
    rw [alike.handles]
    exact lets' u among
  have ends : (w.perform duties).Reordered (v.perform duties') :=
    alike.reordered.of_toward c c' there.toToward back.toToward
  refine .of_places ?_ ?_ ends.bridges ends.outside (fun o => ?_) (fun a => ?_) fun slot => ?_
  · rw [c'.wanes.objects, c.wanes.objects, alike.objects]
  · rw [c'.wanes.containers, c.wanes.containers, alike.containers]
  · have payload : ((v.perform duties').object o).payload =
        ((w.perform duties).object o).payload := by
      rcases c.wanes.payload o with none | stays
      · rw [none, (ends.payload o).mpr none]
      · rcases c'.wanes.payload o with none | stays'
        · rw [none, (ends.payload o).mp none]
        · rw [stays, stays', alike.object]
    refine ObjectCell.eq_of_fields ?_ (ends.cls o) (ends.refs o) (ends.alive o) payload
      (ends.borrow o)
    rw [c'.declines.id, c.declines.id, alike.object]
  · obtain ⟨tag, items, revision⟩ := c.wanes.container a
    obtain ⟨tag', items', revision'⟩ := c'.wanes.container a
    rw [alike.container] at tag' items' revision'
    refine Container.eq_of_fields (tag'.trans tag.symm) (items'.trans items.symm)
      (revision'.trans revision.symm) ?_
    rw [Bool.eq_iff_iff]
    exact ⟨there.dropped a, back.dropped a⟩
  · rcases c.wanes.entry slot with none | same
    · rw [none, (ends.closed slot).mpr none]
    · rcases c'.wanes.entry slot with none | same'
      · rw [none, (ends.closed slot).mp none]
      · rw [same, same', alike.anyBridge?]

end World

end ArrayBridge
