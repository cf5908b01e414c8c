import ArrayBridge.Proofs.Bridge.Copying
import ArrayBridge.Proofs.Bridge.Isolation

/-!
# Sessions read, modify and write

A session takes the native list out of the bridge, lets it be edited in place, and writes it back
when it is closed. Another way is to copy the list, to edit the copy, and to write that. The two
leave the same world, whatever is done to containers in the meantime.

**Where they differ on the way.** In a session the bridge has no list, and so an element that is
taken out of the list may lose its last handle at once; as long as a copy is edited the bridge still
has the element, and it is let go of with the former list. In both cases it is gone in the end.

**A session that is never closed** leaves the bridge without a list, on the container and with the
references that it had when the session was opened. The next read derives the list from that
container as it is by then.
-/

namespace ArrayBridge

namespace Session

variable {T : ElementType} {s t : Session T} {r : BridgeRef T} {e : Bridge T} {late : List Variant}

/-- Closes a session with the list. -/
def close (s : Session T) (r : BridgeRef T) : World := s.given.closeSession r s.list

/-- Writes the list. -/
def write (s : Session T) (r : BridgeRef T) : World := s.given.writeNative r s.list

/-- **The former container and the former list can be let go of late** with everything else. -/
theorem Lags.rebuild (h : Lags r s t late) (entry : t.world.bridge? r = some e) :
    ((t.given.refilled r e t.list).letGo
      (late ++ .array e.backing :: T.encodeAll e.values)).Alike (s.given.rebuild r s.list) := by
  have guarded : t.present.Guarded r.slot := h.guarded_present
  have entry' : s.given.bridge? r = some e := h.bridge? entry
  have entry'' : s.present.bridge? r = some e := entry'
  have size : s.present.containers.size = t.present.containers.size := h.size
  rw [World.rebuild_eq entry', ← h.list]
  have patched := World.patched_refilled (w := t.present) entry t.list t.kept
  have patched' := World.patched_refilled (w := s.present) entry' t.list t.kept
  rw [World.refilling_congr size] at patched'
  have given : s.given = { s.present with outside := t.kept } := by
    rw [h.kept]
    rfl
  rw [given]
  refine World.deferred h.alike patched patched' (World.admits_refilling entry guarded ?_ ?_)
  · exact fun u mem => List.mem_append.mp mem
  · rintro u (kept | listed | held)
    · exact mem_present_of_kept (h.kept ▸ kept)
    · exact mem_present_of_list (h.list ▸ listed)
    · exact World.mem_handles_of_bridge entry'' held

theorem close_eq_write (s : Session T) (r : BridgeRef T) : s.close r = s.write r := rfl

/-- A write is rebuilding, and a look. -/
theorem write_eq (entry : s.given.bridge? r = some e) :
    s.write r =
      ((s.given.rebuild r s.list).retainBacking r).note (.rebuilt T.tag s.list.length) := by
  unfold write World.writeNative
  rw [entry]

end Session

/-! ## Two ways -/

namespace EngineStep

@[simp] theorem bridges_changes (w : World) (kept : List Variant) (steps : List EngineStep) :
    (changes w kept steps).1.bridges = w.bridges := by
  induction steps generalizing w kept with
  | nil => rfl
  | cons x rest ih => exact (ih _ _).trans (by cases x <;> rfl)

@[simp] theorem size_changes (w : World) (kept : List Variant) (steps : List EngineStep) :
    (changes w kept steps).1.containers.size = w.containers.size := by
  induction steps generalizing w kept with
  | nil => rfl
  | cons x rest ih =>
    refine (ih _ _).trans ?_
    cases x with
    | mutate a m => simp [change, World.updateContainer]
    | _ => rfl

end EngineStep

namespace Session

variable {T : ElementType} {s : Session T} {r : BridgeRef T} {e : Bridge T}
  {steps : List (SessionStep T)}

open SessionStep

@[simp] theorem bridge?_changes (s : Session T) (steps : List (SessionStep T)) (r : BridgeRef T) :
    (s.changes steps).world.bridge? r = s.world.bridge? r := by
  simp [changes_eq, World.bridge?]

/-- **The edits are those of the list**, whatever else is done. -/
theorem list_after (s : Session T) (steps : List (SessionStep T)) :
    (s.after steps).list = ListEdit.applyAll s.list (editsOf steps) := by
  induction steps generalizing s with
  | nil => rfl
  | cons x rest ih =>
    refine (ih (s.step x)).trans ?_
    rw [list_step]
    cases x <;> rfl

section Feasible

variable (g : s.given.Guarded r.slot) (feasible : s.Feasible steps)

include g feasible

theorem guarded_after : (s.after steps).given.Guarded r.slot :=
  ((Lags.start g).run feasible).guarded_given

theorem bridge?_after (entry : s.world.bridge? r = some e) :
    (s.after steps).given.bridge? r = some e :=
  ((Lags.start g).run feasible).bridge? ((bridge?_changes s steps r).trans entry)

theorem size_after : (s.after steps).given.containers.size = s.world.containers.size := by
  refine ((Lags.start g).run feasible).size.trans ?_
  show (s.changes steps).world.containers.size = _
  simp [changes_eq]

end Feasible

end Session

namespace World

variable {T : ElementType} {w : World} {r : BridgeRef T} {b e : Bridge T}

open SessionStep Session

/-- A session with the list that it hands out. -/
def opened (w : World) (r : BridgeRef T) : Session T :=
  { world := (w.openSession r).1, list := (w.openSession r).2, kept := w.outside }

/-- A copy of the list. -/
def copied (w : World) (r : BridgeRef T) : Session T :=
  { world := (w.readNative r).1, list := (w.readNative r).2, kept := w.outside }

theorem opened_eq (entry : (w.sync r).bridge? r = some e) :
    w.opened r = ⟨(w.sync r).setBridge r (lentOut e), e.values, w.outside⟩ := by
  rw [opened, openSession_eq entry]
  rfl

theorem copied_eq (entry : (w.sync r).bridge? r = some e) :
    w.copied r = ⟨w.sync r, e.values, w.outside⟩ :=
  congrArg (Session.mk (w.sync r) · w.outside) (nativeValues_eq entry)

/-- A bridge whose list is out is rebuilt as if it had it. -/
theorem refilled_lentOut (w : World) (r : BridgeRef T) (b : Bridge T) (values : List T.Carrier) :
    (w.setBridge r (lentOut b)).refilled r (lentOut b) values = w.refilled r b values := by
  have twice : (w.bridges.setIfInBounds r.slot (some ⟨T, lentOut b⟩)).setIfInBounds r.slot
      (some ⟨T, w.rebuilt b values⟩) =
        w.bridges.setIfInBounds r.slot (some ⟨T, w.rebuilt b values⟩) :=
    Array.setIfInBounds_setIfInBounds ..
  exact congrArg (fun bridges => { w.refilled r b values with bridges }) twice

section Together

variable {z : World} {kept : List Variant} {steps steps' : List (SessionStep T)}
  {s s' : Session T}

/-- What the session and the copy both come to, if nothing is let go of. -/
def refilledAfter (z : World) (kept : List Variant) (r : BridgeRef T) (e : Bridge T)
    (steps : List (SessionStep T)) : World :=
  let changed := EngineStep.changes z kept (engineOf steps)
  ({ changed.1 with outside := changed.2 } : World).refilled r e
    (ListEdit.applyAll e.values (editsOf steps))

theorem mem_handles_refilledAfter (entry : z.bridge? r = some e) {u : Variant}
    (mem : u ∈ T.encodeAll (ListEdit.applyAll e.values (editsOf steps))) :
    u ∈ (z.refilledAfter kept r e steps).handles := by
  have there : (EngineStep.changes z kept (engineOf steps)).1.bridge? r = some e := by
    rw [← entry]
    simp [bridge?]
  have here : (z.refilledAfter kept r e steps).bridge? r = some ((EngineStep.changes z kept
      (engineOf steps)).1.rebuilt e (ListEdit.applyAll e.values (editsOf steps))) :=
    bridge?_setBridge there
  exact mem_handles_of_bridge here (mem_handles_bridge.mpr (.inr (.inl mem)))

/-- **After the session**, the former container is let go of, and the former list was out. -/
theorem alike_rebuild_lentOut (entry : z.bridge? r = some e)
    (g : { z with outside := kept }.Guarded r.slot)
    (start : s = ⟨z.setBridge r (lentOut e), e.values, kept⟩) (feasible : s.Feasible steps) :
    ((z.refilledAfter kept r e steps).letGo (s.lost steps ++ [.array e.backing])).Alike
      ((s.after steps).given.rebuild r (s.after steps).list) := by
  have guarded : s.given.Guarded r.slot := by
    rw [start]
    exact g
  have lent : (s.changes steps).world.bridge? r = some (lentOut e) := by
    simp [start, lt_of_bridge? entry]
  have filled := ((Lags.start guarded).run feasible).rebuild lent
  have ends : (s.changes steps).given.refilled r (lentOut e) (s.changes steps).list =
      z.refilledAfter kept r e steps := by
    let changed := EngineStep.changes z kept (engineOf steps)
    rw [changes_eq, start]
    simp only [EngineStep.changes_setBridge]
    exact refilled_lentOut { changed.1 with outside := changed.2 } r e
      (ListEdit.applyAll e.values (editsOf steps))
  rwa [ends, List.nil_append] at filled

/-- **After the copy** was edited, the former list is let go of as well. -/
theorem alike_rebuild_copied (entry : z.bridge? r = some e)
    (g : { z with outside := kept }.Guarded r.slot) (start : s = ⟨z, e.values, kept⟩)
    (feasible : s.Feasible steps) :
    ((z.refilledAfter kept r e steps).letGo
      (s.lost steps ++ .array e.backing :: T.encodeAll e.values)).Alike
        ((s.after steps).given.rebuild r (s.after steps).list) := by
  have guarded : s.given.Guarded r.slot := by
    rw [start]
    exact g
  have there : (s.changes steps).world.bridge? r = some e := by
    simp [start, entry]
  have filled := ((Lags.start guarded).run feasible).rebuild there
  have ends : (s.changes steps).given.refilled r e (s.changes steps).list =
      z.refilledAfter kept r e steps := by
    rw [changes_eq, start]
    rfl
  rwa [ends, List.nil_append] at filled

/-- **In the session and with the copy** the bridge is rebuilt alike: what is let go of earlier in
the one is let go of with the former list in the other. -/
theorem rebuild_alike_rebuild (entry : z.bridge? r = some e)
    (g : { z with outside := kept }.Guarded r.slot)
    (edits : editsOf steps' = editsOf steps) (engine : engineOf steps' = engineOf steps)
    (start : s = ⟨z.setBridge r (lentOut e), e.values, kept⟩) (start' : s' = ⟨z, e.values, kept⟩)
    (feasible : s.Feasible steps) (feasible' : s'.Feasible steps') :
    ((s.after steps).given.rebuild r (s.after steps).list).Alike
      ((s'.after steps').given.rebuild r (s'.after steps').list) := by
  have filled := alike_rebuild_lentOut entry g start feasible
  have filled' := alike_rebuild_copied entry g start' feasible'
  have ends : z.refilledAfter kept r e steps' = z.refilledAfter kept r e steps := by
    rw [refilledAfter, refilledAfter, edits, engine]
  rw [ends] at filled'
  have lost : ∀ u, u ∈ s'.lost steps' ↔ u ∈ s.lost steps := by
    intro u
    rw [mem_lost, mem_lost, start, start', edits, engine, EngineStep.lost_setBridge]
  refine filled.symm.trans (.trans ?_ filled')
  refine (Alike.refl _).perform (fun o => ?_) (fun u among => ?_) fun u among => ?_
  · simp
  · rw [Duty.letGo_mem_lettingGo, List.mem_append, lost] at among
    rw [Duty.letGo_mem_lettingGo, List.mem_append]
    rcases among with earlier | former
    · exact .inl (.inl earlier)
    rcases List.mem_cons.mp former with rfl | former
    · exact .inl (.inr List.mem_cons_self)
    obtain ⟨v, mem, rfl⟩ := Session.mem_encodeAll.mp former
    -- what the edits took out of the former list was let go of on the way
    rcases ListEdit.mem_applyAll_or_removedBy (editsOf steps) mem with still | out
    · refine .inr (mem_handles_refilledAfter entry ?_)
      exact Session.mem_encodeAll.mpr ⟨v, still, rfl⟩
    · refine .inl (.inl ((mem_lost s steps).mpr (.inl ?_)))
      rw [start]
      exact Session.mem_encodeAll.mpr ⟨v, out, rfl⟩
  · rw [Duty.letGo_mem_lettingGo, List.mem_append] at among
    rw [Duty.letGo_mem_lettingGo, List.mem_append, lost]
    rcases among with earlier | former
    · exact .inl (.inl earlier)
    · obtain rfl := List.mem_singleton.mp former
      exact .inl (.inr List.mem_cons_self)

/-- **The list was read, edited and written**, in the session and with the copy. -/
theorem close_alike_write (entry : z.bridge? r = some e)
    (g : { z with outside := kept }.Guarded r.slot)
    (edits : editsOf steps' = editsOf steps) (engine : engineOf steps' = engineOf steps)
    (start : s = ⟨z.setBridge r (lentOut e), e.values, kept⟩) (start' : s' = ⟨z, e.values, kept⟩)
    (feasible : s.Feasible steps) (feasible' : s'.Feasible steps') :
    ((s.after steps).close r).Alike ((s'.after steps').write r) := by
  have rebuilt := rebuild_alike_rebuild entry g edits engine start start' feasible feasible'
  have here : (s.after steps).given.bridge? r = some (lentOut e) := by
    refine bridge?_after (by rw [start]; exact g) feasible ?_
    simp [start, lt_of_bridge? entry]
  have here' : (s'.after steps').given.bridge? r = some e := by
    refine bridge?_after (by rw [start']; exact g) feasible' ?_
    rw [start', entry]
  have looked := rebuilt.retainBacking r
  rw [close_eq_write, write_eq here, write_eq here']
  exact ((Alike.note _ _).symm.trans looked).trans (.note _ _)

end Together

/-- The bridge is up to date, on the container, which holds the values with the mark of its type. A
read answers them. -/
structure Stores (w : World) (r : BridgeRef T) (values : List T.Carrier) (a : ArrayId) : Prop where
  bridge : ∃ c, w.bridge? r = some c ∧ c.values = values ∧ c.backing = a ∧ w.IsCurrent c
  tag : (w.container a).tag = some T.tag
  items : (w.container a).items = T.encodeAll values
  read : (w.readNative r).2 = values

theorem stores_write {s : Session T} (g : s.given.Guarded r.slot)
    (entry : s.given.bridge? r = some e) :
    (s.write r).Stores r s.list ⟨s.given.containers.size⟩ := by
  obtain ⟨tag, items, revision⟩ := container_writeNative entry s.list
  have here := bridge?_writeNative g entry s.list
  have current : (s.write r).IsCurrent { s.given.rebuilt e s.list with
      retained := (s.given.rebuild r s.list).inSight (s.given.rebuilt e s.list) } :=
    congrArg some revision.symm
  refine ⟨⟨_, here, rfl, rfl, current⟩, tag, items, ?_⟩
  exact (readNative_eq (g.writeNative s.list) here).trans (if_pos current)

/-- **A session that is closed stores the list that was read, with the edits**, in a container that
was not there when it was opened. -/
theorem stores_close (entry : (w.sync r).bridge? r = some e)
    (g : { w.sync r with outside := w.outside }.Guarded r.slot) {steps : List (SessionStep T)}
    (feasible : (w.opened r).Feasible steps) :
    (((w.opened r).after steps).close r).Stores r
      (ListEdit.applyAll (w.readNative r).2 (editsOf steps)) ⟨w.containers.size⟩ := by
  have guarded : (w.opened r).given.Guarded r.slot := by
    rw [opened_eq entry]
    exact g
  have there : (w.opened r).world.bridge? r = some (lentOut e) := by
    simp [opened_eq entry, lt_of_bridge? entry]
  have stores := stores_write (guarded_after guarded feasible)
    (bridge?_after guarded feasible there)
  have size : (w.opened r).world.containers.size = w.containers.size := size_openSession w r
  have list : (w.opened r).list = (w.readNative r).2 := by
    rw [opened_eq entry]
    exact (nativeValues_eq entry).symm
  rwa [list_after, size_after guarded feasible, size, list] at stores

end World

/-! ## A list that never comes back -/

/-- What is done without the bridge's list: what is not about the bridge, and another policy. -/
def Action.Spares {T : ElementType} (r : BridgeRef T) (x : Action) : Prop :=
  ¬ x.footprint.bridges r.slot ∨ ∃ policy, x = .setPolicy r policy

namespace World

variable {T : ElementType} {w : World} {r : BridgeRef T} {b e : Bridge T}

/-- The bridge has no list, and the container and the references that it had when that was handed
out, if it is open at all. -/
def LeftOut (w : World) (r : BridgeRef T) (e : Bridge T) : Prop :=
  ∀ c, w.bridge? r = some c →
    (c.values = [] ∧ c.revision = none) ∧ c.backing = e.backing ∧ c.retained = e.retained

theorem LeftOut.step (h : w.LeftOut r e) (s : w.Sound) {x : Action} (allowed : x.Allowed w)
    (known : r.slot < w.bridges.size) (spares : x.Spares r) : (w.step x).LeftOut r e := by
  intro c there
  rcases spares with other | ⟨policy, rfl⟩
  · rcases (evolves_step s allowed).entry r.slot known other with gone | same
    · rw [bridge?_eq_some_iff, gone] at there
      cases there
    · rw [bridge?_congr same] at there
      exact h c there
  · have there : (w.setPolicy r policy).bridge? r = some c := there
    unfold setPolicy at there
    cases before : w.bridge? r with
    | none =>
      rw [before] at there
      simp only [before] at there
      cases there
    | some d =>
      rw [before] at there
      simp only [bridge?_setBridge_self known] at there
      obtain rfl := Option.some.inj there
      exact h d before

/-- A bridge that is brought up to date stays on its container. -/
theorem exists_bridge?_sync (g : w.Guarded r.slot) (h : w.bridge? r = some b) :
    ∃ e, (w.sync r).bridge? r = some e ∧ e.backing = b.backing := by
  by_cases current : w.IsCurrent b
  · rw [sync_of_current h current]
    exact ⟨b, h, rfl⟩
  · obtain ⟨retained, entry⟩ := bridge?_sync_of_stale g h current
    exact ⟨_, entry, rfl⟩

theorem derive_eq (h : w.bridge? r = some b) :
    w.derive r = (w.setBridge r (w.derived b)).letGo (T.encodeAll b.values) := by
  unfold derive
  rw [h]
  rfl

/-- **The read after that** derives the list from the container as it is, and takes references on
what is in it. -/
theorem LeftOut.read (h : w.LeftOut r e) (g : w.Guarded r.slot) {c : Bridge T}
    (there : w.bridge? r = some c) :
    (w.readNative r).2 = w.decodeAll T (w.container e.backing).items ∧
      (w.readNative r).1.bridge? r =
        some { c with
          values := w.decodeAll T (w.container e.backing).items
          revision := some (w.container e.backing).revision
          retained := (directObjects (w.container e.backing).items).filter fun o =>
            (w.object o).counted } := by
  obtain ⟨⟨values, revision⟩, backing, -⟩ := h c there
  have stale : ¬ w.IsCurrent c := by
    intro current
    rw [IsCurrent, revision] at current
    cases current
  rw [← backing]
  refine ⟨(readNative_eq g there).trans (if_neg stale), ?_⟩
  obtain ⟨n, refreshed⟩ := refreshed?_of_stale there stale
  have derived : w.derive r = w.setBridge r (w.derived c) := by
    rw [derive_eq there, values]
    exact letGo_nil _
  have looked : w.sync r = ((w.setBridge r (w.derived c)).note n).retainBacking r := by
    unfold sync
    rw [refreshed, derived]
  have here : ((w.setBridge r (w.derived c)).note n).bridge? r = some (w.derived c) :=
    bridge?_setBridge there
  have sight : ((w.setBridge r (w.derived c)).note n).inSight (w.derived c) =
      (directObjects (w.container c.backing).items).filter fun o => (w.object o).counted := rfl
  have guarded : ((w.setBridge r (w.derived c)).note n).Guarded r.slot :=
    (g.setBridge (w.derived c)).note n
  have seen := bridge?_retainBacking guarded here
  rw [sight] at seen
  show (w.sync r).bridge? r = _
  rw [looked, seen]
  rfl

end World

/-- Over a run. -/
theorem Run.leftOut {past later : List Event} {w w' : World} (run : Run past w)
    (longer : Run (later ++ past) w') {T : ElementType} {r : BridgeRef T} {e : Bridge T}
    (start : w.LeftOut r e) (known : r.slot < w.bridges.size)
    (spares : ∀ x ∈ later, x.action.Spares r) : w'.LeftOut r e ∧ r.slot < w'.bridges.size := by
  induction later generalizing w' with
  | nil =>
    obtain rfl := run.unique longer
    exact ⟨start, known⟩
  | cons x later ih =>
    cases longer with
    | step before action allowed =>
      obtain ⟨out, place⟩ := ih before fun x mem => spares x (List.mem_cons_of_mem _ mem)
      have spared := spares _ List.mem_cons_self
      refine ⟨out.step before.sound allowed place spared, ?_⟩
      exact Nat.lt_of_lt_of_le place (World.evolves_step before.sound allowed).bridges

/-- **A session that is never closed** leaves the bridge out from its opening on. -/
theorem Run.leftOut_openSession {past later : List Event} {w w' : World} (run : Run past w)
    {T : ElementType} {r : BridgeRef T} {e : Bridge T} (hand : w.AtHand r.slot)
    (entry : (w.sync r).bridge? r = some e)
    (longer : Run (later ++ ⟨w, .openSession r⟩ :: past) w')
    (spares : ∀ x ∈ later, x.action.Spares r) : w'.LeftOut r e := by
  have out : (w.step (.openSession r)).bridge? r = some (World.lentOut e) := by
    show (w.openSession r).1.bridge? r = _
    simp [World.openSession_eq entry, World.lt_of_bridge? entry, World.lentOut]
  have start : (w.step (.openSession r)).LeftOut r e := by
    intro d there
    obtain rfl := Option.some.inj (out.symm.trans there)
    exact ⟨⟨rfl, rfl⟩, rfl, rfl⟩
  have began := run.step (.openSession r) hand
  exact (began.leftOut longer start (World.lt_of_bridge? out) spares).1

/-- **A session reads, modifies and writes.** In every world that a run leads to, of a bridge that
is open and can be reached:

- whatever is done to the list of a session and to containers while the session is open, closing it
  leaves the bridge with the list that was read and the edits, in a container that was not there
  before, whatever was done to the former one. The same can be done with a copy of the list; and if
  the edits are done to a copy, in this order or in any other among the changes to containers in
  which that can be done, and the copy is written, then all objects with their counts of references,
  all containers, all bridges and all handles outside are the same;
- a session that is never closed leaves the bridge on the container and with the references that it
  had when the list was brought up to date and handed out, whatever is done without the bridge. The
  next read derives the list from the elements that the container has by then, and the references
  are those on the objects that are in it and count them. -/
theorem session_reads_modifies_writes {past : List Event} {w : World} (run : Run past w)
    {T : ElementType} {r : BridgeRef T} {b : Bridge T} (here : w.bridge? r = some b)
    (hand : w.AtHand r.slot) :
    (∀ steps : List (SessionStep T), (w.opened r).Feasible steps →
      (((w.opened r).after steps).close r).Stores r
          (ListEdit.applyAll (w.readNative r).2 (SessionStep.editsOf steps)) ⟨w.containers.size⟩ ∧
        (w.copied r).Feasible steps ∧
        ∀ steps' : List (SessionStep T), (w.copied r).Feasible steps' →
          SessionStep.editsOf steps' = SessionStep.editsOf steps →
          SessionStep.engineOf steps' = SessionStep.engineOf steps →
            (((w.opened r).after steps).close r).Alike (((w.copied r).after steps').write r)) ∧
    ∃ e, (w.sync r).bridge? r = some e ∧ e.backing = b.backing ∧
      ∀ later w', Run (later ++ ⟨w, .openSession r⟩ :: past) w' →
        (∀ x ∈ later, x.action.Spares r) → ∀ c, w'.bridge? r = some c →
          (c.backing = e.backing ∧ c.retained = e.retained) ∧
            (w'.AtHand r.slot →
              (w'.readNative r).2 = w'.decodeAll T (w'.container e.backing).items ∧
                (w'.readNative r).1.bridge? r =
                  some { c with
                    values := w'.decodeAll T (w'.container e.backing).items
                    revision := some (w'.container e.backing).revision
                    retained := (World.directObjects (w'.container e.backing).items).filter fun o =>
                      (w'.object o).counted }) := by
  have s := run.sound
  have g := s.guarded hand
  have quiet := Footprint.quiet_bridge r.slot
  have course : World.Course (.bridge r.slot) w _ (w.sync r) := World.course_sync s rfl
  obtain ⟨e, entry, backing⟩ := World.exists_bridge?_sync g here
  have guarded : { w.sync r with outside := w.outside }.Guarded r.slot := by
    rw [← course.tables.2.2]
    exact course.guarded quiet g
  have opened := World.opened_eq entry
  have copied := World.copied_eq entry
  refine ⟨fun steps feasible => ⟨World.stores_close entry guarded feasible, ?_, ?_⟩, e, entry,
    backing, ?_⟩
  · have start : Session.Trails r e (w.opened r) (w.copied r) (w.copied r) [] := by
      rw [opened, copied]
      exact .start entry guarded
    exact start.feasible feasible
  · intro steps' feasible' edits engine
    exact World.close_alike_write entry guarded edits engine opened copied feasible feasible'
  · intro later w' longer spares c there
    have left := run.leftOut_openSession hand entry longer spares
    obtain ⟨-, backing', retained⟩ := left c there
    exact ⟨⟨backing', retained⟩, fun hand' => left.read (longer.sound.guarded hand') there⟩

/-- A bridge over an object, with handles on the object and on the container. -/
def bridgeAndArray : List Action :=
  [ .allocate .empty .refCounted ⟨none, []⟩,
    .keep [.object ⟨0⟩],
    .newBridge (.handle .refCounted) [⟨⟨0⟩⟩] .keepPrevious,
    .keep [.array ⟨0⟩] ]

/-- The container is cleared between two edits, and the handle on it is let go of. -/
def clearAmongEdits : List (SessionStep (.handle .refCounted)) :=
  [ .edit .clear, .engine (.mutate ⟨0⟩ .clear), .engine (.letGo [.array ⟨0⟩]), .edit (.push ⟨⟨0⟩⟩),
    .edit .double ]

def clearBeforeEdits : List (SessionStep (.handle .refCounted)) :=
  [ .engine (.mutate ⟨0⟩ .clear), .engine (.letGo [.array ⟨0⟩]), .edit .clear, .edit (.push ⟨⟨0⟩⟩),
    .edit .double ]

/-- The bridge and the world of these examples. -/
def onlyBridge : BridgeRef (.handle .refCounted) := ⟨0⟩

def bridgedArray : World := worldFrom .empty bridgeAndArray

/-- The session is closed, or is not, and then the container gets an element more. -/
theorem session_reads_modifies_writes_cleared : ∃ past, Run past bridgedArray ∧
    (((bridgedArray.opened onlyBridge).after clearAmongEdits).close onlyBridge).Alike
      (((bridgedArray.copied onlyBridge).after clearBeforeEdits).write onlyBridge) ∧
    (((bridgedArray.opened onlyBridge).after clearAmongEdits).close onlyBridge).Stores onlyBridge
      [⟨⟨0⟩⟩, ⟨⟨0⟩⟩] ⟨1⟩ ∧
    (((bridgedArray.openSession onlyBridge).1.append ⟨0⟩ (.object ⟨0⟩)).readNative onlyBridge).2 =
      [⟨⟨0⟩⟩, ⟨⟨0⟩⟩] := by
  have run : Run _ bridgedArray := Run.start.script bridgeAndArray (by cbv)
  have hand : bridgedArray.AtHand onlyBridge.slot := of_decide_eq_true (by cbv)
  obtain ⟨b, here, place⟩ : ∃ b, bridgedArray.bridge? onlyBridge = some b ∧ b.backing = ⟨0⟩ :=
    Option.map_eq_some_iff.mp
      (by cbv : (bridgedArray.bridge? onlyBridge).map Bridge.backing = some ⟨0⟩)
  obtain ⟨session, e, -, backing, left⟩ := session_reads_modifies_writes run here hand
  obtain ⟨stores, -, copy⟩ :=
    session clearAmongEdits (Session.feasible_of_isFeasible (by cbv))
  have alike := copy clearBeforeEdits (Session.feasible_of_isFeasible (by cbv)) rfl rfl
  have read : (bridgedArray.readNative onlyBridge).2 = [⟨⟨0⟩⟩] := by cbv
  have size : bridgedArray.containers.size = 1 := by cbv
  rw [read, size] at stores
  refine ⟨_, run, alike, stores, ?_⟩
  have longer := (run.step (.openSession onlyBridge) hand).step (.append ⟨0⟩ (.object ⟨0⟩))
    (of_decide_eq_true (by cbv))
  have spares : (Action.append ⟨0⟩ (.object ⟨0⟩)).Spares onlyBridge := .inl id
  obtain ⟨c, there⟩ : ∃ c, ((bridgedArray.openSession onlyBridge).1.append ⟨0⟩
      (.object ⟨0⟩)).bridge? onlyBridge = some c := Option.isSome_iff_exists.mp (by cbv)
  obtain ⟨-, answer⟩ := left [⟨_, .append ⟨0⟩ (.object ⟨0⟩)⟩] _ longer
    (fun x mem => List.mem_singleton.mp mem ▸ spares) c there
  refine (answer (of_decide_eq_true (by cbv))).1.trans ?_
  rw [backing, place]
  cbv

end ArrayBridge
