import ArrayBridge.Proofs.Bridge.Rebuilding
import ArrayBridge.Proofs.Bridge.Session

/-!
# Editing a copy instead

While a copy of the native list is edited, the bridge has its list as well. So more is held than in
a session with the same steps so far (`Session.Trails`): if the bridge now gave its list away, and
what is in that were let go of, the world would be the one of the session. What can be done in the
session can therefore be done with the copy.
-/

namespace ArrayBridge

namespace Session

variable {T : ElementType} {s t : Session T} {r : BridgeRef T} {e : Bridge T} {late : List Variant}

/-! ## A bridge that lags behind -/

theorem Lags.guarded_present (h : Lags r s t late) : t.present.Guarded r.slot := by
  intro o fields payload field
  obtain ⟨busy, held⟩ := h.guarded o fields payload field
  exact ⟨busy, List.mem_append_left _ held⟩

theorem Lags.size (h : Lags r s t late) :
    s.present.containers.size = t.present.containers.size :=
  (congrArg Array.size h.alike.containers).trans (World.wanes_letGo t.present late).containers

/-- It is guarded in the first session as well. -/
theorem Lags.guarded_given (h : Lags r s t late) : s.given.Guarded r.slot := by
  intro o fields payload field
  have same : s.world.object o = (t.present.letGo late).object o := h.alike.object o
  have wanes := World.wanes_letGo t.present late
  obtain ⟨p, here, rfl⟩ := Option.map_eq_some_iff.mp payload
  have here : (s.world.object o).payload = some p := here
  rw [same] at here
  have there : t.given.fields? o = some p.fields :=
    congrArg (Option.map Payload.fields) (wanes.had here)
  obtain ⟨busy, held⟩ := h.guarded o p.fields there field
  refine ⟨fun idle => busy ((h.borrow o).symm.trans idle), ?_⟩
  show .object o ∈ s.kept
  rw [← h.kept]
  exact held

/-- The bridge stays as it is. -/
theorem Lags.bridge? (h : Lags r s t late) (entry : t.world.bridge? r = some e) :
    s.given.bridge? r = some e := by
  have guarded : t.present.Guarded r.slot := h.guarded_present
  rw [← entry]
  exact (World.bridge?_congr (h.alike.anyBridge? r.slot)).trans
    ((World.wanes_letGo t.present late).bridge? guarded)

end Session

namespace World

variable {T : ElementType} {w : World} {r : BridgeRef T} {b : Bridge T}

/-- A bridge whose list is out. -/
def lentOut (b : Bridge T) : Bridge T := { b with values := [], revision := none }

end World

/-- The change to a bridge whose list is handed out. -/
def Patch.lending {T : ElementType} (r : BridgeRef T) (b : Bridge T) (outside : List Variant) :
    Patch :=
  { keeping outside with
    entry := fun slot => if slot = r.slot then some ⟨T, World.lentOut b⟩ else none }

namespace World

variable {T : ElementType} {w x : World} {r : BridgeRef T} {b : Bridge T}

theorem patched_lending (h : w.bridge? r = some b) :
    Patched (.lending r b w.outside) w (w.setBridge r (lentOut b)) where
  objects := rfl
  containers := rfl
  bridges := by simp [setBridge]
  outside := rfl
  object _ := rfl
  container _ := rfl
  entry slot := anyBridge?_setBridge_or h (lentOut b) slot

/-- What the bridge keeps while its list is out it kept before. -/
theorem mem_handles_of_lentOut {u : Variant} (mem : u ∈ AnyBridge.handles ⟨T, lentOut b⟩) :
    u ∈ AnyBridge.handles ⟨T, b⟩ := by
  rcases mem_handles_bridge.mp mem with retained | mem | rfl
  · exact mem_handles_bridge.mpr (.inl retained)
  · cases mem
  · exact mem_handles_bridge.mpr (.inr (.inr rfl))

theorem admits_lending (h : w.bridge? r = some b) (g : w.Guarded r.slot)
    (brought : ∀ u, u ∈ w.outside ∨ u ∈ AnyBridge.handles ⟨T, b⟩ → u ∈ x.handles) :
    Admits (.lending r b w.outside) w x (T.encodeAll b.values) := by
  have changed : ∀ {slot b'}, (Patch.lending r b w.outside).entry slot = some b' →
      slot = r.slot ∧ (⟨T, lentOut b⟩ : AnyBridge) = b' := Option.ite_some_none_eq_some.mp
  refine
    { spared := fun a c new => by cases new
      held := fun a c new => by cases new
      guarded := fun slot b' new => (changed new).1 ▸ g
      outside := fun u mem => .inl (.outside mem)
      items := fun a c new => by cases new
      entries := fun slot b' b'' new here u mem => ?_
      brought := fun u among _ => brought u ?_ }
  · obtain ⟨rfl, -⟩ := changed new
    rw [bridge?_eq_some_iff.mp h] at here
    obtain rfl := Option.some.inj here
    rcases mem_handles_bridge.mp mem with retained | mem | rfl
    · exact .inl (.entry (if_pos rfl) (mem_handles_bridge.mpr (.inl retained)))
    · exact .inr mem
    · exact .inl (.entry (if_pos rfl) (mem_handles_bridge.mpr (.inr (.inr rfl))))
  · rcases among with (out | ⟨new, _⟩ | ⟨new, mem⟩) | late
    · exact .inl out
    · cases new
    · obtain ⟨-, rfl⟩ := changed new
      exact .inr (mem_handles_of_lentOut mem)
    · exact .inr (mem_handles_bridge.mpr (.inr (.inl late)))

end World

namespace Session

variable {T : ElementType} {s s' t : Session T} {r : BridgeRef T} {e : Bridge T}
  {late : List Variant} {x : SessionStep T} {steps : List (SessionStep T)}

/-- The session with the list of the bridge out. -/
def lending (t : Session T) (r : BridgeRef T) (e : Bridge T) : Session T :=
  { t with world := t.world.setBridge r (World.lentOut e) }

/-- **The same steps in a session and with a copy**: the two are late with the same, and what is in
the bridge's list is in the list that is out, or is to be let go of. -/
structure Trails (r : BridgeRef T) (e : Bridge T) (s s' t : Session T) (late : List Variant) :
    Prop where
  session : Lags r s (t.lending r e) late
  copy : Lags r s' t late
  entry : t.world.bridge? r = some e
  covers : ∀ u ∈ T.encodeAll e.values, u ∈ T.encodeAll t.list ∨ u ∈ late

namespace Trails

theorem start {z : World} {kept : List Variant} (entry : z.bridge? r = some e)
    (g : { z with outside := kept }.Guarded r.slot) :
    Trails r e ⟨z.setBridge r (World.lentOut e), e.values, kept⟩ ⟨z, e.values, kept⟩
      ⟨z, e.values, kept⟩ [] where
  session := .start g
  copy := .start g
  entry := entry
  covers _ mem := .inl mem

/-- If the bridge gave its list away now, that would be the session. -/
theorem alike (h : Trails r e s s' t late) :
    s.present.Alike
      ((s'.present.setBridge r (World.lentOut e)).letGo (T.encodeAll e.values)) := by
  have entry : s'.present.bridge? r = some e := h.copy.bridge? h.entry
  have outside : s'.present.outside = t.present.outside := by
    show s'.kept ++ T.encodeAll s'.list = t.kept ++ T.encodeAll t.list
    rw [h.copy.kept, h.copy.list]
  have patched := World.patched_lending (w := t.present) h.entry
  have patched' := World.patched_lending entry
  rw [outside] at patched'
  have admits : World.Admits (.lending r e t.present.outside) t.present s'.present
      (T.encodeAll e.values) := by
    refine World.admits_lending h.entry h.copy.guarded_present ?_
    rintro u (out | mem)
    · rw [← outside] at out
      exact World.mem_handles_iff.mpr (.inl out)
    · exact World.mem_handles_of_bridge entry mem
  have late' := World.deferred h.copy.alike patched patched' admits
  have early : ((t.lending r e).present.letGo late).Alike
      ((t.lending r e).present.letGo (late ++ T.encodeAll e.values)) := by
    refine (World.Alike.refl _).perform (fun o => ?_) (fun u among => ?_) fun u among => ?_
    · simp
    · rw [Duty.letGo_mem_lettingGo, List.mem_append] at among
      rw [Duty.letGo_mem_lettingGo]
      rcases among with out | former
      · exact .inl out
      · exact (h.covers u former).symm.imp_right mem_present_of_list
    · rw [Duty.letGo_mem_lettingGo] at among
      exact .inl (Duty.letGo_mem_lettingGo.mpr (List.mem_append_left _ among))
  exact h.session.alike.symm.trans (early.trans late')

/-- The copy holds no less. -/
theorem handles (h : Trails r e s s' t late) {u : Variant} (held : u ∈ s.present.handles) :
    u ∈ s'.present.handles := by
  have entry : s'.present.bridge? r = some e := h.copy.bridge? h.entry
  rw [← h.alike.handles] at held
  have before := (World.declines_perform _ _).handles held
  rcases (World.patched_lending entry).holds_or_mem before with brought | held
  · rcases brought with out | ⟨new, _⟩ | ⟨new, mem⟩
    · exact World.mem_handles_iff.mpr (.inl out)
    · cases new
    · obtain ⟨rfl, rfl⟩ := Option.ite_some_none_eq_some.mp new
      exact World.mem_handles_of_bridge entry (World.mem_handles_of_lentOut mem)
  · exact held

theorem isIntact (h : Trails r e s s' t late) {u : Variant}
    (intact : s.present.isIntact u = true) : s'.present.isIntact u = true := by
  have entry : s'.present.bridge? r = some e := h.copy.bridge? h.entry
  rw [← h.alike.isIntact] at intact
  have before := (World.declines_perform _ _).intact intact
  rwa [(World.patched_lending entry).isIntact_eq fun _ _ => rfl] at before

theorem possible (h : Trails r e s s' t late) (possible : s.Possible x) : s'.Possible x := by
  have has : ∀ v, s.Has v → s'.Has v := fun v has handle => h.handles (has handle)
  have kept : s'.kept = s.kept := h.copy.kept.symm.trans h.session.kept
  cases x with
  | edit e => exact fun x mem => has _ (possible x mem)
  | engine x =>
    cases x with
    | mutate a m =>
      obtain ⟨⟨reach, intact⟩, brings⟩ := possible
      have intact : s.present.isIntact (.array a) = true := intact
      exact ⟨⟨kept ▸ reach, h.isIntact intact⟩, fun v mem => has v (brings v mem)⟩
    | keep handles => exact fun v mem => has v (possible v mem)
    | letGo handles =>
      obtain ⟨from', lent⟩ := possible
      refine ⟨fun v mem => kept ▸ from' v mem, fun o busy => ?_⟩
      have same : (s'.world.object o).borrow = (s.world.object o).borrow :=
        (h.copy.borrow o).trans (h.session.borrow o).symm
      rw [kept]
      exact lent o (same ▸ busy)

theorem change_lending (t : Session T) (r : BridgeRef T) (e : Bridge T) (x : SessionStep T) :
    (t.lending r e).change x = (t.change x).lending r e := by
  cases x with
  | edit edit => rfl
  | engine x =>
    have change := x.change_setBridge t.world t.kept r (World.lentOut e)
    exact congrArg (fun changed : World × List Variant =>
      { world := changed.1, list := t.list, kept := changed.2 : Session T }) change

theorem loses_lending (t : Session T) (r : BridgeRef T) (e : Bridge T) (x : SessionStep T) :
    (t.lending r e).loses x = t.loses x := by
  cases x with
  | edit edit => rfl
  | engine x => cases x <;> rfl

theorem step (h : Trails r e s s' t late) (possible : s.Possible x) :
    Trails r e (s.step x) (s'.step x) (t.change x) (late ++ t.loses x) := by
  have session := h.session.step possible
  rw [change_lending, loses_lending] at session
  refine ⟨session, h.copy.step (h.possible possible), ?_, fun u mem => ?_⟩
  · cases x with
    | edit edit => exact h.entry
    | engine x => cases x <;> exact h.entry
  · rw [List.mem_append]
    rcases h.covers u mem with listed | earlier
    · cases x with
      | edit edit =>
        obtain ⟨v, inside, rfl⟩ := mem_encodeAll.mp listed
        rcases edit.mem_apply_or_removed inside with still | out
        · exact .inl (mem_encodeAll.mpr ⟨v, still, rfl⟩)
        · exact .inr (.inr (mem_encodeAll.mpr ⟨v, out, rfl⟩))
      | engine x => exact .inl listed
    · exact .inr (.inl earlier)

end Trails

/-- **What can be done in a session can be done with a copy.** -/
theorem Trails.feasible (h : Trails r e s s' t late) (feasible : s.Feasible steps) :
    s'.Feasible steps := by
  induction steps generalizing s s' t late with
  | nil => trivial
  | cons x rest ih =>
    obtain ⟨possible, later⟩ := feasible
    exact ⟨h.possible possible, ih (h.step possible) later⟩

end Session

end ArrayBridge
