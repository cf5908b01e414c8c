import ArrayBridge.Proofs.World.Cascade

/-!
# What becomes of handles in a cascade

A handle has a holder: whoever is outside, a container, or a bridge. A cascade takes holders away
and never adds one (`World.Declines`). Each handle of a holder that goes is then to be let go of, so
no handle gets lost silently: as long as anything of the thing it is on is left, it is among the
handles or among the duties (`Cascade.settled`).
-/

namespace ArrayBridge

theorem Duty.letGo_mem_lettingGo {handles : List Variant} {u : Variant} :
    .letGo u ∈ Duty.lettingGo handles ↔ u ∈ handles := by
  simp [lettingGo]

/-- A bridge that is closed lets go of every handle that it keeps, and of nothing else. -/
theorem AnyBridge.letGo_mem_duties {b : AnyBridge} {u : Variant} :
    .letGo u ∈ b.duties ↔ u ∈ b.handles := by
  simp [duties, handles, Duty.givingBack, Duty.letGo_mem_lettingGo, eq_comm (a := u)]

namespace World

variable {w w' w'' : World} {u v : Variant} {o : ObjectId} {a : ArrayId} {pending : List Duty}

/-! ## Holders -/

theorem not_dropped_lt (kept : (w.container a).dropped = false) : a.slot < w.containers.size := by
  by_contra beyond
  have none : w.container a = default := by simp [container, Array.getD, beyond]
  rw [none] at kept
  cases kept

/-- **Who holds a handle**: whoever is outside, a container that was not dropped, or a bridge. -/
theorem mem_handles_iff : u ∈ w.handles ↔ u ∈ w.outside ∨
    (∃ a, (w.container a).dropped = false ∧ u ∈ (w.container a).items) ∨
    ∃ slot b, w.anyBridge? slot = some b ∧ u ∈ b.handles := by
  have inContainers : u ∈ w.containers.toList.flatMap Container.handles ↔
      ∃ a, (w.container a).dropped = false ∧ u ∈ (w.container a).items := by
    rw [List.mem_flatMap]
    constructor
    · rintro ⟨c, mem, held⟩
      obtain ⟨slot, place, rfl⟩ := List.mem_iff_getElem.mp mem
      have place : slot < w.containers.size := by simpa using place
      have here : w.container ⟨slot⟩ = w.containers.toList[slot] := by
        simp [container, Array.getD, place]
      refine ⟨⟨slot⟩, ?_⟩
      rw [here]
      unfold Container.handles at held
      split at held
      · cases held
      · rename_i kept
        exact ⟨Bool.not_eq_true _ ▸ kept, held⟩
    · rintro ⟨a, kept, held⟩
      have place := not_dropped_lt kept
      have here : w.containers.toList[a.slot]? = some (w.container a) :=
        getElem?_of_not_dropped kept
      refine ⟨_, List.mem_of_getElem? here, ?_⟩
      rw [Container.handles, kept]
      exact held
  have inBridges : (u ∈ w.bridges.toList.flatMap fun entry => entry.elim [] AnyBridge.handles) ↔
      ∃ slot b, w.anyBridge? slot = some b ∧ u ∈ b.handles := by
    rw [toList_bridges, List.mem_flatMap]
    constructor
    · rintro ⟨entry, mem, held⟩
      obtain ⟨slot, _, rfl⟩ := List.mem_map.mp mem
      cases here : w.anyBridge? slot with
      | none =>
        rw [here] at held
        cases held
      | some b =>
        rw [here] at held
        exact ⟨slot, b, here, held⟩
    · rintro ⟨slot, b, here, held⟩
      refine ⟨some b, List.mem_map.mpr ⟨slot, ?_, here⟩, held⟩
      exact List.mem_range.mpr (lt_of_anyBridge? here)
  rw [handles, List.mem_append, List.mem_append, inContainers, inBridges, or_assoc]

theorem isHeld_iff : w.isHeld pending u = true ↔ u ∈ w.handles ∨ .letGo u ∈ pending := by
  simp [isHeld]

/-! ## What is left after a loss -/

/-- **Decline**: nothing but lives, payloads, bridges and containers is lost, nothing comes back,
and an object keeps its id. -/
structure Declines (w w' : World) : Prop extends Wanes w w' where
  id : ∀ o, (w'.object o).id = (w.object o).id
  dropped : ∀ a, (w.container a).dropped = true → (w'.container a).dropped = true

namespace Declines

theorem refl (w : World) : w.Declines w := ⟨.refl w, fun _ => rfl, fun _ h => h⟩

theorem trans (h : w.Declines w') (h' : w'.Declines w'') : w.Declines w'' :=
  ⟨h.toWanes.trans h'.toWanes, fun o => (h'.id o).trans (h.id o),
    fun a dropped => h'.dropped a (h.dropped a dropped)⟩

/-- What holds a handle in the end held it at the start. -/
theorem handles (h : w.Declines w') (held : u ∈ w'.handles) : u ∈ w.handles := by
  rw [mem_handles_iff] at held ⊢
  rcases held with outside | ⟨a, kept, mem⟩ | ⟨slot, b, here, mem⟩
  · exact .inl (h.outside ▸ outside)
  · refine .inr (.inl ⟨a, ?_, (h.container a).2.1 ▸ mem⟩)
    by_contra dropped
    rw [h.dropped a (by simpa using dropped)] at kept
    cases kept
  · refine .inr (.inr ⟨slot, b, ?_, mem⟩)
    rcases h.entry slot with none | same
    · rw [none] at here
      cases here
    · rwa [same] at here

/-- What is left in the end was there at the start. -/
theorem intact (h : w.Declines w') (intact : w'.isIntact u = true) : w.isIntact u = true := by
  cases u with
  | object o =>
    obtain ⟨p, left⟩ := Option.isSome_iff_exists.mp intact
    exact Option.isSome_iff_exists.mpr ⟨p, h.had left⟩
  | array a =>
    have kept : (w'.container a).dropped = false := by simpa [isIntact] using intact
    cases before : (w.container a).dropped with
    | false => simp [isIntact, before]
    | true =>
      rw [h.dropped a before] at kept
      cases kept
  | _ => cases intact

end Declines

/-! ## Step by step -/

theorem declines_dropReference (w : World) (o : ObjectId) :
    w.Declines (w.updateObject o ObjectCell.dropReference) := by
  refine ⟨wanes_dropReference w o, fun p => ?_, fun _ h => h⟩
  rw [object_updateObject rfl]
  split <;> rfl

theorem declines_kill (lives : (w.object o).alive = true) : w.Declines (w.kill o).1 := by
  refine ⟨wanes_kill lives, fun p => ?_, fun a dropped => ?_⟩
  · rw [object_kill]
    split <;> rfl
  · simpa using dropped

theorem dropped_drop (w : World) (a b : ArrayId) :
    ((w.updateContainer a fun c => { c with dropped := true }).container b).dropped =
      (decide (b = a) || (w.container b).dropped) := by
  by_cases same : b = a
  · subst same
    rw [decide_eq_true rfl, Bool.true_or]
    by_cases place : b.slot < w.containers.size
    · simp [place]
    · simp [container, updateContainer, Array.getD, place, default]
  · simp [same]

theorem declines_demolish (unheld : v ∉ w.outside) : w.Declines (w.demolish v).1 := by
  refine ⟨wanes_demolish unheld, fun p => ?_, fun b dropped => ?_⟩
  · obtain ⟨_, same⟩ := object_demolish w v p
    rw [same]
  · cases v with
    | object o => simpa [demolish] using dropped
    | array a =>
      rw [demolish, dropped_drop, dropped, Bool.or_true]
    | _ => exact dropped

/-- Nothing is left of what is demolished. -/
theorem not_isIntact_demolish (w : World) (v : Variant) :
    (w.demolish v).1.isIntact v = false := by
  cases v with
  | object o =>
    show ((w.dropPayload o).1.object o).payload.isSome = false
    rw [object_dropPayload, if_pos rfl]
    rfl
  | array a => simp [isIntact, demolish, dropped_drop]
  | _ => rfl

/-! ### Duties that come up -/

theorem letGo_mem_closeBridge {slot : Nat} : .letGo u ∈ (w.closeBridge slot).2 ↔
    ∃ b, w.anyBridge? slot = some b ∧ u ∈ b.handles := by
  unfold closeBridge
  cases here : w.bridges.getD slot none with
  | none => simp [anyBridge?, here]
  | some b => simp [anyBridge?, here, AnyBridge.letGo_mem_duties]

theorem letGo_mem_closeFields {fields : List Field} : .letGo u ∈ (w.closeFields fields).2 ↔
    ∃ f ∈ fields, ∃ b, w.anyBridge? f.target.ref.slot = some b ∧ u ∈ b.handles := by
  induction fields generalizing w with
  | nil => simp [closeFields]
  | cons field rest ih =>
    simp only [closeFields, List.mem_append, letGo_mem_closeBridge, ih, anyBridge?_closeBridge,
      List.mem_cons, exists_eq_or_imp]
    constructor
    · rintro (first | ⟨f, mem, b, here, held⟩)
      · exact .inl first
      · split at here
        · cases here
        · exact .inr ⟨f, mem, b, here, held⟩
    · rintro (first | ⟨f, mem, b, here, held⟩)
      · exact .inl first
      · by_cases same : f.target.ref.slot = field.target.ref.slot
        · exact .inl ⟨b, same ▸ here, held⟩
        · exact .inr ⟨f, mem, b, by rwa [if_neg same], held⟩

/-- The bridges of a payload let go of what they keep. -/
theorem letGo_mem_dropPayload : .letGo u ∈ (w.dropPayload o).2 ↔
    ∃ p, (w.object o).payload = some p ∧
      ∃ f ∈ p.fields, ∃ b, w.anyBridge? f.target.ref.slot = some b ∧ u ∈ b.handles := by
  unfold dropPayload
  split
  · rename_i p here
    rw [letGo_mem_closeFields]
    simp only [here, Option.some.injEq, exists_eq_left']
    rfl
  · rename_i none
    simp [none]

/-- **A loss loses no handle**: it is held by another, or is to be let go of. -/
def Accounts (w : World) (loss : World × List Duty) : Prop :=
  ∀ u, (u ∈ w.handles → u ∈ loss.1.handles ∨ .letGo u ∈ loss.2) ∧
    (.letGo u ∈ loss.2 → u ∈ w.handles)

theorem accounts_dropPayload (w : World) (o : ObjectId) : w.Accounts (w.dropPayload o) := by
  intro u
  rw [letGo_mem_dropPayload, mem_handles_iff, mem_handles_iff]
  constructor
  · rintro (outside | ⟨a, kept, mem⟩ | ⟨slot, b, here, mem⟩)
    · exact .inl (.inl (by simpa using outside))
    · exact .inl (.inr (.inl ⟨a, by simp [kept, mem]⟩))
    · by_cases inside : ∃ p, (w.object o).payload = some p ∧
          ∃ f ∈ p.fields, f.target.ref.slot = slot
      · obtain ⟨p, payload, f, field, rfl⟩ := inside
        exact .inr ⟨p, payload, f, field, b, here, mem⟩
      · refine .inl (.inr (.inr ⟨slot, b, ?_, mem⟩))
        rwa [anyBridge?_dropPayload, if_neg inside]
  · rintro ⟨p, _, f, _, b, here, mem⟩
    exact .inr (.inr ⟨_, b, here, mem⟩)

theorem accounts_kill (w : World) (o : ObjectId) : w.Accounts (w.kill o) := by
  rw [kill_eq]
  split
  · exact accounts_dropPayload (w.marked o) o
  · exact fun u => ⟨.inl, fun none => absurd none List.not_mem_nil⟩

theorem accounts_demolish (intact : w.isIntact v = true) : w.Accounts (w.demolish v) := by
  cases v with
  | object o => exact accounts_dropPayload w o
  | array a =>
    have kept : (w.container a).dropped = false := by simpa [isIntact] using intact
    intro u
    simp only [demolish, Duty.letGo_mem_lettingGo, mem_handles_iff]
    constructor
    · rintro (outside | ⟨b, kept', mem⟩ | bridge)
      · exact .inl (.inl outside)
      · by_cases same : b = a
        · exact .inr (same ▸ mem)
        · refine .inl (.inr (.inl ⟨b, ?_, (container_drop w a b).2.1 ▸ mem⟩))
          rw [dropped_drop, decide_eq_false same, Bool.false_or, kept']
      · exact .inl (.inr (.inr bridge))
    · exact fun mem => .inr (.inl ⟨a, kept, mem⟩)
  | _ => cases intact

/-! ## The whole way -/

namespace Cascade

variable {released freed : List ObjectId}

theorem declines (c : Cascade w pending released freed w') : w.Declines w' := by
  induction c with
  | done w => exact .refl w
  | frees counted _ _ ih => exact (declines_kill (Bool.and_eq_true_iff.mp counted).2).trans ih
  | counts _ _ _ ih => exact (declines_dropReference _ _).trans ih
  | ignores _ _ ih => exact ih
  | demolishes goes _ ih => exact (declines_demolish (not_mem_outside_of_isHeld goes.2)).trans ih
  | spares _ _ ih => exact ih

/-- **What was held or was to be let go of is held in the end**, or nothing of it is left. -/
theorem settled (c : Cascade w pending released freed w')
    (tracked : w.isIntact u = true → u ∈ w.handles ∨ .letGo u ∈ pending)
    (intact : w'.isIntact u = true) : u ∈ w'.handles := by
  induction c with
  | done w => exact (tracked intact).resolve_right List.not_mem_nil
  | @frees w w' o rest _ _ counted _ next ih =>
    refine ih (fun left => ?_) intact
    have before := (declines_kill (Bool.and_eq_true_iff.mp counted).2).intact left
    rw [List.mem_append]
    rcases tracked before with held | due
    · rcases (accounts_kill w o u).1 held with held | due
      · exact .inl held
      · exact .inr (.inl due)
    · exact .inr (.inr ((List.mem_cons.mp due).resolve_left nofun))
  | @counts w w' o rest _ _ _ _ _ ih =>
    refine ih (fun left => ?_) intact
    rcases tracked ((declines_dropReference w o).intact left) with held | due
    · exact .inl held
    · exact .inr ((List.mem_cons.mp due).resolve_left nofun)
  | ignores _ _ ih =>
    refine ih (fun left => ?_) intact
    rcases tracked left with held | due
    · exact .inl held
    · exact .inr ((List.mem_cons.mp due).resolve_left nofun)
  | @demolishes w w' v rest _ _ goes _ ih =>
    refine ih (fun left => ?_) intact
    have other : u ≠ v := by
      rintro rfl
      rw [not_isIntact_demolish] at left
      cases left
    have before := (declines_demolish (not_mem_outside_of_isHeld goes.2)).intact left
    rw [List.mem_append]
    rcases tracked before with held | due
    · rcases (accounts_demolish goes.1 u).1 held with held | due
      · exact .inl held
      · exact .inr (.inl due)
    · rcases List.mem_cons.mp due with here | later
      · exact absurd (Duty.letGo.inj here) other
      · exact .inr (.inr later)
  | @spares w w' v rest _ _ stays _ ih =>
    refine ih (fun left => ?_) intact
    rcases tracked left with held | due
    · exact .inl held
    · rcases List.mem_cons.mp due with here | later
      · obtain rfl := Duty.letGo.inj here
        refine isHeld_iff.mp ?_
        by_contra unheld
        exact stays ⟨left, Bool.not_eq_true _ ▸ unheld⟩
      · exact .inr later

end Cascade

theorem declines_perform (w : World) (pending : List Duty) : w.Declines (w.perform pending) := by
  obtain ⟨_, _, c⟩ := exists_cascade w pending
  exact c.declines

end World

end ArrayBridge
