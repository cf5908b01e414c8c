import ArrayBridge.Bridge.Boundary
import ArrayBridge.Proofs.Run.Frame

/-!
# Sound worlds

What is true of a world whatever was done to it: nothing leads to where nothing is, every bridge
stands on a container marked for its type, and a payload that is lent out is there, with a handle on
its object to reach it by.

**Guarded bridges.** A bridge in a payload is closed with the payload. In a sound world a payload
that is lent out is lost to nothing, so a bridge that a caller can reach stays open whatever he sets
off (`Guarded`, `Wanes.stays`).
-/

namespace ArrayBridge

namespace World

variable {T : ElementType}

/-- A bridge fits a world: what it holds is there, and its container has the mark of its type. -/
structure Fits (w : World) (b : Bridge T) : Prop where
  backing : b.backing.slot < w.containers.size
  tag : ∃ t, (w.container b.backing).tag = some t ∧ t.same T.tag = true
  values : ∀ x ∈ b.values, w.Knows (T.encode x)
  retained : ∀ o ∈ b.retained, o.slot < w.objects.size

/-- **Soundness.** -/
structure Sound (w : World) : Prop where
  items : ∀ a, ∀ v ∈ (w.container a).items, w.Knows v
  bridge : ∀ slot (T : ElementType) (b : Bridge T), w.anyBridge? slot = some ⟨T, b⟩ → w.Fits b
  fields : ∀ o fields, w.fields? o = some fields → ∀ f ∈ fields,
    f.target.ref.slot < w.bridges.size
  held : ∀ o, (w.object o).borrow ≠ .idle → Variant.object o ∈ w.outside
  lent : ∀ o, (w.object o).borrow ≠ .idle → (w.fields? o).isSome

/-- A payload with the bridge in it is lent out, and there is a handle to reach it by. -/
def Guarded (w : World) (slot : Nat) : Prop :=
  ∀ o fields, w.fields? o = some fields → (∃ f ∈ fields, f.target.ref.slot = slot) →
    (w.object o).borrow ≠ .idle ∧ Variant.object o ∈ w.outside

variable {fp : Footprint} {w w' : World}

/-- A payload is lent out only where there is an object. -/
theorem lt_of_lent {o : ObjectId} (h : (w.object o).borrow ≠ .idle) : o.slot < w.objects.size := by
  rcases Nat.lt_or_ge o.slot w.objects.size with hs | hs
  · exact hs
  · rw [object_of_ge hs] at h
    exact absurd rfl h

theorem sound_empty : empty.Sound where
  items a v hv := by
    have none : (empty.container a).items = [] := by simp [container, empty, Array.getD, default]
    rw [none] at hv
    cases hv
  bridge slot T b h := by simp [anyBridge?, empty, Array.getD] at h
  fields o fields h := by simp [fields?, object, empty, Array.getD, default] at h
  held o h := absurd (by simp [object, empty, Array.getD, default]) h
  lent o h := absurd (by simp [object, empty, Array.getD, default]) h

/-! ## What stays sound -/

theorem Knows.mono {v : Variant} (h : w.Knows v) (objects : w.objects.size ≤ w'.objects.size)
    (containers : w.containers.size ≤ w'.containers.size) : w'.Knows v := by
  cases v with
  | object o => exact Nat.lt_of_lt_of_le h objects
  | array a => exact Nat.lt_of_lt_of_le h containers
  | _ => exact h

/-- What was known stays known. -/
theorem Evolves.knows (h : w.Evolves fp w') {v : Variant} (hv : w.Knows v) : w'.Knows v :=
  hv.mono h.objects h.containers

theorem Fits.evolve {b : Bridge T} (hb : w.Fits b) (h : w.Evolves fp w') : w'.Fits b where
  backing := Nat.lt_of_lt_of_le hb.backing h.containers
  tag := by
    rw [h.tag b.backing hb.backing]
    exact hb.tag
  values x hx := h.knows (hb.values x hx)
  retained o ho := Nat.lt_of_lt_of_le (hb.retained o ho) h.objects

/-- A world that evolves without new objects, and in which nothing is lent, returned or kept, stays
sound if its containers and its bridges do. -/
theorem Sound.evolve (s : w.Sound) (h : w.Evolves fp w') (quiet : fp.Quiet)
    (objects : w'.objects.size = w.objects.size) (outside : w'.outside = w.outside)
    (items : ∀ a, ∀ v ∈ (w'.container a).items, w'.Knows v)
    (bridge : ∀ slot (T : ElementType) (b : Bridge T),
      w'.anyBridge? slot = some ⟨T, b⟩ → w'.Fits b) : w'.Sound where
  items := items
  bridge := bridge
  fields o fields ho f hf := by
    have hs : o.slot < w.objects.size := by
      rw [← objects]
      exact lt_of_fields? ho
    rcases h.fields o hs with hn | he
    · rw [hn] at ho
      cases ho
    · rw [he] at ho
      exact Nat.lt_of_lt_of_le (s.fields o fields ho f hf) h.bridges
  held o ho := by
    have hs : o.slot < w.objects.size := by
      rw [← objects]
      exact lt_of_lent ho
    rw [h.borrow o hs (quiet.borrows o)] at ho
    rw [outside]
    exact s.held o ho
  lent o ho := by
    have hs : o.slot < w.objects.size := by
      rw [← objects]
      exact lt_of_lent ho
    rw [h.borrow o hs (quiet.borrows o)] at ho
    have held : Variant.object o ∈ w'.outside := by
      rw [outside]
      exact s.held o ho
    rcases h.spares o hs held with he | ⟨idle, _⟩
    · rw [he]
      exact s.lent o ho
    · exact absurd idle ho

/-- Soundness where containers and bridges are at most lost. -/
theorem Sound.wane (s : w.Sound) (h : w.Wanes w') : w'.Sound := by
  have evolves := h.evolves .nothing
  refine s.evolve evolves Footprint.quiet_nothing h.objects h.outside ?_ ?_
  · intro a v hv
    rw [(h.container a).2.1] at hv
    exact evolves.knows (s.items a v hv)
  · intro slot T b hb
    rcases h.entry slot with hn | he
    · rw [hn] at hb
      cases hb
    · rw [he] at hb
      exact (s.bridge slot T b hb).evolve evolves

/-! ## Guarded bridges -/

/-- In a sound world a bridge that can be reached is guarded. -/
theorem Sound.guarded (s : w.Sound) {slot : Nat} (h : w.AtHand slot) : w.Guarded slot := by
  intro o fields ho hf
  have lent := h o fields ho hf
  exact ⟨lent, s.held o lent⟩

theorem Guarded.evolve {slot : Nat} (g : w.Guarded slot) (h : w.Evolves fp w') (quiet : fp.Quiet)
    (objects : w'.objects.size = w.objects.size) (outside : w'.outside = w.outside) :
    w'.Guarded slot := by
  intro o fields ho hf
  have hs : o.slot < w.objects.size := by
    rw [← objects]
    exact lt_of_fields? ho
  rcases h.fields o hs with hn | he
  · rw [hn] at ho
    cases ho
  · rw [he] at ho
    rw [h.borrow o hs (quiet.borrows o), outside]
    exact g o fields ho hf

theorem Guarded.wane {slot : Nat} (g : w.Guarded slot) (h : w.Wanes w') : w'.Guarded slot :=
  g.evolve (h.evolves .nothing) Footprint.quiet_nothing h.objects h.outside

/-- **A guarded bridge stays as it is** whatever else is lost. -/
theorem Wanes.stays (h : w.Wanes w') {slot : Nat} (g : w.Guarded slot) :
    w'.anyBridge? slot = w.anyBridge? slot := by
  rcases h.keeps slot with same | ⟨o, p, hp, hn, hf⟩
  · exact same
  · have ho : w.fields? o = some p.fields := by rw [fields?, hp]; rfl
    obtain ⟨lent, held⟩ := g o p.fields ho hf
    rcases h.spares o held with he | ⟨idle, _⟩
    · rw [he, hp] at hn
      cases hn
    · exact absurd idle lent

/-- A guarded bridge is looked up after a loss as before. -/
theorem Wanes.bridge? (h : w.Wanes w') {r : BridgeRef T} (g : w.Guarded r.slot) :
    w'.bridge? r = w.bridge? r :=
  bridge?_congr (h.stays g)

end World

end ArrayBridge
