import ArrayBridge.Proofs.Run.Step
import ArrayBridge.Proofs.World.Ledger

/-!
# References over an operation

The account of `World.Balanced`, kept over every course and by every change to an object, and what a
bridge that has looked holds afterwards.

**The most.** A count that has reached the most does not move when a reference is taken, so the
account can only be kept below that. A count is highest in the middle of a look, when the new
references were taken and the old ones are still held (`Look.crest`).
-/

namespace ArrayBridge

namespace World

/-- Below the most, every reference is counted. -/
def Below (w : World) : Prop := ∀ o, (w.object o).refs < maxReferences

/-- The check of that: only the objects that exist have to be asked. -/
def isBelow (w : World) : Bool := w.objects.all fun cell => decide (cell.refs < maxReferences)

theorem below_of_isBelow {w : World} (h : w.isBelow = true) : w.Below := by
  intro o
  rcases Nat.lt_or_ge o.slot w.objects.size with hs | hs
  · have here : w.object o = w.objects[o.slot] := by simp [object, Array.getD, hs]
    rw [here]
    exact of_decide_eq_true (Array.all_eq_true.mp h o.slot hs)
  · rw [object_of_ge hs]
    decide

/-- The world in the middle of a look, with the new references taken and the old ones held. -/
def Look.crest (look : Look) : World :=
  match look.world.anyBridge? look.slot with
  | some b =>
    (look.world.referenceAll (directObjects (look.world.container b.bridge.backing).items)).1
  | none => look.world

variable {w w' : World} {fp : Footprint}

/-! ## What bridges hold -/

/-- What the bridge in a place retains is what was in sight at its last look. -/
def Recalled (looks : List Look) (w : World) (slot : Nat) : Prop :=
  ∀ (T : ElementType) (b : Bridge T), w.anyBridge? slot = some ⟨T, b⟩ →
    ∃ look b', looks.find? (fun look => look.slot == slot) = some look ∧
      look.world.anyBridge? slot = some ⟨T, b'⟩ ∧ b.retained = look.world.inSight b'

theorem Recalled.entry {looks : List Look} {slot : Nat} (h : Recalled looks w slot)
    (same : w'.anyBridge? slot = none ∨ w'.anyBridge? slot = w.anyBridge? slot) :
    Recalled looks w' slot := by
  intro T b hb
  rcases same with hn | he
  · rw [hn] at hb
    cases hb
  · exact h T b (he ▸ hb)

/-- A bridge that looks is in order afterwards, whatever was before. -/
theorem recalled_look {T : ElementType} {r : BridgeRef T} {b : Bridge T}
    (here : w.bridge? r = some b) {looks : List Look}
    (others : ∀ slot, slot ≠ r.slot → Recalled looks w slot) (slot : Nat) :
    Recalled (w.lookAt r ++ looks) (w.retainBacking r) slot := by
  have look : w.lookAt r = [⟨r.slot, w⟩] := by rw [lookAt, here]; rfl
  have after := (wanes_retainBacking here).entry slot
  rw [anyBridge?_secured here] at after
  rw [look]
  by_cases hs : slot = r.slot
  · subst hs
    rw [if_pos rfl] at after
    intro U c hc
    rcases after with hn | he
    · rw [hn] at hc
      cases hc
    · rw [he] at hc
      cases hc
      exact ⟨⟨r.slot, w⟩, b, by simp, bridge?_eq_some_iff.mp here, rfl⟩
  · rw [if_neg hs] at after
    intro U c hc
    obtain ⟨look, b', found, hl⟩ := (others slot hs).entry after U c hc
    have skip : ((⟨r.slot, w⟩ : Look).slot == slot) = false := by simp [Ne.symm hs]
    exact ⟨look, b', by rw [List.singleton_append, List.find?_cons, skip]; exact found, hl⟩

/-- **Over a course every bridge holds what it saw last.** -/
theorem Course.recalled {looks past : List Look} (h : Course fp w looks w')
    (before : ∀ slot, Recalled past w slot) : ∀ slot, Recalled (looks ++ past) w' slot := by
  induction h generalizing past with
  | refl w => exact before
  | note w n => exact before
  | letGo w handles =>
    intro slot
    exact (before slot).entry ((wanes_letGo w handles).entry slot)
  | addContainer w c => exact before
  | updateContainer w a f => exact before
  | @setBridge w T r b b' here touched same fits =>
    intro slot U c hc
    by_cases hs : slot = r.slot
    · subst hs
      rw [anyBridge?_setBridge here] at hc
      cases hc
      obtain ⟨look, b₀, found, hl, hr⟩ := before r.slot T b (bridge?_eq_some_iff.mp here)
      exact ⟨look, b₀, found, hl, same.trans hr⟩
    · rw [anyBridge?_setBridge_of_ne hs] at hc
      exact before slot U c hc
  | @look w T r touched =>
    cases here : w.bridge? r with
    | none =>
      rw [retainBacking_of_none here, lookAt, here]
      exact before
    | some b => exact recalled_look here fun slot _ => before slot
  | trans _ _ first second =>
    rw [List.append_assoc]
    exact second (first before)

/-! ## The account over a course -/

section Accounting

variable {t g : ObjectId → Nat} {kept : ObjectId → Prop}

/-- A world in which every object is as it was, and the bridges hold as much. -/
theorem Balanced.same (h : w.Balanced [] t g kept) (objects : ∀ o, w'.object o = w.object o)
    (held : ∀ o, w'.heldByBridges o = w.heldByBridges o) : w'.Balanced [] t g kept := by
  refine h.congr (fun o => ?_) (fun o => ?_) (fun o => ?_) fun o => ?_
  · rw [objects]
  · rw [objects]
  · rw [objects]
  · rw [owed, owed, held]

/-- Handles that are let go of are no references. -/
theorem Balanced.letGo (h : w.Balanced [] t g kept) (careful : ∀ o, kept o → g o ≤ t o + 1)
    (handles : List Variant) : (w.letGo handles).Balanced [] t g kept := by
  have pending : w.Balanced (Duty.lettingGo handles) t g kept :=
    h.congr (fun _ => rfl) (fun _ => rfl) (fun _ => rfl) fun o => by
      rw [owed, owed, count_lettingGo]
      rfl
  exact pending.perform careful

/-- **A look keeps the account**: what it takes is held, and what was held is given back. -/
theorem Balanced.look (h : w.Balanced [] t g kept) (careful : ∀ o, kept o → g o ≤ t o + 1)
    {T : ElementType} {r : BridgeRef T} (below : ∀ look ∈ w.lookAt r, look.crest.Below) :
    (w.retainBacking r).Balanced [] t g kept := by
  cases here : w.bridge? r with
  | none => simpa [here] using h
  | some b =>
    obtain ⟨w', objects, _, bridges, _, eq⟩ := retainBacking_eq here
    have entry := bridge?_eq_some_iff.mp here
    rw [eq]
    suffices pending : w'.Balanced (Duty.givingBack b.retained) t g kept from
      pending.perform careful
    let found := directObjects (w.container b.backing).items
    have crest : (w.referenceAll found).1.Below := by
      have look : (⟨r.slot, w⟩ : Look) ∈ w.lookAt r := by rw [lookAt, here]; exact .head _
      have := below _ look
      rwa [Look.crest, entry] at this
    have object : ∀ o, w'.object o = (w.referenceAll found).1.object o := by
      intro o
      rw [World.object, objects]
      rfl
    -- what is held now and what is to be given back is what was held and what was taken
    have held : ∀ o, w'.owed (Duty.givingBack b.retained) o =
        w.owed [] o + (found.filter fun o => (w.object o).counted).count o := by
      intro o
      have bridges' : (w.referenceAll found).1.bridges = w.bridges := by simp
      have same : (w.referenceAll found).1.bridge? r = some b := by
        rw [← here]
        exact bridge?_congr (by simp [anyBridge?])
      have sum := held_setBridge { b with retained := (w.referenceAll found).2 } same o
      rw [held_congr bridges' o] at sum
      rw [owed, owed, count_givingBack, held_congr bridges o, ← held_referenceAll]
      exact sum
    have counted : ∀ o, (w'.object o).counted = (w.object o).counted := by
      intro o
      simp [object]
    have refs : ∀ o, (w.object o).counted = true →
        (w'.object o).refs = (w.object o).refs + found.count o := by
      intro o ho
      rw [object, refs_referenceAll (crest o), if_pos ho]
    refine ⟨?_, ?_, ?_⟩
    · intro o ho
      rw [counted] at ho
      have before := h.counts o ho
      rw [refs o ho, held, List.count_filter (p := fun o => (w.object o).counted) ho]
      omega
    · intro o ho
      rw [counted] at ho
      have before := h.positive o ho
      rw [refs o ho]
      omega
    · intro o dead hk
      rw [object, object_referenceAll] at dead
      have unseen : (found.filter fun o => (w.object o).counted).count o = 0 := by
        rw [List.count_eq_zero]
        intro hm
        have lives := (Bool.and_eq_true_iff.mp (List.mem_filter.mp hm).2).2
        exact absurd (lives.symm.trans dead) (by decide)
      rw [held, unseen]
      exact h.settled o dead hk

/-- **A course keeps the account.** -/
theorem Course.balanced {looks : List Look} (h : Course fp w looks w')
    (careful : ∀ o, kept o → g o ≤ t o + 1) (below : ∀ look ∈ looks, look.crest.Below)
    (before : w.Balanced [] t g kept) : w'.Balanced [] t g kept := by
  induction h with
  | refl w => exact before
  | note w n => exact before.same (fun _ => rfl) fun _ => rfl
  | letGo w handles => exact before.letGo careful handles
  | addContainer w c => exact before.same (fun _ => rfl) fun _ => rfl
  | updateContainer w a f => exact before.same (fun _ => rfl) fun _ => rfl
  | @setBridge w T r b b' here touched same fits =>
    refine before.same (fun _ => rfl) fun o => ?_
    have sum := held_setBridge b' here o
    rw [same] at sum
    omega
  | look w r touched => exact before.look careful below
  | trans _ _ first second =>
    have later := first (fun look hl => below look (List.mem_append.mpr (.inr hl))) before
    exact second (fun look hl => below look (List.mem_append.mpr (.inl hl))) later

end Accounting

/-! ## The account over an action -/

/-- Nothing is held of what does not exist. -/
theorem Sound.held_of_ge (s : w.Sound) {o : ObjectId} (h : w.objects.size ≤ o.slot) :
    w.heldByBridges o = 0 := by
  apply List.count_eq_zero.mpr
  intro held
  obtain ⟨entry, he, ho⟩ := List.mem_flatMap.mp held
  cases entry with
  | none => cases ho
  | some b =>
    obtain ⟨slot, hs, hb⟩ := List.mem_iff_getElem.mp he
    have here : w.anyBridge? slot = some b := by
      rw [Array.length_toList] at hs
      rw [Array.getElem_toList] at hb
      simp [anyBridge?, Array.getD, hs, hb]
    exact absurd ((s.bridge slot b.elem b.bridge here).retained o ho) (Nat.not_lt.mpr h)

section Acting

variable {t g : ObjectId → Nat} {kept : ObjectId → Prop}

theorem Balanced.fewer {pending : List Duty} {kept' : ObjectId → Prop}
    (h : w.Balanced pending t g kept) (fewer : ∀ o, kept' o → kept o) :
    w.Balanced pending t g kept' :=
  ⟨h.counts, h.positive, fun o dead hk => h.settled o dead (fewer o hk)⟩

/-- A change to an object that leaves its life and its count. -/
theorem Balanced.updateObject (h : w.Balanced [] t g kept) (o : ObjectId)
    {f : ObjectCell → ObjectCell} (alive : ∀ c, (f c).alive = c.alive)
    (counted : ∀ c, (f c).counted = c.counted) (refs : ∀ c, (f c).refs = c.refs) :
    (w.updateObject o f).Balanced [] t g kept := by
  refine h.congr (fun p => ?_) (fun p => ?_) (fun p => ?_) fun p => rfl
  · rcases object_updateObject_or (o := o) (f := f) p with he | he <;> rw [he]
    exact alive _
  · rcases object_updateObject_or (o := o) (f := f) p with he | he <;> rw [he]
    exact counted _
  · rcases object_updateObject_or (o := o) (f := f) p with he | he <;> rw [he]
    exact refs _

/-- A new object has its first reference, if it counts them, and nobody holds another. -/
theorem Balanced.addObject (h : w.Balanced [] t g kept) {cell : ObjectCell}
    (refs : cell.counted = true → cell.refs = 1)
    (new : ∀ o, w.objects.size ≤ o.slot → t o = 0 ∧ g o = 0 ∧ w.heldByBridges o = 0) :
    (w.addObject cell).1.Balanced [] t g kept := by
  have owed : ∀ o, (w.addObject cell).1.owed [] o = w.owed [] o := fun o => rfl
  refine ⟨?_, ?_, ?_⟩
  · intro o ho
    rw [owed]
    rcases object_addObject cell o with ⟨hc, hs⟩ | hs
    · obtain ⟨ht, hg, hh⟩ := new o (Nat.le_of_eq hs.symm)
      rw [hc] at ho
      rw [hc, refs ho, ht, hg, World.owed, hh]
      rfl
    · rw [hs] at ho ⊢
      exact h.counts o ho
  · intro o ho
    rcases object_addObject cell o with ⟨hc, _⟩ | hs
    · rw [hc] at ho
      rw [hc]
      exact Nat.le_of_eq (refs ho).symm
    · rw [hs] at ho ⊢
      exact h.positive o ho
  · intro o dead hk
    rw [owed]
    rcases object_addObject cell o with ⟨_, hs⟩ | hs
    · exact (new o (Nat.le_of_eq hs.symm)).2.2
    · rw [hs] at dead
      exact h.settled o dead hk

/-- A reference that is taken by hand. -/
theorem Balanced.reference (h : w.Balanced [] t g kept) (o : ObjectId)
    (below : (w.reference o).1.Below) :
    (w.reference o).1.Balanced [] (fun p => t p + if p = o then 1 else 0) g kept := by
  have held : ∀ p, (w.reference o).1.owed [] p = w.owed [] p := fun p => by
    rw [World.owed, World.owed, held_congr (reference_tables w o).2.2.1 p]
  refine ⟨?_, ?_, ?_⟩
  · intro p hp
    rw [counted_reference] at hp
    have before := h.counts p hp
    have most := below p
    rw [held]
    rw [object_reference] at most ⊢
    by_cases hpo : p = o
    · rw [if_pos ⟨hpo, hp⟩] at most ⊢
      rw [if_pos hpo]
      have most : min ((w.object p).refs + 1) maxReferences < maxReferences := most
      show min ((w.object p).refs + 1) maxReferences + g p = _
      omega
    · rw [if_neg fun h => hpo h.1, if_neg hpo]
      exact before
  · intro p hp
    rw [counted_reference] at hp
    have before := h.positive p hp
    rw [object_reference]
    split
    · show 1 ≤ min ((w.object p).refs + 1) maxReferences
      have : 1 ≤ maxReferences := by decide
      omega
    · exact before
  · intro p dead hk
    rw [object_reference] at dead
    rw [held]
    split at dead
    · exact h.settled p dead hk
    · exact h.settled p dead hk

/-- A reference that is given back by hand. -/
theorem Balanced.unreference (h : w.Balanced [] t g kept) (o : ObjectId)
    (careful : ∀ p, kept p → (g p + if p = o then 1 else 0) ≤ t p + 1) :
    (w.unreference o).1.Balanced [] t (fun p => g p + if p = o then 1 else 0) kept := by
  show (w.perform [.giveBack o]).Balanced [] _ _ _
  by_cases counted : (w.object o).counted = true
  · have pending : w.Balanced [.giveBack o] t (fun p => g p + if p = o then 1 else 0) kept := by
      refine ⟨?_, h.positive, ?_⟩
      · intro p hp
        have before := h.counts p hp
        rw [owed_cons]
        omega
      · intro p dead hk
        have hpo : p ≠ o := by
          rintro rfl
          have lives := (Bool.and_eq_true_iff.mp counted).2
          exact absurd (lives.symm.trans dead) (by decide)
        rw [owed_cons, if_neg hpo]
        exact h.settled p dead hk
    exact pending.perform careful
  -- where nothing is counted nothing is given back
  · rw [World.perform, dif_neg counted, World.perform]
    refine ⟨?_, h.positive, h.settled⟩
    intro p hp
    have hpo : p ≠ o := by
      rintro rfl
      exact counted hp
    show (w.object p).refs + (g p + if p = o then 1 else 0) = _
    rw [if_neg hpo]
    exact h.counts p hp

/-- An object that is freed by hand is not kept. -/
theorem Balanced.free (h : w.Balanced [] t g kept) (careful : ∀ o, kept o → g o ≤ t o + 1)
    {o : ObjectId} (gone : ¬ kept o) : (w.free o).Balanced [] t g kept := by
  unfold World.free
  split
  · have killed : (w.kill o).1.Balanced ((w.kill o).2 ++ []) t g kept :=
      h.kill (fun _ hk => hk) (fun _ _ => rfl) fun hk => absurd hk gone
    rw [List.append_nil] at killed
    exact killed.perform careful
  · exact h

/-- A bridge that is closed gives back what it holds. -/
theorem Balanced.dropBridge (h : w.Balanced [] t g kept)
    (careful : ∀ o, kept o → g o ≤ t o + 1) {T : ElementType} (r : BridgeRef T) :
    (w.dropBridge r).Balanced [] t g kept := by
  have pending : (w.closeBridge r.slot).1.Balanced (w.closeBridge r.slot).2 t g kept := by
    refine h.congr (by simp) (by simp) (by simp) fun o => ?_
    have sum := held_closeBridge w r.slot o
    rw [World.owed, World.owed]
    exact sum
  exact pending.perform careful

/-- A new bridge holds nothing until it looks. -/
theorem Balanced.openBridge (h : w.Balanced [] t g kept) (T : ElementType)
    (values : List T.Carrier) (policy : RejectionPolicy) :
    (w.openBridge T values policy).1.Balanced [] t g kept := by
  rw [openBridge_eq]
  refine h.same (fun o => ?_) fun o => ?_
  · show (w.wrapAll T values).1.object o = w.object o
    simp [object]
  · have nothing : ∀ (b : Bridge T), b.retained = [] → retainedIn (some ⟨T, b⟩) = [] :=
      fun b hb => hb
    simp only [heldByBridges, addBridge, bridges_wrapAll, Array.toList_push, List.flatMap_append,
      List.flatMap_cons, List.flatMap_nil, nothing, List.append_nil]

end Acting

end World

end ArrayBridge
