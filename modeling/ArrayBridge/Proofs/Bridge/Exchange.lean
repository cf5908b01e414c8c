import ArrayBridge.Proofs.Bridge.Account

/-!
# References that are exchanged

A bridge that looks takes the new references first and then gives the old ones back. Where the two
are on the same objects nothing comes of it, however few references there were before: an object
that counts has one at any time (`Run.referenced`), so while the old ones are given back there is
always another (`release_of_spare`). That one does not have to be of those the bridge took. Others
may have given back more than they had.

Nothing comes of a handle that is let go of either, as long as the thing is still held
(`letGo_of_held`).
-/

namespace ArrayBridge

namespace World

variable {w w' : World} {fp : Footprint}

/-! ## What counts has a reference -/

/-- Every object that counts its references has one. -/
def Referenced (w : World) : Prop := ∀ o, (w.object o).counted = true → 1 ≤ (w.object o).refs

namespace Referenced

/-- Objects that were counted before keep their references, and the others have one. -/
theorem of_objects (h : w.Referenced)
    (objects : ∀ o, (w'.object o).counted = true →
      1 ≤ (w'.object o).refs ∨
        (w'.object o).refs = (w.object o).refs ∧ (w.object o).counted = true) :
    w'.Referenced := by
  intro o counted
  rcases objects o counted with one | ⟨same, before⟩
  · exact one
  · rw [same]
    exact h o before

theorem same (h : w.Referenced) (objects : ∀ o, w'.object o = w.object o) : w'.Referenced :=
  h.of_objects fun o counted => .inr ⟨by rw [objects], by rwa [objects] at counted⟩

theorem updateObject (h : w.Referenced) (o : ObjectId) {f : ObjectCell → ObjectCell}
    (refs : (f (w.object o)).counted = true → 1 ≤ (f (w.object o)).refs) :
    (w.updateObject o f).Referenced := by
  intro p counted
  by_cases hp : p = o
  · subst hp
    rcases object_updateObject_or (w := w) (o := p) (f := f) p with same | changed
    · rw [same] at counted ⊢
      exact h p counted
    · rw [changed] at counted ⊢
      exact refs counted
  · have same : (w.updateObject o f).object p = w.object p := by simp [hp]
    rw [same] at counted ⊢
    exact h p counted

/-- A change to an object that leaves its life and its count. -/
theorem updateObject_of_refs (h : w.Referenced) (o : ObjectId) {f : ObjectCell → ObjectCell}
    (counted : ∀ c, (f c).counted = c.counted) (refs : ∀ c, (f c).refs = c.refs) :
    (w.updateObject o f).Referenced := by
  refine h.updateObject o fun later => ?_
  rw [counted] at later
  rw [refs]
  exact h o later

theorem demolish (h : w.Referenced) (v : Variant) : (w.demolish v).1.Referenced := by
  cases v with
  | object o =>
    refine h.of_objects fun p counted => .inr ?_
    show ((w.dropPayload o).1.object p).refs = _ ∧ _
    have counted : ((w.dropPayload o).1.object p).counted = true := counted
    rw [object_dropPayload] at counted ⊢
    split at counted
    · rename_i hp
      rw [if_pos hp]
      exact ⟨rfl, counted⟩
    · rename_i hp
      rw [if_neg hp]
      exact ⟨rfl, counted⟩
  | _ => exact h.same fun _ => rfl

/-- The dead do not count. -/
theorem kill (h : w.Referenced) (o : ObjectId) : (w.kill o).1.Referenced := by
  refine h.of_objects fun p counted => .inr ?_
  rw [object_kill] at counted ⊢
  split at counted
  · exact absurd counted (by simp [ObjectCell.counted, ObjectCell.killed])
  · rename_i hp
    rw [if_neg hp]
    exact ⟨rfl, counted⟩

/-- **Duties take the last reference only from an object that dies.** -/
theorem perform {pending : List Duty} (h : w.Referenced) : (w.perform pending).Referenced := by
  induction w, pending using World.perform.induct with
  | case1 w =>
    rw [World.perform]
    exact h
  | case2 w o rest counted last killed ih =>
    rw [World.perform, dif_pos counted, if_pos last]
    exact ih (h.kill o)
  | case3 w o rest counted last ih =>
    rw [World.perform, dif_pos counted, if_neg last]
    refine ih (h.updateObject o fun _ => ?_)
    show 1 ≤ (w.object o).refs - 1
    omega
  | case4 w o rest counted ih =>
    rw [World.perform, dif_neg counted]
    exact ih h
  | case5 w v rest goes ruins ih =>
    rw [World.perform, dif_pos goes]
    exact ih (h.demolish v)
  | case6 w v rest stays ih =>
    rw [World.perform, dif_neg stays]
    exact ih h

theorem reference (h : w.Referenced) (o : ObjectId) : (w.reference o).1.Referenced := by
  unfold World.reference
  split
  · refine h.updateObject o fun _ => ?_
    show 1 ≤ min ((w.object o).refs + 1) maxReferences
    have : 1 ≤ maxReferences := by decide
    omega
  · exact h

theorem referenceAll (h : w.Referenced) (objects : List ObjectId) :
    (w.referenceAll objects).1.Referenced := by
  induction objects generalizing w with
  | nil => exact h
  | cons o rest ih => exact ih (h.reference o)

theorem look (h : w.Referenced) {T : ElementType} (r : BridgeRef T) :
    (w.retainBacking r).Referenced := by
  cases here : w.bridge? r with
  | none => simpa [here] using h
  | some b =>
    obtain ⟨w', objects, _, _, _, eq⟩ := retainBacking_eq here
    rw [eq]
    refine perform ((h.referenceAll (directObjects (w.container b.backing).items)).same fun o => ?_)
    rw [object, objects]
    rfl

theorem course {looks : List Look} (way : Course fp w looks w') (h : w.Referenced) :
    w'.Referenced := by
  induction way with
  | refl => exact h
  | note | addContainer | updateContainer | setBridge => exact h.same fun _ => rfl
  | letGo => exact h.perform
  | look w r => exact h.look r
  | trans _ _ first second => exact second (first h)

theorem step (h : w.Referenced) (s : w.Sound) {a : Action} (allowed : a.Allowed w) :
    (w.step a).Referenced := by
  by_cases way : a.isCourse = true
  · exact course (course_step s way allowed) h
  cases a with
  | allocate heap cls payload =>
    obtain ⟨id, n, he⟩ := allocate_eq heap w cls payload
    show World.Referenced (heap.allocate w cls payload).2.1
    rw [he]
    refine h.of_objects fun o counted => ?_
    let cell : ObjectCell := ⟨id, cls, if cls.refcounted then 1 else 0, true, some payload, .idle⟩
    have counted : ((w.addObject cell).1.object o).counted = true := counted
    show 1 ≤ ((w.addObject cell).1.object o).refs ∨ ((w.addObject cell).1.object o).refs = _ ∧ _
    rcases object_addObject cell o with ⟨new, _⟩ | old
    · rw [new] at counted ⊢
      have refcounted : cls.refcounted = true := (Bool.and_eq_true_iff.mp counted).1
      exact .inl (Nat.le_of_eq (if_pos refcounted).symm)
    · rw [old] at counted ⊢
      exact .inr ⟨rfl, counted⟩
  | free heap id =>
    rcases heapFree_eq heap w id with same | ⟨o, freed⟩
    · show World.Referenced (heap.free w id).2.1
      rw [same]
      exact h
    · show World.Referenced (heap.free w id).2.1
      rw [freed]
      unfold World.free
      split
      · exact (h.kill o).perform
      · exact h
  | reference o => exact h.reference o
  | unreference o => exact h.perform
  | setValue o n | lendExclusively o | lendToReader o | returnExclusive o | returnFromReader o =>
    exact h.updateObject_of_refs o (fun _ => rfl) fun _ => rfl
  | newBridge T values policy =>
    have opened : (w.openBridge T values policy).1.Referenced := by
      refine h.same fun o => ?_
      show (w.wrapAll T values).1.object o = w.object o
      simp [object]
    exact opened.look _
  | dropBridge r =>
    have shut : (w.closeBridge r.slot).1.Referenced := h.same fun o => by simp
    exact shut.perform
  | keep handles => exact h.same fun _ => rfl
  | letGo handles =>
    have fewer : World.Referenced { w with outside := handles.foldl List.erase w.outside } :=
      h.same fun _ => rfl
    exact fewer.perform
  | _ => exact absurd rfl way

end Referenced

/-! ## Letting go of what is held -/

theorem mem_handles_of_bridge {T : ElementType} {r : BridgeRef T} {b : Bridge T}
    (h : w.bridge? r = some b) {v : Variant} (kept : v ∈ AnyBridge.handles ⟨T, b⟩) :
    v ∈ w.handles := by
  have place := getElem?_of_anyBridge? (bridge?_eq_some_iff.mp h)
  exact List.mem_append_right _ (List.mem_flatMap.mpr ⟨_, List.mem_of_getElem? place, kept⟩)

/-- What is let go of and still held, or nothing but a value, is left as it is. -/
theorem perform_letGo_of_held {v : Variant} (held : w.isIntact v = true → v ∈ w.handles)
    (rest : List Duty) : w.perform (.letGo v :: rest) = w.perform rest := by
  rw [perform, dif_neg]
  rintro ⟨intact, unheld⟩
  simp [isHeld, held intact] at unheld

theorem letGo_of_held {handles : List Variant}
    (held : ∀ v ∈ handles, w.isIntact v = true → v ∈ w.handles) : w.letGo handles = w := by
  unfold letGo Duty.lettingGo
  induction handles with
  | nil => rw [List.map_nil, perform]
  | cons v rest ih =>
    rw [List.map_cons, perform_letGo_of_held (held v List.mem_cons_self)]
    exact ih fun u hu => held u (List.mem_cons_of_mem v hu)

/-! ## Giving back what can be spared -/

/-- The object with some references less, if it counts them. -/
def lowered (w : World) (o : ObjectId) (n : Nat) : ObjectCell :=
  if (w.object o).counted then { w.object o with refs := (w.object o).refs - n } else w.object o

/-- The world with one reference less on an object that counts them. -/
def dropOne (w : World) (o : ObjectId) : World :=
  if (w.object o).counted then w.updateObject o ObjectCell.dropReference else w

theorem object_dropOne (w : World) (o p : ObjectId) :
    (w.dropOne o).object p = w.lowered p (if p = o then 1 else 0) := by
  unfold dropOne lowered
  by_cases hp : p = o
  · subst hp
    rw [if_pos rfl]
    split
    · exact (object_updateObject rfl p).trans (if_pos rfl)
    · rfl
  · rw [if_neg hp]
    have same : (if (w.object o).counted then w.updateObject o ObjectCell.dropReference
        else w).object p = w.object p := by
      split
      · exact (object_updateObject rfl p).trans (if_neg hp)
      · rfl
    rw [same]
    split <;> rfl

/-- Lowering a count twice. -/
theorem lowered_lowered {o : ObjectId} {m n : Nat} (h : w'.object o = w.lowered o m) :
    w'.lowered o n = w.lowered o (m + n) := by
  unfold lowered at h ⊢
  by_cases counted : (w.object o).counted = true
  · rw [if_pos counted] at h ⊢
    have counted' : (w'.object o).counted = true := by
      rw [h]
      exact counted
    rw [if_pos counted', h, Nat.sub_sub]
  · rw [if_neg counted] at h ⊢
    rw [h, if_neg counted]

/-- The first of the references, with the handle on its object. -/
theorem release_cons {o : ObjectId} {rest : List ObjectId} (keeps : Variant.object o ∈ w.handles)
    (spare : (w.object o).counted = true → 1 < (w.object o).refs) :
    w.release (o :: rest) = (w.dropOne o).release rest := by
  have held : Variant.object o ∈ (w.dropOne o).handles := by
    unfold dropOne
    split <;> exact keeps
  have first : w.perform (.giveBack o :: .letGo (.object o) :: Duty.givingBack rest) =
      (w.dropOne o).perform (.letGo (.object o) :: Duty.givingBack rest) := by
    rw [perform]
    unfold dropOne
    by_cases counted : (w.object o).counted = true
    · rw [dif_pos counted, if_neg (Nat.not_le.mpr (spare counted)), if_pos counted]
    · rw [dif_neg counted, if_neg counted]
  exact first.trans (perform_letGo_of_held (fun _ => held) _)

/-- **References that can be spared** are given back and nothing else happens. -/
theorem release_of_spare {held : List ObjectId}
    (keeps : ∀ o ∈ held, Variant.object o ∈ w.handles)
    (spare : ∀ o ∈ held, (w.object o).counted = true → held.count o < (w.object o).refs) :
    (w.release held).containers = w.containers ∧ (w.release held).bridges = w.bridges ∧
      (w.release held).outside = w.outside ∧
      ∀ o, (w.release held).object o = w.lowered o (held.count o) := by
  induction held generalizing w with
  | nil =>
    have nothing : w.release [] = w := by
      show w.perform [] = w
      rw [perform]
    rw [nothing]
    refine ⟨rfl, rfl, rfl, fun o => ?_⟩
    unfold lowered
    split <;> rfl
  | cons o rest ih =>
    have one : ∀ p, (o :: rest).count p = (if p = o then 1 else 0) + rest.count p := by
      intro p
      rw [List.count_cons, Nat.add_comm]
      by_cases hp : p = o
      · simp [hp]
      · simp [hp, Ne.symm hp]
    have tables : (w.dropOne o).containers = w.containers ∧ (w.dropOne o).bridges = w.bridges ∧
        (w.dropOne o).outside = w.outside := by
      unfold dropOne
      split <;> exact ⟨rfl, rfl, rfl⟩
    have more : (w.object o).counted = true → 1 < (w.object o).refs := by
      intro counted
      have := spare o List.mem_cons_self counted
      rw [one, if_pos rfl] at this
      omega
    have keeps' : ∀ p ∈ rest, Variant.object p ∈ (w.dropOne o).handles := by
      intro p hp
      unfold dropOne
      split <;> exact keeps p (List.mem_cons_of_mem o hp)
    have spare' : ∀ p ∈ rest, ((w.dropOne o).object p).counted = true →
        rest.count p < ((w.dropOne o).object p).refs := by
      intro p hp counted
      rw [object_dropOne] at counted ⊢
      by_cases before : (w.object p).counted = true
      · have := spare p (List.mem_cons_of_mem o hp) before
        rw [one] at this
        rw [lowered, if_pos before]
        show rest.count p < (w.object p).refs - _
        omega
      · rw [lowered, if_neg before] at counted
        exact absurd counted before
    obtain ⟨containers, bridges, outside, objects⟩ := ih keeps' spare'
    rw [release_cons (keeps o List.mem_cons_self) more]
    refine ⟨containers.trans tables.1, bridges.trans tables.2.1, outside.trans tables.2.2, ?_⟩
    intro p
    rw [objects, lowered_lowered (object_dropOne w o p), one]

/-! ## Taking them -/

/-- Where there is room for all of them, every reference taken is counted. -/
theorem refs_referenceAll_of_room {objects : List ObjectId} {o : ObjectId}
    (room : (w.object o).counted = true → (w.object o).refs + objects.count o ≤ maxReferences) :
    ((w.referenceAll objects).1.object o).refs =
      (w.object o).refs + if (w.object o).counted = true then objects.count o else 0 := by
  induction objects generalizing w with
  | nil => simp [referenceAll]
  | cons p rest ih =>
    have whole : ((w.referenceAll (p :: rest)).1.object o).refs =
        (((w.reference p).1.referenceAll rest).1.object o).refs := rfl
    by_cases here : o = p ∧ (w.object o).counted = true
    · obtain ⟨rfl, counted⟩ := here
      have all := room counted
      rw [List.count_cons_self] at all
      have one : ((w.reference o).1.object o).refs = (w.object o).refs + 1 := by
        rw [object_reference, if_pos ⟨rfl, counted⟩]
        show min ((w.object o).refs + 1) maxReferences = _
        omega
      have others := ih (w := (w.reference o).1) fun _ => by rw [one]; omega
      rw [whole, others, counted_reference, one, if_pos counted, if_pos counted,
        List.count_cons_self]
      omega
    · have same : (w.reference p).1.object o = w.object o := by rw [object_reference, if_neg here]
      have count : (w.object o).counted = true → (p :: rest).count o = rest.count o :=
        fun counted => List.count_cons_of_ne fun he => here ⟨he.symm, counted⟩
      have others := ih (w := (w.reference p).1) fun counted => by
        rw [same] at counted ⊢
        rw [← count counted]
        exact room counted
      rw [whole, others, same]
      split
      · rename_i counted
        rw [count counted]
      · rfl

end World

theorem Run.referenced {past : List Event} {w : World} (run : Run past w) : w.Referenced := by
  induction run with
  | start =>
    intro o counted
    rw [World.object_of_ge (Nat.zero_le _)] at counted
    cases counted
  | step run a allowed ih => exact ih.step run.sound allowed

end ArrayBridge
