import ArrayBridge.Proofs.Bridge.Operations

/-!
# What one change to a container is

The operations on a container differ in what they put where. They agree in all that bridges rely on:
an operation that is refused changes nothing, and one that is not moves the revision by one, keeps
the mark, and puts nothing in that does not exist. `World.Edits` says so, once for all operations.

**What follows.** An edit is a course that touches that container only, and a container that shows
the revision it showed before has the elements it had.
-/

namespace ArrayBridge

namespace World

variable {w w' : World}

/-- A container after one change: the mark stays, the revision moves by one, and what it holds
exists. -/
structure Follows (w : World) (c c' : Container) : Prop where
  tag : c'.tag = c.tag
  revision : c'.revision = c.revision + 1
  items : ∀ v ∈ c'.items, w.Knows v

/-- Nothing happened, or a container was changed once and some handles were let go of. -/
def Edits (w : World) (a : ArrayId) (w' : World) : Prop :=
  w' = w ∨ ∃ c handles, w.Follows (w.container a) c ∧
    w' = (w.updateContainer a fun _ => c).letGo handles

@[simp] theorem letGo_nil (w : World) : w.letGo [] = w := by
  show w.perform [] = w
  rw [perform]

/-- What a change leaves depends only on what stands in the place. -/
theorem updateContainer_eq (w : World) (a : ArrayId) (f : Container → Container) :
    w.updateContainer a f = w.updateContainer a fun _ => f (w.container a) := by
  have places : w.containers.modify a.slot f =
      w.containers.modify a.slot fun _ => f (w.container a) := by
    refine Array.ext (by simp) fun i hi _ => ?_
    rw [Array.getElem_modify, Array.getElem_modify]
    by_cases hs : a.slot = i
    · have hi : i < w.containers.size := by simpa using hi
      have here : w.container a = w.containers[i] := by simp [container, Array.getD, hs, hi]
      rw [if_pos hs, if_pos hs, here]
    · rw [if_neg hs, if_neg hs]
  unfold updateContainer
  rw [places]

theorem Edits.change {a : ArrayId} {f : Container → Container}
    (follows : w.Follows (w.container a) (f (w.container a))) (handles : List Variant) :
    w.Edits a ((w.updateContainer a f).letGo handles) :=
  .inr ⟨_, handles, follows, by rw [updateContainer_eq w a f]⟩

theorem edits_onContainer {α : Type} {a : ArrayId}
    {operation : Container → Except BridgeError (α × Container)} (handles : List Variant)
    (follows : ∀ answer c, operation (w.container a) = .ok (answer, c) →
      w.Follows (w.container a) c)
    (refused : ∀ e, operation (w.container a) = .error e → handles = []) :
    w.Edits a ((w.onContainer a operation).1.letGo handles) := by
  unfold onContainer
  split
  · rename_i answer c h
    exact .inr ⟨c, handles, follows answer c h, rfl⟩
  · rename_i e h
    exact .inl (by simp [refused e h])

theorem follows_changed {c : Container} {items : List Variant}
    (known : ∀ v ∈ items, w.Knows v) : w.Follows c (c.changed items) := ⟨rfl, rfl, known⟩

section Editing

variable (s : w.Sound) (a : ArrayId) {v : Variant}

include s

/-- Every operation puts in what it was given, or what was there. -/
theorem known_items {items : List Variant}
    (from' : ∀ u ∈ items, u = v ∨ u ∈ (w.container a).items) (known : w.Knows v) :
    ∀ u ∈ items, w.Knows u := by
  intro u hu
  rcases from' u hu with rfl | hu
  · exact known
  · exact s.items a u hu

theorem known_append (known : w.Knows v) : ∀ u ∈ (w.container a).items ++ [v], w.Knows u := by
  refine known_items s a (fun u hu => ?_) known
  rcases List.mem_append.mp hu with hu | hu
  · exact .inr hu
  · exact .inl (List.mem_singleton.mp hu)

theorem edits_append (known : w.Knows v) : w.Edits a (w.append a v) := by
  have follows := follows_changed (c := w.container a) (known_append s a known)
  rw [← letGo_nil (w.append a v)]
  exact .change follows []

theorem edits_tryAppend (known : w.Knows v) : w.Edits a (w.tryAppend a v).1 := by
  have follows := follows_changed (c := w.container a) (known_append s a known)
  rw [← letGo_nil (w.tryAppend a v).1]
  refine edits_onContainer [] (fun answer c h => ?_) fun _ _ => rfl
  split at h
  · split at h <;> cases h
    exact follows
  · cases h
    exact follows

theorem edits_setAt (index : Nat) (known : w.Knows v) : w.Edits a (w.setAt a index v).1 := by
  show w.Edits a ((w.onContainer a fun c => (c.set index v).map fun c => ((), c)).1.letGo
    (w.container a).items[index]?.toList)
  refine edits_onContainer _ (fun answer c h => ?_) fun e h => ?_
  · unfold Container.set at h
    split at h <;> cases h
    refine follows_changed (known_items s a (fun u hu => ?_) known)
    exact (List.mem_or_eq_of_mem_set hu).symm
  · unfold Container.set at h
    split at h
    · cases h
    · rename_i out
      rw [List.getElem?_eq_none (Nat.not_lt.mp out)]
      rfl

theorem edits_insertAt (index : Nat) (known : w.Knows v) :
    w.Edits a (w.insertAt a index v).1 := by
  rw [← letGo_nil (w.insertAt a index v).1]
  refine edits_onContainer [] (fun answer c h => ?_) fun _ _ => rfl
  unfold Container.insert at h
  split at h <;> cases h
  rename_i inside
  refine follows_changed (known_items s a (fun u hu => ?_) known)
  exact (List.mem_insertIdx inside).mp hu

theorem edits_removeAt (index : Nat) : w.Edits a (w.removeAt a index).1 := by
  rw [← letGo_nil (w.removeAt a index).1]
  refine edits_onContainer [] (fun answer c h => ?_) fun _ _ => rfl
  unfold Container.removeAt at h
  split at h <;> cases h
  exact follows_changed fun u hu => s.items a u (List.mem_of_mem_eraseIdx hu)

omit s in
theorem edits_clear : w.Edits a (w.clear a) :=
  .change (follows_changed fun _ hv => absurd hv List.not_mem_nil) _

end Editing

/-! ## What follows -/

/-- An edit is a course. -/
theorem Edits.course {fp : Footprint} {a : ArrayId} (h : w.Edits a w') (touched : fp.arrays a) :
    Course fp w [] w' := by
  rcases h with rfl | ⟨c, handles, follows, rfl⟩
  · exact .refl w'
  · exact .trans (.updateContainer w a _ touched follows.tag follows.items) (.letGo _ handles)

/-- Either the container is the same, or its revision has moved by one. -/
theorem Edits.revision {a : ArrayId} (h : w.Edits a w') (ha : a.slot < w.containers.size) :
    ((w'.container a).items = (w.container a).items ∧
        (w'.container a).revision = (w.container a).revision) ∨
      (w'.container a).revision = (w.container a).revision + 1 := by
  rcases h with rfl | ⟨c, handles, follows, rfl⟩
  · exact .inl ⟨rfl, rfl⟩
  · refine .inr ?_
    rw [((wanes_letGo _ handles).container a).2.2, container_updateContainer_self ha]
    exact follows.revision

end World

end ArrayBridge
