import ArrayBridge.Proofs.World.Edits
import ArrayBridge.Proofs.World.Deferral

/-!
# Changes made through handles

What whoever has a handle on a container can do to it, one operation at a time (`Mutation`). Each is
a change to the one container, which depends on nothing but that and the classes of objects, and
handles that are let go of after it (`World.step_mutation`).

**No element is lost on the way**: what was in the container is in it afterwards, is handed over to
the caller, or is let go of.
-/

namespace ArrayBridge

/-- An operation on a container. -/
inductive Mutation where
  | append (v : Variant)
  | tryAppend (v : Variant)
  | setAt (index : Nat) (v : Variant)
  | insertAt (index : Nat) (v : Variant)
  | removeAt (index : Nat)
  | clear

namespace Mutation

variable {w w' : World} {c : Container} {u : Variant}

def action (a : ArrayId) : Mutation → Action
  | .append v => .append a v
  | .tryAppend v => .tryAppend a v
  | .setAt index v => .setAt a index v
  | .insertAt index v => .insertAt a index v
  | .removeAt index => .removeAt a index
  | .clear => .clear a

/-- The value that the operation is given. -/
def operand? : Mutation → Option Variant
  | .append v | .tryAppend v | .setAt _ v | .insertAt _ v => some v
  | .removeAt _ | .clear => none

/-- The elements of a container after the operation. One that is refused leaves them. -/
def result? (w : World) (c : Container) : Mutation → Option (List Variant)
  | .append v => some (c.items ++ [v])
  | .tryAppend v => if c.tag.all (w.admits · v) then some (c.items ++ [v]) else none
  | .setAt index v => if index < c.items.length then some (c.items.set index v) else none
  | .insertAt index v => if index ≤ c.items.length then some (c.items.insertIdx index v) else none
  | .removeAt index => if index < c.items.length then some (c.items.eraseIdx index) else none
  | .clear => some []

/-- The container after the operation. -/
def leaves (w : World) (c : Container) (m : Mutation) : Container :=
  (m.result? w c).elim c c.changed

/-- What the caller is handed. -/
def handsOver (c : Container) : Mutation → List Variant
  | .removeAt index => c.items[index]?.toList
  | _ => []

/-- What the container lets go of. -/
def replaces (c : Container) : Mutation → List Variant
  | .setAt index _ => c.items[index]?.toList
  | .clear => c.items
  | _ => []

@[simp] theorem dropped_leaves (w : World) (c : Container) (m : Mutation) :
    (m.leaves w c).dropped = c.dropped := by
  unfold leaves
  cases m.result? w c <;> rfl

/-- What is in the container afterwards was in it, or was brought. -/
theorem mem_of_mem_leaves {m : Mutation} (mem : u ∈ (m.leaves w c).items) :
    u ∈ c.items ∨ u ∈ m.operand? := by
  have appended : ∀ {v}, u ∈ c.items ++ [v] → u ∈ c.items ∨ u ∈ some v := by
    intro v mem
    exact (List.mem_append.mp mem).imp_right fun last => by
      rw [List.mem_singleton.mp last, Option.mem_some]
  unfold leaves at mem
  cases result : m.result? w c with
  | none =>
    rw [result] at mem
    exact .inl mem
  | some items =>
    rw [result] at mem
    have mem : u ∈ items := mem
    cases m with
    | append v =>
      cases result
      exact appended mem
    | tryAppend v =>
      obtain ⟨_, rfl⟩ := Option.ite_some_none_eq_some.mp result
      exact appended mem
    | setAt index v =>
      obtain ⟨_, rfl⟩ := Option.ite_some_none_eq_some.mp result
      exact (List.mem_or_eq_of_mem_set mem).imp_right fun new => Option.mem_some.mpr new.symm
    | insertAt index v =>
      obtain ⟨inside, rfl⟩ := Option.ite_some_none_eq_some.mp result
      exact ((List.mem_insertIdx inside).mp mem).symm.imp_right fun new =>
        Option.mem_some.mpr new.symm
    | removeAt index =>
      obtain ⟨_, rfl⟩ := Option.ite_some_none_eq_some.mp result
      exact .inl (List.mem_of_mem_eraseIdx mem)
    | clear =>
      cases result
      cases mem

/-- **No element is lost.** -/
theorem mem_leaves_or {m : Mutation} (mem : u ∈ c.items) :
    u ∈ (m.leaves w c).items ∨ u ∈ m.handsOver c ∨ u ∈ m.replaces c := by
  unfold leaves
  cases result : m.result? w c with
  | none => exact .inl mem
  | some items =>
    show u ∈ items ∨ _
    cases m with
    | append v =>
      cases result
      exact .inl (List.mem_append_left _ mem)
    | tryAppend v =>
      obtain ⟨_, rfl⟩ := Option.ite_some_none_eq_some.mp result
      exact .inl (List.mem_append_left _ mem)
    | setAt index v =>
      obtain ⟨_, rfl⟩ := Option.ite_some_none_eq_some.mp result
      obtain ⟨place, inside, rfl⟩ := List.mem_iff_getElem.mp mem
      by_cases here : place = index
      · subst here
        exact .inr (.inr (by simp [replaces, inside]))
      · refine .inl (List.mem_iff_getElem.mpr ⟨place, by simpa using inside, ?_⟩)
        rw [List.getElem_set_ne (Ne.symm here)]
    | insertAt index v =>
      obtain ⟨inside, rfl⟩ := Option.ite_some_none_eq_some.mp result
      exact .inl ((List.mem_insertIdx inside).mpr (.inr mem))
    | removeAt index =>
      obtain ⟨_, rfl⟩ := Option.ite_some_none_eq_some.mp result
      obtain ⟨place, inside, rfl⟩ := List.mem_iff_getElem.mp mem
      by_cases here : place = index
      · subst here
        exact .inr (.inl (by simp [handsOver, inside]))
      · exact .inl (List.mem_eraseIdx_iff_getElem.mpr ⟨place, inside, here, rfl⟩)
    | clear =>
      cases result
      exact .inr (.inr mem)

theorem mem_of_mem_handsOver {m : Mutation} (mem : u ∈ m.handsOver c) : u ∈ c.items := by
  cases m with
  | removeAt index => exact List.mem_of_getElem? (Option.mem_toList.mp mem)
  | _ => cases mem

theorem mem_of_mem_replaces {m : Mutation} (mem : u ∈ m.replaces c) : u ∈ c.items := by
  cases m with
  | setAt index v => exact List.mem_of_getElem? (Option.mem_toList.mp mem)
  | clear => exact mem
  | _ => cases mem

/-- What hands something over lets go of nothing. -/
theorem replaces_or_handsOver (m : Mutation) (c : Container) :
    m.replaces c = [] ∨ m.handsOver c = [] := by
  cases m with
  | removeAt index => exact .inl rfl
  | _ => exact .inr rfl

/-- Of the world, an operation depends on nothing but the classes of objects. -/
theorem leaves_congr (cls : ∀ o, (w'.object o).cls = (w.object o).cls) (c : Container)
    (m : Mutation) : m.leaves w' c = m.leaves w c := by
  have admits : w'.admits = w.admits := by
    funext tag v
    simp only [World.admits, World.isInstance, cls]
  cases m with
  | tryAppend v => rw [leaves, leaves, result?, result?, admits]
  | _ => rfl

end Mutation

namespace World

variable {w : World} {a : ArrayId}

@[simp] theorem updateContainer_self (w : World) (a : ArrayId) :
    (w.updateContainer a fun _ => w.container a) = w := by
  have same : w.containers.modify a.slot id = w.containers :=
    Array.ext (by simp) fun i _ _ => by simp [Array.getElem_modify]
  calc
    (w.updateContainer a fun _ => w.container a) = w.updateContainer a id :=
      (updateContainer_eq w a id).symm
    _ = w := by rw [updateContainer, same]

/-- What an operation on a container leaves, if it is known what becomes of the elements. -/
theorem onContainer_eq {α : Type} (w : World) (a : ArrayId)
    (operation : Container → Except BridgeError (α × Container)) (result : Option (List Variant))
    (done : ∀ items, result = some items →
      ∃ answer, operation (w.container a) = .ok (answer, (w.container a).changed items))
    (refused : result = none → ∃ e, operation (w.container a) = .error e) :
    (w.onContainer a operation).1 =
      w.updateContainer a fun _ => result.elim (w.container a) (w.container a).changed := by
  unfold onContainer
  cases result with
  | none =>
    obtain ⟨e, eq⟩ := refused rfl
    rw [eq]
    simp
  | some items =>
    obtain ⟨answer, eq⟩ := done items rfl
    rw [eq]
    rfl

/-- **What an operation does**: one container is changed, and handles are let go of. -/
theorem step_mutation (w : World) (a : ArrayId) (m : Mutation) :
    w.step (m.action a) =
      (w.updateContainer a fun _ => m.leaves w (w.container a)).letGo
        (m.replaces (w.container a)) := by
  cases m with
  | append v => exact (updateContainer_eq w a _).trans (letGo_nil _).symm
  | tryAppend v =>
    refine Eq.trans (onContainer_eq w a _ _ (fun items done => ?_) fun refused => ?_)
      (letGo_nil _).symm
    · obtain ⟨admitted, rfl⟩ := Option.ite_some_none_eq_some.mp done
      refine ⟨(), ?_⟩
      split
      · rename_i tag here
        rw [here] at admitted
        exact if_pos admitted
      · rfl
    · have rejected := (ite_eq_right_iff.mp refused).mt nofun
      split
      · rename_i tag here
        rw [here] at rejected
        exact ⟨_, if_neg rejected⟩
      · rename_i none
        rw [none] at rejected
        exact absurd rfl rejected
  | setAt index v =>
    refine congrArg (letGo · _) (onContainer_eq w a (fun c => (c.set index v).map fun c => ((), c))
      _ (fun items done => ?_) fun refused => ?_)
    · obtain ⟨inside, rfl⟩ := Option.ite_some_none_eq_some.mp done
      exact ⟨(), by rw [Container.set, if_pos inside]; rfl⟩
    · have outside := (ite_eq_right_iff.mp refused).mt nofun
      exact ⟨_, by rw [Container.set, if_neg outside]; rfl⟩
  | insertAt index v =>
    refine Eq.trans (onContainer_eq w a _ _ (fun items done => ?_) fun refused => ?_)
      (letGo_nil _).symm
    · obtain ⟨inside, rfl⟩ := Option.ite_some_none_eq_some.mp done
      exact ⟨(), by rw [Container.insert, if_pos inside]; rfl⟩
    · have outside := (ite_eq_right_iff.mp refused).mt nofun
      exact ⟨_, by rw [Container.insert, if_neg outside]; rfl⟩
  | removeAt index =>
    refine Eq.trans (onContainer_eq w a _ _ (fun items done => ?_) fun refused => ?_)
      (letGo_nil _).symm
    · obtain ⟨inside, rfl⟩ := Option.ite_some_none_eq_some.mp done
      exact ⟨_, by rw [Container.removeAt, List.getElem?_eq_getElem inside]⟩
    · have outside := (ite_eq_right_iff.mp refused).mt nofun
      have none := List.getElem?_eq_none (Nat.not_lt.mp outside)
      exact ⟨_, by rw [Container.removeAt, none]⟩
  | clear => exact congrArg (letGo · _) (updateContainer_eq w a _)

end World

end ArrayBridge
