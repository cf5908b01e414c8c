import ArrayBridge.Proofs.Bridge.Backing
import ArrayBridge.Proofs.World.Mutation

/-!
# What a revision tells

A container shows a revision, and whoever noted it can tell later whether the container was changed
in the meantime.

**An operation on a container** (`Mutation`) is refused or done. One that is refused names the
reason and leaves the whole world as it was; one that is done is the list operation of its name, and
moves the revision by one (`Mutation.actsOn`).

**Nothing else moves a revision.** Reading leaves no world behind at all. Of the other actions each
is about objects, bridges, other containers or handles, and leaves the elements of this one
(`Action.exists_mutation_of_arrays`). So over a run a revision counts the operations that were done,
modulo two to the sixty-four (`Run.counts`), and as long as there were fewer than that, a revision
that is shown again means that there was none.

**Handles on one container** are equal, so what is said of a container is said of every handle on
it.
-/

namespace ArrayBridge

/-- What is answered by an operation that is run on a container. -/
theorem World.onContainer_snd {α : Type} (w : World) (a : ArrayId)
    (operation : Container → Except BridgeError (α × Container)) :
    (w.onContainer a operation).2 = (operation (w.container a)).map Prod.fst := by
  unfold World.onContainer
  cases operation (w.container a) <;> rfl

namespace Mutation

variable {w : World} {a : ArrayId} {c : Container} {m : Mutation}

/-- Why a container refuses the operation, if it does. -/
def refusal? (w : World) (c : Container) : Mutation → Option BridgeError
  | .tryAppend v => c.tag.bind fun tag =>
    if w.admits tag v then none else some (.elementRejected tag (w.typeName v))
  | .setAt index _ | .removeAt index =>
    if index < c.items.length then none else some (.indexOutOfRange index c.items.length)
  | .insertAt index _ =>
    if index ≤ c.items.length then none else some (.indexOutOfRange index c.items.length)
  | .append _ | .clear => none

/-- The operation, and what it answers: the element that was taken out, or the reason why nothing
was done. -/
def run (w : World) (a : ArrayId) : Mutation → World × Except BridgeError (Option Variant)
  | .append v => (w.append a v, .ok none)
  | .tryAppend v => ((w.tryAppend a v).1, (w.tryAppend a v).2.map fun _ => none)
  | .setAt index v => ((w.setAt a index v).1, (w.setAt a index v).2.map fun _ => none)
  | .insertAt index v => ((w.insertAt a index v).1, (w.insertAt a index v).2.map fun _ => none)
  | .removeAt index => ((w.removeAt a index).1, (w.removeAt a index).2.map some)
  | .clear => (w.clear a, .ok none)

theorem run_fst (m : Mutation) (w : World) (a : ArrayId) : (m.run w a).1 = w.step (m.action a) := by
  cases m <;> rfl

/-- An operation is refused where it has no result. -/
theorem refusal?_eq_none_iff : m.refusal? w c = none ↔ (m.result? w c).isSome := by
  cases m with
  | append v | clear => simp [refusal?, result?]
  | tryAppend v => cases tag : c.tag <;> simp [refusal?, result?, tag]
  | setAt index v | insertAt index v | removeAt index => simp [refusal?, result?]

/-- What is refused replaces nothing. -/
theorem replaces_of_refused (refused : m.result? w c = none) : m.replaces c = [] := by
  cases m with
  | setAt index v =>
    have outside := (ite_eq_right_iff.mp refused).mt nofun
    rw [replaces, List.getElem?_eq_none (Nat.not_lt.mp outside)]
    rfl
  | clear => cases refused
  | _ => rfl

/-- **The answer** is the reason of the refusal, or what the caller is handed. -/
theorem run_snd (m : Mutation) (w : World) (a : ArrayId) : (m.run w a).2 =
    match m.refusal? w (w.container a) with
    | some reason => .error reason
    | none => .ok (m.handsOver (w.container a)).head? := by
  cases m with
  | append v | clear => rfl
  | tryAppend v =>
    rw [run, World.tryAppend, World.onContainer_snd, refusal?]
    cases (w.container a).tag with
    | none => rfl
    | some tag =>
      by_cases admitted : w.admits tag v
      · simp [admitted, Except.map, handsOver]
      · simp [admitted, Except.map]
  | setAt index v =>
    have answer : (w.setAt a index v).2 =
        (w.onContainer a fun c => (c.set index v).map fun c => ((), c)).2 := rfl
    rw [run, answer, World.onContainer_snd, refusal?, Container.set]
    split <;> rfl
  | insertAt index v =>
    rw [run, World.insertAt, World.onContainer_snd, refusal?, Container.insert]
    split <;> rfl
  | removeAt index =>
    rw [run, World.removeAt, World.onContainer_snd, refusal?, Container.removeAt, handsOver]
    by_cases inside : index < (w.container a).items.length
    · rw [if_pos inside, List.getElem?_eq_getElem inside]
      rfl
    · rw [if_neg inside, List.getElem?_eq_none (Nat.not_lt.mp inside)]
      rfl

/-- **What an operation does.** If the container refuses it, the reason is answered and nothing is
done. If not, the elements are what the list operation makes of them, the revision moves by one, and
the element that was taken out is answered, if one was. -/
structure ActsOn (m : Mutation) (w : World) (a : ArrayId) : Prop where
  refused : ∀ reason, m.refusal? w (w.container a) = some reason → m.run w a = (w, .error reason)
  done : m.refusal? w (w.container a) = none → ∃ items, m.result? w (w.container a) = some items ∧
    (m.run w a).2 = .ok (m.handsOver (w.container a)).head? ∧
    ((m.run w a).1.container a).items = items ∧
    ((m.run w a).1.container a).revision = (w.container a).revision + 1

/-- An operation that is refused leaves the world. -/
theorem step_of_refused (refused : m.result? w (w.container a) = none) :
    w.step (m.action a) = w := by
  have same : m.leaves w (w.container a) = w.container a := by rw [leaves, refused]; rfl
  simp [World.step_mutation, same, replaces_of_refused refused]

/-- An operation that is done changes the container once. -/
theorem step_of_done {items : List Variant} (done : m.result? w (w.container a) = some items)
    (known : w.Knows (.array a)) :
    ((w.step (m.action a)).container a).items = items ∧
      ((w.step (m.action a)).container a).revision = (w.container a).revision + 1 := by
  have changed : m.leaves w (w.container a) = (w.container a).changed items := by
    rw [leaves, done]; rfl
  have wanes := World.wanes_letGo (w.updateContainer a fun _ => m.leaves w (w.container a))
    (m.replaces (w.container a))
  obtain ⟨_, kept, shown⟩ := wanes.container a
  rw [World.step_mutation, kept, shown]
  have place : a.slot < w.containers.size := known
  simp [place, changed, Container.changed]

theorem actsOn (m : Mutation) (known : w.Knows (.array a)) : m.ActsOn w a := by
  have answer := m.run_snd w a
  constructor
  · intro reason refused
    rw [refused] at answer
    have none : m.result? w (w.container a) = none := by
      rw [← Option.not_isSome_iff_eq_none, ← refusal?_eq_none_iff, refused]
      exact Option.some_ne_none reason
    exact Prod.ext ((m.run_fst w a).trans (step_of_refused none)) answer
  · intro allowed
    rw [allowed] at answer
    obtain ⟨items, done⟩ := Option.isSome_iff_exists.mp (refusal?_eq_none_iff.mp allowed)
    rw [run_fst]
    exact ⟨items, done, answer, step_of_done done known⟩

end Mutation

/-! ## Over a run -/

/-- An action that is an operation on a container, with the container. -/
def Action.mutation? : Action → Option (ArrayId × Mutation)
  | .append a v => some (a, .append v)
  | .tryAppend a v => some (a, .tryAppend v)
  | .setAt a index v => some (a, .setAt index v)
  | .insertAt a index v => some (a, .insertAt index v)
  | .removeAt a index => some (a, .removeAt index)
  | .clear a => some (a, .clear)
  | _ => none

theorem Action.mutation?_eq_some_iff {x : Action} {a : ArrayId} {m : Mutation} :
    x.mutation? = some (a, m) ↔ x = m.action a := by
  constructor
  · intro h
    cases x <;> cases h <;> rfl
  · rintro rfl
    cases m <;> rfl

/-- What touches the elements of a container is an operation on it. -/
theorem Action.exists_mutation_of_arrays {x : Action} {a : ArrayId}
    (touched : x.footprint.arrays a) : ∃ m : Mutation, x = m.action a := by
  cases x with
  | append b v => cases touched; exact ⟨.append v, rfl⟩
  | tryAppend b v => cases touched; exact ⟨.tryAppend v, rfl⟩
  | setAt b index v => cases touched; exact ⟨.setAt index v, rfl⟩
  | insertAt b index v => cases touched; exact ⟨.insertAt index v, rfl⟩
  | removeAt b index => cases touched; exact ⟨.removeAt index, rfl⟩
  | clear b => cases touched; exact ⟨.clear, rfl⟩
  | _ => exact touched.elim

/-- The event is an operation on the container that was done. -/
def Event.mutates (a : ArrayId) (e : Event) : Bool :=
  match e.action.mutation? with
  | some (b, m) => decide (b = a) && (m.refusal? e.world (e.world.container b)).isNone
  | none => false

theorem Event.mutates_iff {e : Event} {a : ArrayId} : e.mutates a = true ↔
    ∃ m : Mutation, e.action = m.action a ∧ m.refusal? e.world (e.world.container a) = none := by
  unfold Event.mutates
  constructor
  · intro moves
    split at moves
    · rename_i b m isMutation
      obtain ⟨here, done⟩ := Bool.and_eq_true_iff.mp moves
      obtain rfl := of_decide_eq_true here
      exact ⟨m, Action.mutation?_eq_some_iff.mp isMutation, Option.isNone_iff_eq_none.mp done⟩
    · cases moves
  · rintro ⟨m, isMutation, done⟩
    rw [Action.mutation?_eq_some_iff.mpr isMutation]
    simp [done]

namespace World

variable {w : World} {a : ArrayId} {x : Action}

/-- **What is no operation on the container leaves its elements and its revision**, and so does an
operation that is refused. -/
theorem step_of_not_mutates (s : w.Sound) (allowed : x.Allowed w) (known : w.Knows (.array a))
    (still : ¬ Event.mutates a ⟨w, x⟩ = true) :
    ((w.step x).container a).items = (w.container a).items ∧
      ((w.step x).container a).revision = (w.container a).revision := by
  by_cases touched : x.footprint.arrays a
  · obtain ⟨m, rfl⟩ := Action.exists_mutation_of_arrays touched
    cases refusal : m.refusal? w (w.container a) with
    | none => exact absurd (Event.mutates_iff.mpr ⟨m, rfl, refusal⟩) still
    | some reason =>
      rw [← m.run_fst, (m.actsOn known).refused reason refusal]
      exact ⟨rfl, rfl⟩
  · exact (evolves_step s allowed).container a known touched

/-- An operation that is done moves the revision by one. -/
theorem step_of_mutates (known : w.Knows (.array a)) (moves : Event.mutates a ⟨w, x⟩ = true) :
    ((w.step x).container a).revision = (w.container a).revision + 1 := by
  obtain ⟨m, isMutation, done⟩ := Event.mutates_iff.mp moves
  obtain rfl : x = m.action a := isMutation
  obtain ⟨_, _, _, _, revision⟩ := (m.actsOn known).done done
  rwa [m.run_fst] at revision

end World

/-- **A revision counts** the operations that were done on the container, and while there were none
the elements stay. -/
theorem Run.counts {past later : List Event} {w w' : World} (run : Run past w)
    (longer : Run (later ++ past) w') {a : ArrayId} (known : w.Knows (.array a)) :
    (w'.container a).revision =
        (w.container a).revision + UInt64.ofNat (later.countP (Event.mutates a)) ∧
      (later.countP (Event.mutates a) = 0 → (w'.container a).items = (w.container a).items) := by
  induction later generalizing w' with
  | nil =>
    obtain rfl := run.unique longer
    exact ⟨(UInt64.add_zero _).symm, fun _ => rfl⟩
  | cons e later ih =>
    cases longer with
    | @step _ before reached x allowed =>
      obtain ⟨counted, kept⟩ := ih reached
      have known' := run.knows reached known
      by_cases moves : Event.mutates a ⟨before, x⟩ = true
      · rw [List.countP_cons_of_pos moves, World.step_of_mutates known' moves, counted,
          UInt64.ofNat_add, UInt64.add_assoc]
        exact ⟨rfl, fun none => absurd none (Nat.succ_ne_zero _)⟩
      · obtain ⟨items, revision⟩ :=
          World.step_of_not_mutates reached.sound allowed known' moves
        rw [List.countP_cons_of_neg moves, items, revision]
        exact ⟨counted, kept⟩

theorem World.insertAt_length (w : World) (a : ArrayId) (v : Variant) :
    w.insertAt a (w.container a).items.length v = (w.append a v, .ok ()) := by
  have behind : (w.container a).insert (w.container a).items.length v =
      .ok ((w.container a).append v) := by
    rw [Container.insert, if_pos (Nat.le_refl _), List.insertIdx_length_self]
    rfl
  unfold World.insertAt World.onContainer World.append
  simp only [behind, Except.map]
  rw [updateContainer_eq w a fun c => c.append v]

/-- **A revision tells whether a container was changed.** In every world that a run leads to, for
every container that there is, through whatever handle:

- an operation is refused for the reason that is its own, and then nothing at all is done; or it is
  the list operation of its name, and moves the revision by one (`Mutation.ActsOn`). To insert
  behind the last element is to append;
- nothing else that can be done touches the elements or the revision;
- from any moment to any later one, the revision moves by the number of operations that were done.
  If it is the same at both and there were fewer operations than revisions, there was none, and the
  elements are the same. -/
theorem revision_is_change_key {past : List Event} {w : World} (run : Run past w) {a : ArrayId}
    (known : w.Knows (.array a)) :
    (∀ m : Mutation, m.ActsOn w a) ∧
    (∀ v, w.insertAt a (w.container a).items.length v = (w.append a v, .ok ())) ∧
    (∀ x : Action, x.Allowed w → (∀ m : Mutation, x ≠ m.action a) →
      ((w.step x).container a).items = (w.container a).items ∧
        ((w.step x).container a).revision = (w.container a).revision) ∧
    ∀ later w', Run (later ++ past) w' →
      let operations := later.countP (Event.mutates a)
      (w'.container a).revision = (w.container a).revision + UInt64.ofNat operations ∧
      (operations < UInt64.size → (w'.container a).revision = (w.container a).revision →
        operations = 0 ∧ (w'.container a).items = (w.container a).items) := by
  refine ⟨fun m => m.actsOn known, w.insertAt_length a, ?_, ?_⟩
  · intro x allowed other
    apply World.step_of_not_mutates run.sound allowed known
    rw [Event.mutates_iff]
    rintro ⟨m, isMutation, _⟩
    exact other m isMutation
  · intro later w' longer operations
    obtain ⟨counted, kept⟩ := run.counts longer known
    refine ⟨counted, fun few same => ?_⟩
    have none : operations = 0 := World.eq_zero_of_shown_again few (counted.symm.trans same)
    exact ⟨none, kept none⟩

/-- A container of integers that is held outside. -/
def oneInteger : List Action :=
  [ .newArray (some (.builtin .int)) [.int 1],
    .keep [.array ⟨0⟩] ]

/-- Two operations that are refused, and a copy. -/
def inVain : List Action :=
  [ .setAt ⟨0⟩ 5 (.int 9),
    .tryAppend ⟨0⟩ (.bool true),
    .duplicate ⟨0⟩ ]

def addedAndRemoved : List Action := [.append ⟨0⟩ (.int 2), .removeAt ⟨0⟩ 0]

/-- Neither of the two leaves a trace. An addition and a removal move the revision by two. -/
theorem revision_is_change_key_inVain :
    let w := worldFrom .empty oneInteger
    let w' := worldFrom w inVain
    let w'' := worldFrom w' addedAndRemoved
    (Mutation.setAt 5 (.int 9)).run w ⟨0⟩ = (w, .error (.indexOutOfRange 5 1)) ∧
      (w'.container ⟨0⟩).revision = (w.container ⟨0⟩).revision ∧
      (w'.container ⟨0⟩).items = (w.container ⟨0⟩).items ∧
      (w''.container ⟨0⟩).revision = (w'.container ⟨0⟩).revision + 2 := by
  intro w w' w''
  have run := Run.start.script oneInteger (by cbv)
  have longer : Run (eventsFrom w [] inVain ++ eventsFrom .empty [] oneInteger) w' :=
    run.script inVain (by cbv)
  have further : Run (eventsFrom w' [] addedAndRemoved ++
      (eventsFrom w [] inVain ++ eventsFrom .empty [] oneInteger)) w'' :=
    longer.script addedAndRemoved (by cbv)
  obtain ⟨acts, _, _, counts⟩ := revision_is_change_key run (a := ⟨0⟩) (of_decide_eq_true (by cbv))
  obtain ⟨counted, tells⟩ := counts _ w' longer
  have few : (eventsFrom w [] inVain).countP (Event.mutates ⟨0⟩) < UInt64.size :=
    Nat.lt_of_le_of_lt List.countP_le_length (by decide)
  have shown : (w'.container ⟨0⟩).revision = (w.container ⟨0⟩).revision := by cbv
  obtain ⟨_, _, _, counts'⟩ := revision_is_change_key longer (a := ⟨0⟩) (of_decide_eq_true (by cbv))
  obtain ⟨moved, _⟩ := counts' _ w'' further
  have both : (eventsFrom w' [] addedAndRemoved).countP (Event.mutates ⟨0⟩) = 2 := by
    refine List.countP_eq_length.mpr (List.forall_mem_cons.mpr
      ⟨Event.mutates_iff.mpr ⟨.removeAt 0, rfl, by cbv⟩, List.forall_mem_singleton.mpr ?_⟩)
    exact Event.mutates_iff.mpr ⟨.append (.int 2), rfl, rfl⟩
  refine ⟨(acts (.setAt 5 (.int 9))).refused _ (by cbv), shown, (tells few shown).2, ?_⟩
  rw [moved, both]
  rfl

end ArrayBridge
