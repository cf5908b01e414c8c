import ArrayBridge.Proofs.Run.Frame
import Mathlib.Tactic

/-!
# Scripts

What can be done is decidable, so a run that is written out as a list of actions can be checked by
evaluation. This is for runs that serve as examples.
-/

namespace ArrayBridge

namespace World

/-- The bridges that cannot be reached because of an object: those in its payload, while nobody
looks at that. -/
def shutIn (w : World) (o : ObjectId) : List Nat :=
  if (w.object o).borrow = .idle then
    ((w.fields? o).getD []).map fun f => f.target.ref.slot
  else []

/-- Whether a bridge can be reached, looked up object by object. -/
def reachable (w : World) (slot : Nat) : Bool :=
  (List.range w.objects.size).all fun n => slot ∉ w.shutIn ⟨n⟩

theorem reachable_iff {w : World} {slot : Nat} : w.reachable slot = true ↔ w.AtHand slot := by
  simp only [reachable, List.all_eq_true, decide_eq_true_eq]
  constructor
  · intro outside o fields there field idle
    apply outside o.slot (List.mem_range.mpr (lt_of_fields? there))
    unfold shutIn
    rw [if_pos idle, there]
    exact List.mem_map.mpr field
  · intro hand n _ shut
    unfold shutIn at shut
    split at shut
    · rename_i idle
      cases there : w.fields? ⟨n⟩ with
      | none => rw [there] at shut; cases shut
      | some fields =>
        rw [there] at shut
        exact hand ⟨n⟩ fields there (List.mem_map.mp shut) idle
    · cases shut

instance (w : World) (slot : Nat) : Decidable (w.AtHand slot) :=
  decidable_of_iff _ reachable_iff

instance (w : World) (v : Variant) : Decidable (w.Knows v) :=
  match v with
  | .object o => inferInstanceAs (Decidable (o.slot < w.objects.size))
  | .array a => inferInstanceAs (Decidable (a.slot < w.containers.size))
  | .nil | .bool _ | .int _ | .float _ | .string _ => isTrue trivial

/-- Whether the handles on the objects that are lent out are among some handles. -/
theorem keepsLent_iff {w : World} {kept : List Variant} :
    (∀ o, (w.object o).borrow ≠ .idle → Variant.object o ∈ kept) ↔
      ∀ n ∈ List.range w.objects.size,
        (w.object ⟨n⟩).borrow ≠ .idle → Variant.object ⟨n⟩ ∈ kept := by
  constructor
  · intro all n _ lent
    exact all ⟨n⟩ lent
  · intro each o lent
    rcases Nat.lt_or_ge o.slot w.objects.size with known | beyond
    · exact each o.slot (List.mem_range.mpr known) lent
    · rw [object_of_ge beyond] at lent
      exact absurd rfl lent

end World

instance (b : Borrow) : Decidable (∃ readers, b = .shared readers) :=
  match b with
  | .shared readers => isTrue ⟨readers, rfl⟩
  | .idle => isFalse fun ⟨_, h⟩ => by cases h
  | .exclusive => isFalse fun ⟨_, h⟩ => by cases h

instance (w : World) (a : Action) : Decidable (a.Allowed w) :=
  match a with
  | .allocate _ _ payload =>
    inferInstanceAs (Decidable (∀ f ∈ payload.fields, f.target.ref.slot < w.bridges.size))
  | .reference o | .unreference o => inferInstanceAs (Decidable (w.Knows (.object o)))
  | .lendExclusively o =>
    inferInstanceAs (Decidable (Variant.object o ∈ w.outside ∧ (w.writable? o).isSome))
  | .lendToReader o =>
    inferInstanceAs (Decidable (Variant.object o ∈ w.outside ∧ (w.readable? o).isSome))
  | .returnExclusive o => inferInstanceAs (Decidable ((w.object o).borrow = .exclusive))
  | .returnFromReader o =>
    inferInstanceAs (Decidable (∃ readers, (w.object o).borrow = .shared readers))
  | .newArray _ handles | .keep handles => inferInstanceAs (Decidable (∀ v ∈ handles, w.Knows v))
  | .append _ v | .tryAppend _ v | .setAt _ _ v | .insertAt _ _ v =>
    inferInstanceAs (Decidable (w.Knows v))
  | .newBridge T values _ => inferInstanceAs (Decidable (∀ x ∈ values, w.Knows (T.encode x)))
  | .dropBridge r | .readNative r | .openSession r => inferInstanceAs (Decidable (w.AtHand r.slot))
  | @Action.writeNative T r values | @Action.closeSession T r values =>
    inferInstanceAs (Decidable (w.AtHand r.slot ∧ ∀ x ∈ values, w.Knows (T.encode x)))
  | @Action.pushNative T r x =>
    inferInstanceAs (Decidable (w.AtHand r.slot ∧ w.Knows (T.encode x)))
  | .writeUntyped r candidate =>
    inferInstanceAs (Decidable (w.AtHand r.slot ∧ w.Knows (.array candidate)))
  | .setAccessor r arguments =>
    inferInstanceAs (Decidable (w.AtHand r.slot ∧ ∀ v ∈ arguments, w.Knows v))
  | .letGo _ => decidable_of_iff _ World.keepsLent_iff.symm
  | .free .. | .setValue .. | .duplicate .. | .removeAt .. | .clear .. | .setPolicy .. | .settle
  | .note .. => isTrue trivial

/-- The events of a script that goes on after some others. -/
def eventsFrom (w : World) (past : List Event) : List Action → List Event
  | [] => past
  | a :: rest => eventsFrom (w.step a) (⟨w, a⟩ :: past) rest

/-- The world that a script leads to. -/
def worldFrom (w : World) (script : List Action) : World := script.foldl World.step w

/-- Whether each action of a script can be done when its turn comes. -/
def feasibleFrom (w : World) : List Action → Bool
  | [] => true
  | a :: rest => decide (a.Allowed w) && feasibleFrom (w.step a) rest

theorem Run.script {past : List Event} {w : World} (run : Run past w) (script : List Action)
    (feasible : feasibleFrom w script = true) :
    Run (eventsFrom w past script) (worldFrom w script) := by
  induction script generalizing past w with
  | nil => exact run
  | cons a rest ih =>
    obtain ⟨allowed, later⟩ := Bool.and_eq_true_iff.mp feasible
    exact ih (run.step a (of_decide_eq_true allowed)) later

end ArrayBridge
