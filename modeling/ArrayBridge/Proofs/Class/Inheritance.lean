import Mathlib.Data.Set.Basic
import ArrayBridge.World.Basic

/-!
# Inheritance

A record carries its bases with it, and inheritance walks up along them comparing identities. So
there are two relations: to be in the row of a record (`ClassInfo.ancestors`), which is always an
order, and to inherit, which is one only where an identity has one record (`OneRecordEach`). There
the two are the same (`OneRecordEach.inherits_iff_mem`), and every law of inheritance is read off
from rows: a row is the end of every row that it is in, and two ends of one row are comparable.

**Tags** of objects ask for inheritance of the object's class, so they are ordered as the classes
are: what one admits is admitted by those of the bases, and tags that admit one object belong to
classes in one row.
-/

namespace ArrayBridge

namespace ClassInfo

variable {a b c : ClassInfo}

/-! ## Rows -/

theorem self_mem_ancestors (cls : ClassInfo) : cls ∈ cls.ancestors := by
  cases cls <;> exact List.mem_cons_self

/-- From each of the bases on, the row is the row of that base. -/
theorem ancestors_of_append {cls owner : ClassInfo} {nearer further : List ClassInfo}
    (row : cls.ancestors = nearer ++ owner :: further) : owner.ancestors = owner :: further := by
  induction cls generalizing nearer with
  | root name id refcounted =>
    cases nearer with
    | nil =>
      obtain ⟨rfl, rfl⟩ := List.cons.inj row
      rfl
    | cons _ _ => simp [ancestors] at row
  | derived name id refcounted base ih =>
    cases nearer with
    | nil =>
      obtain ⟨rfl, rfl⟩ := List.cons.inj row
      rfl
    | cons _ rest => exact ih (List.cons.inj row).2

/-- To be in a row is to have the end of it as one's own. -/
theorem mem_ancestors_iff : b ∈ a.ancestors ↔ b.ancestors <:+ a.ancestors := by
  constructor
  · intro mem
    obtain ⟨nearer, further, row⟩ := List.append_of_mem mem
    exact ⟨nearer, by rw [ancestors_of_append row, row]⟩
  · intro suffix
    exact suffix.subset (self_mem_ancestors b)

/-- A row tells whose it is. -/
theorem ancestors_injective (same : a.ancestors = b.ancestors) : a = b := by
  cases a <;> cases b <;> exact (List.cons.inj same).1

theorem inherits_iff : a.inherits b = true ↔ ∃ base ∈ a.ancestors, base.id = b.id := by
  simp [inherits]

theorem inherits_of_mem (mem : b ∈ a.ancestors) : a.inherits b = true :=
  inherits_iff.mpr ⟨b, mem, rfl⟩

@[simp] theorem inherits_self (cls : ClassInfo) : cls.inherits cls = true :=
  inherits_of_mem (self_mem_ancestors cls)

/-! ## One record to an identity -/

/-- Records, and all their bases. -/
def withBases (records : Set ClassInfo) : Set ClassInfo :=
  {cls | ∃ record ∈ records, cls ∈ record.ancestors}

theorem subset_withBases (records : Set ClassInfo) : records ⊆ withBases records :=
  fun cls mem => ⟨cls, mem, self_mem_ancestors cls⟩

/-- A base of what is among them is among them. -/
theorem withBases_of_mem {records : Set ClassInfo} (among : a ∈ withBases records)
    (mem : b ∈ a.ancestors) : b ∈ withBases records := by
  obtain ⟨record, given, above⟩ := among
  exact ⟨record, given, (mem_ancestors_iff.mp above).subset mem⟩

/-- **No identity has two records**, among the given ones and their bases. -/
def OneRecordEach (records : Set ClassInfo) : Prop :=
  ∀ cls ∈ withBases records, ∀ cls' ∈ withBases records, cls.id = cls'.id → cls = cls'

namespace OneRecordEach

variable {records : Set ClassInfo}

/-- To inherit from a class is to have its record in the row. -/
theorem inherits_iff_mem (one : OneRecordEach records) (among : a ∈ withBases records)
    (among' : b ∈ withBases records) : a.inherits b = true ↔ b ∈ a.ancestors := by
  constructor
  · intro inherits
    obtain ⟨base, mem, id⟩ := inherits_iff.mp inherits
    rwa [← one base (withBases_of_mem among mem) b among' id]
  · exact inherits_of_mem

theorem inherits_iff_suffix (one : OneRecordEach records) (among : a ∈ withBases records)
    (among' : b ∈ withBases records) :
    a.inherits b = true ↔ b.ancestors <:+ a.ancestors :=
  (one.inherits_iff_mem among among').trans mem_ancestors_iff

theorem trans (one : OneRecordEach records) (ha : a ∈ withBases records)
    (hb : b ∈ withBases records) (hc : c ∈ withBases records) (ab : a.inherits b = true)
    (bc : b.inherits c = true) : a.inherits c = true := by
  have below : b.ancestors <:+ a.ancestors := (one.inherits_iff_suffix ha hb).mp ab
  have above : c.ancestors <:+ b.ancestors := (one.inherits_iff_suffix hb hc).mp bc
  exact (one.inherits_iff_suffix ha hc).mpr (above.trans below)

/-- Two classes that inherit from each other have one row, and so are one. -/
theorem antisymm (one : OneRecordEach records) (ha : a ∈ withBases records)
    (hb : b ∈ withBases records) (ab : a.inherits b = true) (ba : b.inherits a = true) :
    a = b := by
  have below : b.ancestors <:+ a.ancestors := (one.inherits_iff_suffix ha hb).mp ab
  have above : a.ancestors <:+ b.ancestors := (one.inherits_iff_suffix hb ha).mp ba
  exact ancestors_injective (above.eq_of_length_le below.length_le)

/-- What one class inherits from stands in one row. -/
theorem comparable (one : OneRecordEach records) (hc : c ∈ withBases records)
    (ha : a ∈ withBases records) (hb : b ∈ withBases records) (ca : c.inherits a = true)
    (cb : c.inherits b = true) : a.inherits b = true ∨ b.inherits a = true := by
  have above : a.ancestors <:+ c.ancestors := (one.inherits_iff_suffix hc ha).mp ca
  have above' : b.ancestors <:+ c.ancestors := (one.inherits_iff_suffix hc hb).mp cb
  rcases List.suffix_or_suffix_of_suffix above above' with shorter | longer
  · exact .inr ((one.inherits_iff_suffix hb ha).mpr shorter)
  · exact .inl ((one.inherits_iff_suffix ha hb).mpr longer)

end OneRecordEach

/-! ## Derivation in steps -/

/-- The class that a chain of derivations ends with, one for each name and identity. -/
def extendAll (base : ClassInfo) (steps : List (String × ClassId)) : ClassInfo :=
  steps.foldl (fun cls step => cls.extend step.1 step.2) base

theorem extendAll_cons (base : ClassInfo) (step : String × ClassId)
    (steps : List (String × ClassId)) :
    base.extendAll (step :: steps) = (base.extend step.1 step.2).extendAll steps :=
  rfl

/-- A chain keeps the way in which instances are freed. -/
theorem refcounted_extendAll (base : ClassInfo) (steps : List (String × ClassId)) :
    (base.extendAll steps).refcounted = base.refcounted := by
  induction steps generalizing base with
  | nil => rfl
  | cons step steps ih =>
    calc (base.extendAll (step :: steps)).refcounted
        = (base.extend step.1 step.2).refcounted := by rw [extendAll_cons, ih]
      _ = base.refcounted := rfl

/-- What a chain starts with is above what it ends with. -/
theorem mem_ancestors_extendAll (base : ClassInfo) (steps : List (String × ClassId)) :
    base ∈ (base.extendAll steps).ancestors := by
  induction steps generalizing base with
  | nil => exact self_mem_ancestors base
  | cons step steps ih =>
    have below : (base.extend step.1 step.2).ancestors <:+
        (base.extendAll (step :: steps)).ancestors := mem_ancestors_iff.mp (ih _)
    exact below.subset (List.mem_cons_of_mem _ (self_mem_ancestors base))

/-! ## The laws together -/

/-- **Inheritance is the order of a forest.** Among records, with their bases, of which no two have
one identity:

- it is reflexive, transitive and antisymmetric, where classes that inherit from each other even
  have one record;
- a class inherits from another exactly if the row of the other is the end of its row;
- any two classes that one inherits from are comparable, in particular any two in its row.

For an object of such a class, in any world, freed or not, what the tag of a class admits is
admitted by the tag of every class above it, and the classes of two tags that admit it are
comparable. A class that was derived in any number of steps is freed as the class at the start is,
and inherits from that. -/
theorem inheritance_is_forest_order {records : Set ClassInfo} (one : OneRecordEach records) :
    (∀ a ∈ withBases records, a.inherits a = true) ∧
    (∀ a ∈ withBases records, ∀ b ∈ withBases records, ∀ c ∈ withBases records,
      a.inherits b = true → b.inherits c = true → a.inherits c = true) ∧
    (∀ a ∈ withBases records, ∀ b ∈ withBases records,
      a.inherits b = true → b.inherits a = true → a.id = b.id ∧ a = b) ∧
    (∀ a ∈ withBases records, ∀ b ∈ withBases records,
      a.inherits b = true ↔ b.ancestors <:+ a.ancestors) ∧
    (∀ c ∈ withBases records, ∀ a ∈ withBases records, ∀ b ∈ withBases records,
      c.inherits a = true → c.inherits b = true → a.inherits b = true ∨ b.inherits a = true) ∧
    (∀ c ∈ withBases records, ∀ a ∈ c.ancestors, ∀ b ∈ c.ancestors,
      a.inherits b = true ∨ b.inherits a = true) ∧
    (∀ (w : World) (o : ObjectId), (w.object o).cls ∈ withBases records →
      ∀ a ∈ withBases records, ∀ b ∈ withBases records,
        w.admits (.object b) (.object o) = true →
          (b.inherits a = true → w.admits (.object a) (.object o) = true) ∧
          (w.admits (.object a) (.object o) = true →
            a.inherits b = true ∨ b.inherits a = true)) ∧
    ∀ (start : ClassInfo) (steps : List (String × ClassId)),
      (start.extendAll steps).refcounted = start.refcounted ∧
        (start.extendAll steps).inherits start = true := by
  refine ⟨fun a _ => inherits_self a, fun a ha b hb c hc => one.trans ha hb hc,
    fun a ha b hb ab ba => ?_, fun a ha b hb => one.inherits_iff_suffix ha hb,
    fun c hc a ha b hb => one.comparable hc ha hb, fun c hc a above b above' => ?_,
    fun w o hc a ha b hb admitted => ⟨fun inherits => ?_, fun admitted' => ?_⟩,
    fun start steps => ⟨refcounted_extendAll start steps,
      inherits_of_mem (mem_ancestors_extendAll start steps)⟩⟩
  · obtain rfl := one.antisymm ha hb ab ba
    exact ⟨rfl, rfl⟩
  · exact one.comparable hc (withBases_of_mem hc above) (withBases_of_mem hc above')
      (inherits_of_mem above) (inherits_of_mem above')
  · exact one.trans hc hb ha admitted inherits
  · exact one.comparable hc ha hb admitted' admitted

/-- Of two branches, one counts references. -/
def twoBranches : List ClassInfo :=
  [refCounted.extendAll [("Resource", ⟨2⟩), ("Texture", ⟨3⟩)], object.extend "Node" ⟨4⟩]

/-- The tag of the object's class admits it, so those of all its bases do, and that of the other
branch does not. -/
theorem inheritance_is_forest_order_twoBranches : OneRecordEach {cls | cls ∈ twoBranches} ∧
    ∀ w : World, (w.object ⟨0⟩).cls = refCounted.extendAll [("Resource", ⟨2⟩), ("Texture", ⟨3⟩)] →
      (∀ base ∈ (w.object ⟨0⟩).cls.ancestors, w.admits (.object base) (.object ⟨0⟩) = true) ∧
      w.admits (.object (object.extend "Node" ⟨4⟩)) (.object ⟨0⟩) = false := by
  have one : OneRecordEach {cls | cls ∈ twoBranches} := by
    rintro a ⟨record, given, mem⟩ b ⟨record', given', mem'⟩ id
    have all : ∀ record ∈ twoBranches, ∀ record' ∈ twoBranches, ∀ a ∈ record.ancestors,
        ∀ b ∈ record'.ancestors, a.id = b.id → a = b := by decide
    exact all record given record' given' a mem b mem' id
  obtain ⟨self, _, _, _, _, _, tags, _⟩ := inheritance_is_forest_order one
  refine ⟨one, fun w cls => ⟨fun base above => ?_, ?_⟩⟩
  · have given : (w.object ⟨0⟩).cls ∈ withBases {cls | cls ∈ twoBranches} :=
      subset_withBases _ (cls ▸ List.mem_cons_self)
    exact (tags w ⟨0⟩ given base (withBases_of_mem given above) _ given (self _ given)).1
      (inherits_of_mem above)
  · show (w.object ⟨0⟩).cls.inherits _ = false
    rw [cls]
    decide

/-- With two records of one identity inheritance is not even transitive. -/
example : ((root "Mid" ⟨7⟩ false).extend "Low" ⟨8⟩).inherits (object.extend "Mid" ⟨7⟩) = true ∧
    (object.extend "Mid" ⟨7⟩).inherits object = true ∧
    ((root "Mid" ⟨7⟩ false).extend "Low" ⟨8⟩).inherits object = false := by decide

end ClassInfo

end ArrayBridge
