import Mathlib.Data.Finset.Card
import Mathlib.Logic.Relation
import ArrayBridge.Proofs.Run
import ArrayBridge.World.Compare

/-!
# Equality of values is a partial equivalence

**How two values are compared** is told by `World.Compares`, one rule for each way to an answer and
with no bound on the depth. Where containers contain themselves a comparison need not come to an
answer. `World.equal` bounds the depth by the number of containers, and that it is the same where
one of the two values is acyclic is the main point here (`compares_iff`): a chain of containers that
is longer than there are containers passes through one of them twice.

**The laws.** Symmetry and transitivity hold depth by depth, by one induction each, in which a
comparison of two containers may be decided by what they are or by what they hold. Reflexivity fails
for a NaN and for nothing else, since a container is itself before its elements are looked at.
-/

namespace ArrayBridge

namespace Binary

variable {f : BinaryFormat} {x y z : Binary f}

theorem numEq_iff : x.numEq y = true ↔ x.isNaN = false ∧ y.isNaN = false ∧
    (x.bits = y.bits ∨ (x.magnitude = 0 ∧ y.magnitude = 0)) := by
  simp [numEq, and_assoc]

theorem numEq_comm (x y : Binary f) : x.numEq y = y.numEq x := by
  rw [Bool.eq_iff_iff, numEq_iff, numEq_iff, and_left_comm, eq_comm (a := x.bits),
    and_comm (a := x.magnitude = 0)]

theorem numEq_trans (xy : x.numEq y = true) (yz : y.numEq z = true) : x.numEq z = true := by
  obtain ⟨numberX, numberY, same⟩ := numEq_iff.mp xy
  obtain ⟨_, numberZ, same'⟩ := numEq_iff.mp yz
  refine numEq_iff.mpr ⟨numberX, numberZ, ?_⟩
  rcases same with bits | ⟨zeroX, zeroY⟩
  · rwa [magnitude, bits]
  · rcases same' with bits' | ⟨_, zeroZ⟩
    · rw [magnitude, bits'] at zeroY
      exact .inr ⟨zeroX, zeroY⟩
    · exact .inr ⟨zeroX, zeroZ⟩

theorem numEq_self (x : Binary f) : x.numEq x = !x.isNaN := by
  simp [numEq]

end Binary

namespace Variant

/-- Equality of values of which at most one is an array. -/
def sameScalar : Variant → Variant → Bool
  | .nil, .nil => true
  | .bool x, .bool y => x == y
  | .int x, .int y => x == y
  | .float x, .float y => x.numEq y
  | .string x, .string y => x == y
  | .object x, .object y => x == y
  | _, _ => false

theorem sameScalar_comm (x y : Variant) : x.sameScalar y = y.sameScalar x := by
  cases x <;> cases y <;> simp [sameScalar, Binary.numEq_comm, Bool.beq_comm]

/-- Of the scalars, only floats may be equal without being the same. -/
theorem eq_of_sameScalar {x y : Variant} (kind : x.kind ≠ .float)
    (same : x.sameScalar y = true) : x = y := by
  cases x <;> cases y <;> simp_all [sameScalar, Variant.kind]

theorem scalars_of_sameScalar {x y : Variant} (same : x.sameScalar y = true) :
    x.array? = none ∧ y.array? = none := by
  cases x <;> cases y <;> simp_all [sameScalar, array?]

theorem sameScalar_trans {x y z : Variant} (xy : x.sameScalar y = true)
    (yz : y.sameScalar z = true) : x.sameScalar z = true := by
  by_cases kind : x.kind = .float
  · cases x with
    | float x =>
      cases y with
      | float y =>
        cases z with
        | float z => exact Binary.numEq_trans xy yz
        | _ => cases yz
      | _ => cases xy
    | _ => cases kind
  · rwa [eq_of_sameScalar kind xy]

theorem scalar_or_arrays (x y : Variant) :
    (x.array? = none ∨ y.array? = none) ∨ ∃ a b, x = .array a ∧ y = .array b := by
  cases x <;> cases y <;> simp [array?]

end Variant

namespace World

variable {w w' : World} {x y z v : Variant} {a b : ArrayId} {r r' : Bool}

/-! ## How two values are compared -/

/-- **A comparison and its answer.** Two containers are equal if they are one; else their lengths
are compared, and then their elements in order, up to the first that differ. -/
inductive Compares (w : World) : Variant → Variant → Bool → Prop where
  | scalar (x y : Variant) (scalar : x.array? = none ∨ y.array? = none) :
    Compares w x y (x.sameScalar y)
  | same (a : ArrayId) : Compares w (.array a) (.array a) true
  | length {a b : ArrayId} (other : a ≠ b)
      (lengths : (w.container a).items.length ≠ (w.container b).items.length) :
    Compares w (.array a) (.array b) false
  | equal {a b : ArrayId} (other : a ≠ b)
      (lengths : (w.container a).items.length = (w.container b).items.length)
      (all : ∀ (i : Nat) (x y : Variant), (w.container a).items[i]? = some x →
        (w.container b).items[i]? = some y → Compares w x y true) :
    Compares w (.array a) (.array b) true
  | differ {a b : ArrayId} (other : a ≠ b)
      (lengths : (w.container a).items.length = (w.container b).items.length)
      {i : Nat} {x y : Variant} (here : (w.container a).items[i]? = some x)
      (there : (w.container b).items[i]? = some y)
      (before : ∀ j < i, ∀ x y : Variant, (w.container a).items[j]? = some x →
        (w.container b).items[j]? = some y → Compares w x y true)
      (unequal : Compares w x y false) :
    Compares w (.array a) (.array b) false

/-- A comparison has one answer. -/
theorem Compares.unique (h : w.Compares x y r) (h' : w.Compares x y r') : r = r' := by
  induction h generalizing r' with
  | scalar x y scalar =>
    cases h' with
    | scalar => rfl
    | _ => simp [Variant.array?] at scalar
  | same a =>
    cases h' with
    | scalar _ _ scalar => simp [Variant.array?] at scalar
    | same => rfl
    | length other | equal other | differ other => exact absurd rfl other
  | length other lengths =>
    cases h' with
    | scalar _ _ scalar => simp [Variant.array?] at scalar
    | same => exact absurd rfl other
    | length => rfl
    | equal _ lengths' => exact absurd lengths' lengths
    | differ => rfl
  | equal other lengths all ih =>
    cases h' with
    | scalar _ _ scalar => simp [Variant.array?] at scalar
    | same => rfl
    | length _ lengths' => exact absurd lengths lengths'
    | equal => rfl
    | differ _ _ here there _ unequal => exact ih _ _ _ here there unequal
  | differ other lengths here there before unequal _ ih =>
    cases h' with
    | scalar _ _ scalar => simp [Variant.array?] at scalar
    | same => exact absurd rfl other
    | length => rfl
    | equal _ _ all => exact ih (all _ _ _ here there)
    | differ => rfl

/-- It is found alike from either side. -/
theorem Compares.symm (h : w.Compares x y r) : w.Compares y x r := by
  induction h with
  | scalar x y scalar =>
    rw [x.sameScalar_comm]
    exact .scalar y x scalar.symm
  | same a => exact .same a
  | length other lengths => exact .length other.symm lengths.symm
  | equal other lengths _ ih =>
    exact .equal other.symm lengths.symm fun i x y here there => ih i y x there here
  | differ other lengths here there _ _ before unequal =>
    exact .differ other.symm lengths.symm there here
      (fun j lt x y here there => before j lt y x there here) unequal

/-- The two containers are one, or their elements are equal in order. -/
def SameContents (w : World) (a b : ArrayId) : Prop :=
  a = b ∨ (w.container a).items.length = (w.container b).items.length ∧
    ∀ (i : Nat) (x y : Variant), (w.container a).items[i]? = some x →
      (w.container b).items[i]? = some y → w.Compares x y true

/-- How two values come to be equal. -/
theorem Compares.cases_true (h : w.Compares x y r) (equal : r = true) :
    x.sameScalar y = true ∨ ∃ a b, x = .array a ∧ y = .array b ∧ w.SameContents a b := by
  cases h with
  | scalar => exact .inl equal
  | same a => exact .inr ⟨a, a, rfl, rfl, .inl rfl⟩
  | length | differ => cases equal
  | @equal a b _ lengths all => exact .inr ⟨a, b, rfl, rfl, .inr ⟨lengths, all⟩⟩

/-- Of three containers, each two neighbours may be one or may hold the same. -/
theorem Compares.trans (xy : w.Compares x y r) (equal : r = true) (yz : w.Compares y z true) :
    w.Compares x z true := by
  induction xy generalizing z with
  | scalar x y =>
    have scalars := Variant.scalars_of_sameScalar equal
    rcases yz.cases_true rfl with same | ⟨b, c, rfl, _⟩
    · rw [← Variant.sameScalar_trans equal same]
      exact .scalar x z (.inl scalars.1)
    · cases scalars.2
  | same a => exact yz
  | length | differ => cases equal
  | @equal a b other lengths all ih =>
    rcases yz.cases_true rfl with same | ⟨_, c, here, rfl, rfl | ⟨lengths', all'⟩⟩
    · cases (Variant.scalars_of_sameScalar same).1
    · cases here
      exact .equal other lengths all
    cases here
    by_cases back : a = c
    · subst back
      exact .same a
    refine .equal back (lengths.trans lengths') fun i x z first third => ?_
    obtain ⟨y, second⟩ : ∃ y, (w.container b).items[i]? = some y := by
      have bound : i < (w.container a).items.length := (List.getElem?_eq_some_iff.mp first).1
      exact ⟨_, List.getElem?_eq_getElem (lengths ▸ bound)⟩
    exact ih i x y first second rfl (all' i y z second third)

/-- Tags, revisions and whatever else is in a world play no part. -/
theorem Compares.congr (items : ∀ a, (w'.container a).items = (w.container a).items)
    (h : w.Compares x y r) : w'.Compares x y r := by
  induction h with
  | scalar x y scalar => exact .scalar x y scalar
  | same a => exact .same a
  | length other lengths => exact .length other (by rwa [items, items])
  | equal other lengths _ ih =>
    refine .equal other (by rwa [items, items]) fun i x y here there => ?_
    rw [items] at here there
    exact ih i x y here there
  | differ other lengths here there _ _ before unequal =>
    refine .differ other (by rwa [items, items]) (by rwa [items]) (by rwa [items])
      (fun j lt x y here there => ?_) unequal
    rw [items] at here there
    exact before j lt x y here there

/-! ## Lists compared element by element -/

section Pairwise

variable {related : Variant → Variant → Bool} {xs ys : List Variant}

theorem pairwise_eq_true_iff : pairwise related xs ys = true ↔ xs.length = ys.length ∧
    ∀ (i : Nat) (x y : Variant), xs[i]? = some x → ys[i]? = some y → related x y = true := by
  induction xs generalizing ys with
  | nil => cases ys <;> simp [pairwise]
  | cons x xs ih =>
    cases ys with
    | nil => simp [pairwise]
    | cons y ys =>
      simp only [pairwise, Bool.and_eq_true, ih, List.length_cons, Nat.add_right_cancel_iff]
      constructor
      · rintro ⟨first, lengths, rest⟩
        refine ⟨lengths, fun i => ?_⟩
        cases i with
        | zero => simpa using first
        | succ i => simpa using rest i
      · rintro ⟨lengths, all⟩
        exact ⟨by simpa using all 0, lengths, fun i => by simpa using all (i + 1)⟩

/-- Lists of one length are unequal at a first place. -/
theorem exists_first_of_pairwise_eq_false (lengths : xs.length = ys.length)
    (unequal : pairwise related xs ys = false) :
    ∃ (i : Nat) (x y : Variant), xs[i]? = some x ∧ ys[i]? = some y ∧ related x y = false ∧
      ∀ j < i, ∀ x y : Variant, xs[j]? = some x → ys[j]? = some y → related x y = true := by
  induction xs generalizing ys with
  | nil =>
    cases ys with
    | nil => cases unequal
    | cons y ys => cases lengths
  | cons x xs ih =>
    cases ys with
    | nil => cases lengths
    | cons y ys =>
      cases first : related x y with
      | false => exact ⟨0, x, y, rfl, rfl, first, fun j lt => absurd lt (Nat.not_lt_zero j)⟩
      | true =>
        rw [pairwise, first, Bool.true_and] at unequal
        obtain ⟨i, u, v, here, there, differ, before⟩ := ih (Nat.succ.inj lengths) unequal
        refine ⟨i + 1, u, v, here, there, differ, fun j lt => ?_⟩
        cases j with
        | zero => simpa using first
        | succ j => simpa using before j (Nat.lt_of_succ_lt_succ lt)

theorem pairwise_comm (comm : ∀ x y, related x y = related y x) (xs ys : List Variant) :
    pairwise related xs ys = pairwise related ys xs := by
  induction xs generalizing ys with
  | nil => cases ys <;> rfl
  | cons x xs ih =>
    cases ys with
    | nil => rfl
    | cons y ys => rw [pairwise, pairwise, comm, ih]

theorem pairwise_self_iff : pairwise related xs xs = true ↔ ∀ x ∈ xs, related x x = true := by
  induction xs with
  | nil => simp [pairwise]
  | cons x xs ih => simp [pairwise, ih]

/-- The answers for the elements give that for two containers. -/
theorem compares_contents (other : a ≠ b)
    (elements : ∀ (i : Nat) (x y : Variant), (w.container a).items[i]? = some x →
      (w.container b).items[i]? = some y → w.Compares x y (related x y)) :
    w.Compares (.array a) (.array b)
      (pairwise related (w.container a).items (w.container b).items) := by
  by_cases lengths : (w.container a).items.length = (w.container b).items.length
  · cases answer : pairwise related (w.container a).items (w.container b).items with
    | true =>
      refine .equal other lengths fun i x y here there => ?_
      rw [← (pairwise_eq_true_iff.mp answer).2 i x y here there]
      exact elements i x y here there
    | false =>
      obtain ⟨i, x, y, here, there, differ, before⟩ :=
        exists_first_of_pairwise_eq_false lengths answer
      refine .differ other lengths here there (fun j lt x y here there => ?_) ?_
      · rw [← before j lt x y here there]
        exact elements j x y here there
      · rw [← differ]
        exact elements i x y here there
  · have answer : pairwise related (w.container a).items (w.container b).items = false :=
      Bool.eq_false_iff.mpr fun equal => lengths (pairwise_eq_true_iff.mp equal).1
    rw [answer]
    exact .length other lengths

end Pairwise

/-! ## Acyclic values -/

/-- The first container has the second as an element. -/
def Contains (w : World) (a b : ArrayId) : Prop := .array b ∈ (w.container a).items

theorem slot_lt_of_mem_items (mem : v ∈ (w.container a).items) : a.slot < w.containers.size := by
  by_contra beyond
  have none : w.container a = default := by simp [container, Array.getD, beyond]
  rw [none] at mem
  cases mem

/-- **Acyclic values**: no container that is reached from the value is reached from itself. -/
def Acyclic (w : World) (v : Variant) : Prop :=
  ∀ a, v = .array a → ∀ b, Relation.ReflTransGen w.Contains a b →
    ¬ Relation.TransGen w.Contains b b

theorem Acyclic.item (h : w.Acyclic (.array a)) (mem : v ∈ (w.container a).items) :
    w.Acyclic v := by
  rintro b rfl c path
  exact h a rfl c (.head mem path)

theorem acyclic_congr (items : ∀ a, (w'.container a).items = (w.container a).items) :
    w'.Acyclic v ↔ w.Acyclic v := by
  have same : w'.Contains = w.Contains := by
    funext a b
    rw [Contains, Contains, items]
  rw [Acyclic, Acyclic, same]

/-- Where containers hold only older ones, all values are acyclic. -/
theorem acyclic_of_older (older : ∀ a b, w.Contains a b → b.slot < a.slot) (v : Variant) :
    w.Acyclic v := by
  have descends : ∀ a b, Relation.TransGen w.Contains a b → b.slot < a.slot := by
    intro a b path
    induction path with
    | single edge => exact older a _ edge
    | tail _ edge ih => exact (older _ _ edge).trans ih
  rintro a rfl b _ back
  exact Nat.lt_irrefl _ (descends b b back)

/-- Two containers that hold nothing but themselves: their comparison has no answer. -/
theorem not_compares_of_loops (other : a ≠ b) (loop : (w.container a).items = [.array a])
    (loop' : (w.container b).items = [.array b]) : ¬ w.Compares (.array a) (.array b) r := by
  intro h
  generalize first : Variant.array a = x at h
  generalize second : Variant.array b = y at h
  induction h with
  | scalar x y scalar =>
    subst first second
    simp [Variant.array?] at scalar
  | same c => exact other (Variant.array.inj (first.trans second.symm))
  | length _ lengths =>
    cases first
    cases second
    rw [loop, loop'] at lengths
    exact lengths rfl
  | equal _ _ _ ih =>
    cases first
    cases second
    exact ih 0 _ _ (by rw [loop]; rfl) (by rw [loop']; rfl) rfl rfl
  | @differ _ _ _ _ i x y here there _ _ _ ih =>
    cases first
    cases second
    rw [loop] at here
    rw [loop'] at there
    exact ih (List.mem_singleton.mp (List.mem_of_getElem? here)).symm
      (List.mem_singleton.mp (List.mem_of_getElem? there)).symm

/-- No chain of containers that starts with the value has more than `n` of them. -/
inductive Nested (w : World) : Nat → Variant → Prop where
  | scalar (n : Nat) {v : Variant} (scalar : v.array? = none) : Nested w n v
  | array {n : Nat} {a : ArrayId} (items : ∀ v ∈ (w.container a).items, Nested w n v) :
    Nested w (n + 1) (.array a)

/-- Each container of a chain is another one, so those that are left bound what is still to come.
`seen` are the places of those that lead to this one. -/
theorem nested_of_seen {n : Nat} (seen : Finset Nat) (acyclic : w.Acyclic (.array a))
    (lead : ∀ b : ArrayId, b.slot ∈ seen →
      b.slot < w.containers.size ∧ Relation.TransGen w.Contains b a)
    (room : w.containers.size < seen.card + n) : w.Nested n (.array a) := by
  induction n generalizing seen a with
  | zero =>
    have bound : seen ⊆ Finset.range w.containers.size := fun slot mem =>
      Finset.mem_range.mpr (lead ⟨slot⟩ mem).1
    have card := Finset.card_le_card bound
    rw [Finset.card_range] at card
    omega
  | succ n ih =>
    refine .array fun v mem => ?_
    cases v with
    | array b =>
      have fresh : a.slot ∉ seen := fun again =>
        acyclic a rfl a .refl (lead a again).2
      refine ih (insert a.slot seen) (acyclic.item mem) (fun c before => ?_) ?_
      · rcases Finset.mem_insert.mp before with this | earlier
        · obtain rfl : c = a := congrArg ArrayId.mk this
          exact ⟨slot_lt_of_mem_items mem, .single mem⟩
        · exact ⟨(lead c earlier).1, (lead c earlier).2.tail mem⟩
      · rw [Finset.card_insert_of_notMem fresh]
        omega
    | _ => exact .scalar n rfl

/-- **An acyclic value is no deeper than the bound.** -/
theorem Acyclic.nested (h : w.Acyclic v) : w.Nested w.depth v := by
  cases v with
  | array a =>
    refine nested_of_seen ∅ h (fun b mem => absurd mem (Finset.notMem_empty _)) ?_
    rw [Finset.card_empty, depth]
    omega
  | _ => exact .scalar _ rfl

/-! ## The bounded comparison -/

theorem equalTo_scalar (scalar : x.array? = none ∨ y.array? = none) (n : Nat) :
    w.equalTo n x y = x.sameScalar y := by
  cases n <;> cases x <;> cases y <;> simp [Variant.array?] at scalar <;> rfl

theorem equalTo_array (n : Nat) (a b : ArrayId) : w.equalTo (n + 1) (.array a) (.array b) =
    (a == b || pairwise (w.equalTo n) (w.container a).items (w.container b).items) :=
  rfl

/-- A bound that suffices for the first value gives the answer of the comparison. -/
theorem Nested.compares {n : Nat} (h : w.Nested n x) (y : Variant) :
    w.Compares x y (w.equalTo n x y) := by
  induction h generalizing y with
  | scalar n scalar =>
    rw [equalTo_scalar (.inl scalar) n]
    exact .scalar _ _ (.inl scalar)
  | @array n a _ ih =>
    cases y with
    | array b =>
      rw [equalTo_array]
      by_cases same : a = b
      · subst same
        rw [beq_self_eq_true, Bool.true_or]
        exact .same a
      · rw [beq_false_of_ne same, Bool.false_or]
        exact compares_contents same fun i x y here _ => ih x (List.mem_of_getElem? here) y
    | _ =>
      rw [equalTo_scalar (.inr rfl) _]
      exact .scalar _ _ (.inr rfl)

theorem equalTo_comm (n : Nat) (x y : Variant) : w.equalTo n x y = w.equalTo n y x := by
  induction n generalizing x y with
  | zero =>
    rcases x.scalar_or_arrays y with scalar | ⟨a, b, rfl, rfl⟩
    · rw [equalTo_scalar scalar, equalTo_scalar scalar.symm, x.sameScalar_comm]
    · exact Bool.beq_comm
  | succ n ih =>
    rcases x.scalar_or_arrays y with scalar | ⟨a, b, rfl, rfl⟩
    · rw [equalTo_scalar scalar, equalTo_scalar scalar.symm, x.sameScalar_comm]
    · rw [equalTo_array, equalTo_array, Bool.beq_comm, pairwise_comm ih]

theorem equalTo_self_iff (n : Nat) (v : Variant) :
    w.equalTo n v v = true ↔ ∀ x, v = .float x → x.isNaN = false := by
  cases n <;> cases v <;> simp [equalTo, Binary.numEq_self]

/-! ## The answer -/

/-- **A comparison comes to an answer** where one of the values is acyclic, and `equal` is that. -/
theorem compares_iff (acyclic : w.Acyclic x ∨ w.Acyclic y) :
    w.Compares x y r ↔ w.equal x y = r := by
  have answer : w.Compares x y (w.equal x y) := by
    rcases acyclic with acyclic | acyclic
    · exact acyclic.nested.compares y
    · rw [equal, equalTo_comm]
      exact (acyclic.nested.compares x).symm
  constructor
  · exact answer.unique
  · rintro rfl
    exact answer

theorem compares_equal (acyclic : w.Acyclic x ∨ w.Acyclic y) : w.Compares x y (w.equal x y) :=
  (compares_iff acyclic).mpr rfl

/-- Whether two containers are equal is told by their elements, without a bound. -/
theorem equalArrays_eq (acyclic : w.Acyclic (.array a) ∨ w.Acyclic (.array b)) :
    w.equalArrays a b =
      (a == b || pairwise w.equal (w.container a).items (w.container b).items) := by
  rw [equalArrays]
  by_cases same : a = b
  · subst same
    rw [beq_self_eq_true, Bool.true_or]
    exact (compares_iff acyclic).mp (.same a)
  · rw [beq_false_of_ne same, Bool.false_or]
    refine (compares_iff acyclic).mp (compares_contents same fun i x y here there => ?_)
    exact compares_equal (acyclic.imp (·.item (List.mem_of_getElem? here))
      (·.item (List.mem_of_getElem? there)))

/-- A value is compared with itself without being looked into. -/
theorem compares_self (n : Nat) (v : Variant) : w.Compares v v (w.equalTo n v v) := by
  cases v with
  | array a =>
    rw [(equalTo_self_iff n (.array a)).mpr fun x other => nomatch other]
    exact .same a
  | _ =>
    rw [equalTo_scalar (.inl rfl)]
    exact .scalar _ _ (.inl rfl)

/-- Of two containers with the same elements, each element is compared with itself. -/
theorem compares_same_items (other : a ≠ b)
    (same : (w.container b).items = (w.container a).items) :
    w.Compares (.array a) (.array b) (w.equalArrays a b) ∧
      (w.equalArrays a b = true ↔
        ∀ x, .float x ∈ (w.container a).items → x.isNaN = false) := by
  have answer : w.equalArrays a b =
      pairwise (w.equalTo w.containers.size) (w.container a).items (w.container b).items := by
    rw [equalArrays, equal, depth, equalTo_array, beq_false_of_ne other, Bool.false_or]
  constructor
  · rw [answer]
    refine compares_contents other fun i x y here there => ?_
    rw [same, here] at there
    obtain rfl := Option.some.inj there
    exact compares_self _ x
  · rw [answer, same, pairwise_self_iff]
    constructor
    · intro all x mem
      exact (equalTo_self_iff _ _).mp (all (.float x) mem) x rfl
    · rintro numbers v mem
      exact (equalTo_self_iff _ v).mpr fun x here => numbers x (here ▸ mem)

/-- **Equality of values is a partial equivalence**, in every world.

- A comparison has at most one answer, and it has one, that of `equal`, where one of the two values
  is acyclic, however deep the containers go and whatever they share.
- It is symmetric and transitive.
- A value is equal to itself unless it is a NaN; arrays with a NaN in them are.
- A container is equal to its duplicate exactly if no element of its own is a NaN. It may be cyclic.
- Nothing but the elements of the containers matters: neither marks nor revisions.
- Two arrays of one length are equal if their elements are, one by one. -/
theorem equality_is_partial_equivalence (w : World) :
    (∀ x y, w.Acyclic x ∨ w.Acyclic y → ∀ r, w.Compares x y r ↔ w.equal x y = r) ∧
    (∀ x y r, w.Compares x y r → w.Compares y x r ∧ ∀ r', w.Compares x y r' → r = r') ∧
    (∀ x y, w.equal x y = w.equal y x) ∧
    (∀ x y z, w.Compares x y true → w.Compares y z true → w.Compares x z true) ∧
    (∀ x y z, w.Acyclic x → w.Acyclic y → w.equal x y = true → w.equal y z = true →
      w.equal x z = true) ∧
    (∀ v, w.Compares v v (w.equal v v) ∧
      (w.equal v v = true ↔ ∀ x, v = .float x → x.isNaN = false)) ∧
    (∀ a, w.Knows (.array a) →
      (w.duplicate a).1.Compares (.array a) (.array (w.duplicate a).2)
        ((w.duplicate a).1.equalArrays a (w.duplicate a).2) ∧
      ((w.duplicate a).1.equalArrays a (w.duplicate a).2 = true ↔
        ∀ x, .float x ∈ (w.container a).items → x.isNaN = false)) ∧
    (∀ w' : World, (∀ a, (w'.container a).items = (w.container a).items) → ∀ x y,
      (∀ r, w'.Compares x y r ↔ w.Compares x y r) ∧
      (w.Acyclic x ∨ w.Acyclic y → w'.equal x y = w.equal x y)) ∧
    ∀ a b, w.Acyclic (.array a) ∨ w.Acyclic (.array b) →
      (w.container a).items.length = (w.container b).items.length →
      (∀ (i : Nat) (x y : Variant), (w.container a).items[i]? = some x →
        (w.container b).items[i]? = some y → w.equal x y = true) →
      w.equalArrays a b = true := by
  refine ⟨fun x y acyclic r => compares_iff acyclic,
    fun x y r h => ⟨h.symm, fun r' h' => h.unique h'⟩, equalTo_comm _,
    fun x y z xy yz => xy.trans rfl yz, fun x y z hx hy xy yz => ?_,
    fun v => ⟨compares_self _ v, equalTo_self_iff _ v⟩, fun a known => ?_,
    fun w' items x y => ?_, fun a b acyclic lengths all => ?_⟩
  · have xy' := (compares_iff (.inl hx)).mpr xy
    have yz' := (compares_iff (.inl hy)).mpr yz
    exact (compares_iff (.inl hx)).mp (xy'.trans rfl yz')
  · have other : a ≠ (w.duplicate a).2 := fun same =>
      absurd (congrArg ArrayId.slot same) (Nat.ne_of_lt known)
    have old : (w.duplicate a).1.container a = w.container a := container_addContainer_of_lt known
    have new : (w.duplicate a).1.container (w.duplicate a).2 = _ := container_addContainer_self w _
    rw [← old]
    exact compares_same_items other (by rw [old, new])
  · have back : ∀ r, w'.Compares x y r ↔ w.Compares x y r := fun r =>
      ⟨.congr fun a => (items a).symm, .congr items⟩
    refine ⟨back, fun acyclic => ?_⟩
    have here : w.Compares x y (w.equal x y) := compares_equal acyclic
    have there : w'.Compares x y (w'.equal x y) :=
      compares_equal (acyclic.imp (acyclic_congr items).mpr (acyclic_congr items).mpr)
    exact ((back _).mp there).unique here
  · rw [equalArrays_eq acyclic, pairwise_eq_true_iff.mpr ⟨lengths, all⟩, Bool.or_true]

/-- A container with a NaN, and two others with different marks, each of which holds it twice. -/
def sharedNaN : World :=
  let w := (empty.newArray none [.float (Binary.nan .double)]).1
  let w := (w.newArray none [.array ⟨0⟩, .array ⟨0⟩]).1
  (w.newArray (some (.builtin .array)) [.array ⟨0⟩, .array ⟨0⟩]).1

/-- Those two are equal, since what they hold is one container; its duplicate is not equal to it. -/
theorem equality_is_partial_equivalence_sharedNaN :
    sharedNaN.Acyclic (.array ⟨1⟩) ∧ sharedNaN.Compares (.array ⟨1⟩) (.array ⟨2⟩) true ∧
      (sharedNaN.duplicate ⟨0⟩).1.Compares (.array ⟨0⟩) (.array ⟨3⟩) false := by
  obtain ⟨answer, _, _, _, _, _, duplicate, _, _⟩ := equality_is_partial_equivalence sharedNaN
  have acyclic : sharedNaN.Acyclic (.array ⟨1⟩) := by
    refine acyclic_of_older (fun a b contains => ?_) _
    have checked : ∀ slot < 3, ∀ v ∈ (sharedNaN.container ⟨slot⟩).items,
        v.array?.all (fun b => decide (b.slot < slot)) = true := by decide
    exact of_decide_eq_true (checked a.slot (slot_lt_of_mem_items contains) _ contains)
  refine ⟨acyclic, (answer _ _ (.inl acyclic) _).mpr (by decide), ?_⟩
  have unequal : (sharedNaN.duplicate ⟨0⟩).1.equalArrays ⟨0⟩ ⟨3⟩ = false := by decide
  rw [← unequal]
  exact (duplicate ⟨0⟩ (Nat.succ_pos 2)).1

end World

end ArrayBridge
