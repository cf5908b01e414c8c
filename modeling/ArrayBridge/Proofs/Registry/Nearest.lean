import ArrayBridge.Proofs.Registry.PropertyAccess
import ArrayBridge.Registry.Body
import Mathlib.Data.List.Basic

/-!
# The nearest class that has a member

What a call by name comes to, for every database that registrations can lead to.

**The nearest** (`ClassDb.Nearest`) is told without a look-up: the class itself and its bases stand
in a row; one of them is registered and has the member, and of those before it none is registered
and has one. A look-up along the row finds exactly that (`findSome?_lineage_eq_some_iff`), so every
query is decided by whether the class is registered, and by what is nearest.

**Nothing dangles.** A property is looked up first and then its accessor, again from the class of
the object. An accessor is a method of the class that has the property, so the second look-up finds
a method, on that class or on a nearer one (`Consistent.nearest_accessor`).

**What is found was registered.** The members in the tables are those of the registrations that were
accepted (`Consistent.mem_items_afterAttempts`).

A body may answer anything, also with an error that a failing look-up gives. So that a call is
answered with such an error means that the look-up failed or that a body was run and answered it.
-/

namespace ArrayBridge

namespace ClassEntry

/-- The class's own method of that name. -/
def ownMethod (name : String) (entry : ClassEntry) : Option RegisteredMethod :=
  ClassDb.find? entry.methods name

/-- The class's own property of that name. -/
def ownProperty (name : String) (entry : ClassEntry) : Option RegisteredProperty :=
  ClassDb.find? entry.properties name

end ClassEntry

namespace ClassDb

open ClassEntry (ownMethod ownProperty)

variable {α : Type} {db : ClassDb} {cls owner : ClassInfo} {has : ClassEntry → Option α} {x : α}
  {name : String}

/-- What a class has of its own; nothing if it is not registered. -/
def ownOf (db : ClassDb) (has : ClassEntry → Option α) (cls : ClassInfo) : Option α :=
  (db.entry? cls.id).bind has

/-- **The nearest that has one**: the owner, among the class and its bases. -/
structure Nearest (db : ClassDb) (cls : ClassInfo) (has : ClassEntry → Option α) (owner : ClassInfo)
    (x : α) : Prop where
  own : db.ownOf has owner = some x
  first : ∃ nearer further, cls.ancestors = nearer ++ owner :: further ∧
    ∀ base ∈ nearer, db.ownOf has base = none

/-- Neither the class nor a base of it is registered and has one. -/
def Lacks (db : ClassDb) (cls : ClassInfo) (has : ClassEntry → Option α) : Prop :=
  ∀ base ∈ cls.ancestors, db.ownOf has base = none

/-! ## Looking up along the bases -/

theorem findSome?_lineage (db : ClassDb) (cls : ClassInfo) (has : ClassEntry → Option α) :
    (db.lineage cls).findSome? has = cls.ancestors.findSome? (db.ownOf has) := by
  unfold lineage
  induction cls.ancestors with
  | nil => rfl
  | cons base rest ih =>
    rw [List.filterMap_cons, List.findSome?_cons, ownOf]
    cases db.entry? base.id with
    | none => exact ih
    | some entry =>
      rw [Option.bind_some, List.findSome?_cons, ih]

/-- **A look-up finds what the nearest has.** -/
theorem findSome?_lineage_eq_some_iff :
    (db.lineage cls).findSome? has = some x ↔ ∃ owner, db.Nearest cls has owner x := by
  rw [findSome?_lineage, List.findSome?_eq_some_iff]
  constructor
  · rintro ⟨nearer, owner, further, row, own, none⟩
    exact ⟨owner, own, nearer, further, row, none⟩
  · rintro ⟨owner, own, nearer, further, row, none⟩
    exact ⟨nearer, owner, further, row, own, none⟩

theorem findSome?_lineage_eq_none_iff :
    (db.lineage cls).findSome? has = none ↔ db.Lacks cls has := by
  rw [findSome?_lineage]
  exact List.findSome?_eq_none_iff

/-- Where one of them has one, there is a nearest, and it is that one or derived from it. -/
theorem exists_nearest {nearer further : List ClassInfo}
    (row : cls.ancestors = nearer ++ owner :: further) (own : (db.ownOf has owner).isSome) :
    ∃ owner' x, db.Nearest cls has owner' x ∧ owner ∈ owner'.ancestors := by
  have found : ((nearer ++ [owner]).findSome? (db.ownOf has)).isSome :=
    List.findSome?_isSome_iff.mpr ⟨owner, by simp, own⟩
  obtain ⟨x, found⟩ := Option.isSome_iff_exists.mp found
  obtain ⟨before, owner', after, split, own', none⟩ := List.findSome?_eq_some_iff.mp found
  have row' : cls.ancestors = before ++ owner' :: (after ++ further) :=
    calc cls.ancestors = (nearer ++ [owner]) ++ further := by rw [row, List.append_assoc]; rfl
      _ = before ++ owner' :: (after ++ further) := by rw [split, List.append_assoc]; rfl
  refine ⟨owner', x, ⟨own', before, after ++ further, row', none⟩, ?_⟩
  have last : owner ∈ owner' :: after := by
    apply List.mem_of_getLast?
    rw [← List.getLast?_append_of_ne_nil before (List.cons_ne_nil owner' after), ← split,
      List.getLast?_concat]
  rw [ClassInfo.ancestors_of_append row', ← List.cons_append]
  exact List.mem_append_left _ last

/-! ## Methods and properties -/

theorem methodOf?_eq_some_iff {m : RegisteredMethod} :
    db.methodOf? cls name = some m ↔ ∃ owner, db.Nearest cls (ownMethod name) owner m :=
  findSome?_lineage_eq_some_iff

theorem methodOf?_eq_none_iff :
    db.methodOf? cls name = none ↔ db.Lacks cls (ownMethod name) :=
  findSome?_lineage_eq_none_iff

theorem propertyOf?_eq_some_iff {p : RegisteredProperty} :
    db.propertyOf? cls name = some p ↔ ∃ owner, db.Nearest cls (ownProperty name) owner p :=
  findSome?_lineage_eq_some_iff

theorem propertyOf?_eq_none_iff :
    db.propertyOf? cls name = none ↔ db.Lacks cls (ownProperty name) :=
  findSome?_lineage_eq_none_iff

theorem findMethod_eq_ok_iff {m : RegisteredMethod} :
    db.findMethod cls name = .ok m ↔
      (db.entry? cls.id).isSome ∧ ∃ owner, db.Nearest cls (ownMethod name) owner m := by
  rw [← methodOf?_eq_some_iff, findMethod]
  cases db.entry? cls.id <;> cases db.methodOf? cls name <;> simp

theorem findMethod_eq_error_iff {e : CallError} :
    db.findMethod cls name = .error e ↔
      (db.entry? cls.id = none ∧ e = .unknownClass cls.name) ∨
        ((db.entry? cls.id).isSome ∧ db.Lacks cls (ownMethod name) ∧
          e = .unknownMethod cls.name name) := by
  rw [← methodOf?_eq_none_iff, findMethod]
  cases db.entry? cls.id <;> cases db.methodOf? cls name <;> simp [eq_comm]

theorem findProperty_eq_ok_iff {p : RegisteredProperty} :
    db.findProperty cls name = .ok p ↔
      (db.entry? cls.id).isSome ∧ ∃ owner, db.Nearest cls (ownProperty name) owner p := by
  rw [← propertyOf?_eq_some_iff, findProperty]
  cases db.entry? cls.id <;> cases db.propertyOf? cls name <;> simp

theorem findProperty_eq_error_iff {e : CallError} :
    db.findProperty cls name = .error e ↔
      (db.entry? cls.id = none ∧ e = .unknownClass cls.name) ∨
        ((db.entry? cls.id).isSome ∧ db.Lacks cls (ownProperty name) ∧
          e = .unknownProperty cls.name name) := by
  rw [← propertyOf?_eq_none_iff, findProperty]
  cases db.entry? cls.id <;> cases db.propertyOf? cls name <;> simp [eq_comm]

/-- **Nothing dangles**: the accessors of a property that a class has are methods of that class, so
from every class derived from it a method of that name is found, there or nearer. -/
theorem Consistent.nearest_accessor (c : db.Consistent) {p : RegisteredProperty}
    (near : db.Nearest cls (ownProperty name) owner p) {accessor : String}
    (isAccessor : accessor = p.getter ∨ accessor = p.setter) :
    ∃ owner' m, db.Nearest cls (ownMethod accessor) owner' m ∧ owner ∈ owner'.ancestors := by
  obtain ⟨entry, there, own⟩ := Option.bind_eq_some_iff.mp near.own
  obtain ⟨nearer, further, row, _⟩ := near.first
  have both := (c.members owner.id entry there).accessors _ (mem_of_find? own)
  refine exists_nearest row ?_
  rw [ownOf, there]
  rcases isAccessor with rfl | rfl
  · exact both.1
  · exact both.2

/-! ## Queries by the name of the class -/

/-- A query by the name of a class starts from the entry whose record has that name. -/
theorem Consistent.entryNamed?_of_entry? (c : db.Consistent) {id : ClassId} {entry : ClassEntry}
    (there : db.entry? id = some entry) : db.entryNamed? entry.info.name = some entry := by
  rw [entryNamed?, (c.naming id entry there).2]
  exact there

/-- Where the record that is registered is that of the class, a query by its name looks up what a
call looks up. -/
theorem Consistent.queries_of_record (c : db.Consistent)
    (record : (db.entry? cls.id).map ClassEntry.info = some cls) (name : String) :
    db.method? cls.name name = (db.methodOf? cls name).map RegisteredMethod.info ∧
      db.property? cls.name name = (db.propertyOf? cls name).map RegisteredProperty.info := by
  obtain ⟨entry, there, rfl⟩ := Option.map_eq_some_iff.mp record
  have named := c.entryNamed?_of_entry? there
  constructor
  · rw [method?, named]
    rfl
  · rw [property?, named]
    rfl

/-! ## What is registered -/

/-- Of the attempts one was accepted, in the place where it stood, and the item is its. -/
def Accepted (db : ClassDb) (attempts : List Registration) (item : RegisteredItem) : Prop :=
  ∃ earlier part later, attempts = earlier ++ part :: later ∧
    ((db.afterAttempts earlier).registerAll [part]).refusal = none ∧ part.item = item

theorem accepted_cons_iff {part : Registration} {rest : List Registration} {item : RegisteredItem} :
    db.Accepted (part :: rest) item ↔
      ((db.registerAll [part]).refusal = none ∧ part.item = item) ∨
        (db.registerAll [part]).db.Accepted rest item := by
  constructor
  · rintro ⟨earlier, part', later, split, accepted, same⟩
    cases earlier with
    | nil =>
      obtain ⟨rfl, rfl⟩ := List.cons.inj split
      exact .inl ⟨accepted, same⟩
    | cons first earlier =>
      obtain ⟨rfl, rfl⟩ := List.cons.inj split
      exact .inr ⟨earlier, part', later, rfl, accepted, same⟩
  · rintro (⟨accepted, same⟩ | ⟨earlier, part', later, rfl, accepted, same⟩)
    · exact ⟨[], part, rest, rfl, accepted, same⟩
    · exact ⟨part :: earlier, part', later, rfl, accepted, same⟩

/-- **What is registered** after any attempts is what there was, and what was accepted. -/
theorem Consistent.mem_items_afterAttempts (c : db.Consistent) (attempts : List Registration)
    {item : RegisteredItem} :
    item ∈ (db.afterAttempts attempts).items ↔ item ∈ db.items ∨ db.Accepted attempts item := by
  induction attempts generalizing db with
  | nil =>
    have nothing : ¬ db.Accepted [] item := by
      rintro ⟨earlier, part, later, split, _⟩
      exact List.append_ne_nil_of_right_ne_nil earlier (List.cons_ne_nil part later) split.symm
    exact ⟨.inl, fun h => h.resolve_right nothing⟩
  | cons part rest ih =>
    rw [accepted_cons_iff]
    rcases registerAll_single db part with ⟨none, accepted⟩ | ⟨reason, refused, _, same⟩
    · have added := (c.items_register accepted).mem_iff (a := item)
      refine (ih (c.register accepted)).trans ?_
      rw [added, List.mem_cons, ← or_assoc]
      simp only [none, true_and, eq_comm (a := item), or_comm (a := part.item = item)]
    · have kept : (db.registerAll [part]).db.Consistent := same.symm ▸ c
      refine (ih kept).trans ?_
      rw [same, refused]
      simp

/-- A method in the table of a class is one that was registered, under its name. -/
theorem Consistent.ownOf_method_iff (c : db.Consistent) {m : RegisteredMethod} :
    db.ownOf (ownMethod name) cls = some m ↔ .method cls.id m ∈ db.items ∧ m.info.name = name := by
  constructor
  · intro own
    obtain ⟨entry, there, own⟩ := Option.bind_eq_some_iff.mp own
    have row := mem_of_find? own
    refine ⟨mem_items_iff.mpr ⟨cls.id, entry, mem_of_find? there, ?_⟩, ?_⟩
    · have mem := List.mem_map_of_mem (f := fun row => RegisteredItem.method cls.id row.2) row
      exact List.mem_cons_of_mem _ (List.mem_append_left _ mem)
    · exact ((c.members cls.id entry there).methodNames _ row).symm
  · rintro ⟨item, rfl⟩
    obtain ⟨entry, there, found⟩ := c.find?_method item
    rw [ownOf, there]
    exact found

/-- A property in the table of a class is one that was registered, under its name. -/
theorem Consistent.ownOf_property_iff (c : db.Consistent) {p : RegisteredProperty} :
    db.ownOf (ownProperty name) cls = some p ↔
      .property cls.id p ∈ db.items ∧ p.info.name = name := by
  constructor
  · intro own
    obtain ⟨entry, there, own⟩ := Option.bind_eq_some_iff.mp own
    have row := mem_of_find? own
    refine ⟨mem_items_iff.mpr ⟨cls.id, entry, mem_of_find? there, ?_⟩, ?_⟩
    · have mem := List.mem_map_of_mem (f := fun row => RegisteredItem.property cls.id row.2) row
      exact List.mem_cons_of_mem _ (List.mem_append_right _ (List.mem_append_left _ mem))
    · exact ((c.members cls.id entry there).propertyNames _ row).symm
  · rintro ⟨item, rfl⟩
    obtain ⟨entry, there, found⟩ := c.find?_property item
    rw [ownOf, there]
    exact found

/-! ## Calls -/

variable {w : World} {o : ObjectId} {arguments : List Variant}

/-- **What a method does when it is called**: its body is run on the object and with exactly these
arguments, in a world where the payload is lent out to it. If the payload cannot be had, the body is
not run. -/
def answerOf (m : RegisteredMethod) (w : World) (o : ObjectId) (name : String)
    (arguments : List Variant) : World × Except CallError (Option Variant) :=
  if (w.writable? o).isSome then
    let (w, answer) := m.body.run (w.atCall o name arguments) o arguments
    (w.returnExclusive o, answer)
  else
    (w.note (.calling (w.label o) name arguments.length),
      .error (.invalidInstance (w.object o).cls.name))

theorem call_of_refused {e : CallError} (h : db.findMethod (w.object o).cls name = .error e)
    (arguments : List Variant) : db.call w o name arguments = (w, .error e) := by
  unfold call
  simp only [h]

theorem call_of_found {m : RegisteredMethod} (h : db.findMethod (w.object o).cls name = .ok m)
    (arguments : List Variant) : db.call w o name arguments = answerOf m w o name arguments := by
  unfold answerOf
  split
  · rename_i there
    exact World.call_of_writable h there arguments
  · rename_i there
    exact World.call_of_not_writable h (by simpa using there) arguments

/-- A body was run for the call, that of the nearest method, and gave this answer. -/
def BodyAnswers (db : ClassDb) (w : World) (o : ObjectId) (name : String) (arguments : List Variant)
    (answer : Except CallError (Option Variant)) : Prop :=
  (w.writable? o).isSome ∧ (db.entry? (w.object o).cls.id).isSome ∧
    ∃ owner m, db.Nearest (w.object o).cls (ownMethod name) owner m ∧
      (m.body.run (w.atCall o name arguments) o arguments).2 = answer

theorem bodyAnswers_iff {answer : Except CallError (Option Variant)} :
    db.BodyAnswers w o name arguments answer ↔
      ∃ m, db.findMethod (w.object o).cls name = .ok m ∧ (w.writable? o).isSome ∧
        (m.body.run (w.atCall o name arguments) o arguments).2 = answer := by
  simp only [findMethod_eq_ok_iff]
  constructor
  · rintro ⟨there, registered, owner, m, near, answers⟩
    exact ⟨m, ⟨registered, owner, near⟩, there, answers⟩
  · rintro ⟨m, ⟨registered, owner, near⟩, there, answers⟩
    exact ⟨there, registered, owner, m, near, answers⟩

/-- **An error that is not about the payload** is that of the look-up, or a body gave it. -/
theorem call_eq_error_iff {e : CallError} (h : ∀ n, e ≠ .invalidInstance n) :
    (db.call w o name arguments).2 = .error e ↔
      db.findMethod (w.object o).cls name = .error e ∨
        db.BodyAnswers w o name arguments (.error e) := by
  rw [bodyAnswers_iff]
  cases found : db.findMethod (w.object o).cls name with
  | error e' => simp [call_of_refused found]
  | ok m =>
    rw [call_of_found found, answerOf]
    split
    · rename_i there
      simp [there]
    · rename_i there
      simp [there, (h _).symm]

/-- **How a call by name is decided.** Of the three cases, which exclude each other, the first two
are the errors of the look-up; a call is answered with one of these two only if the look-up failed
so, or if a body gave that answer. -/
structure CallDecided (db : ClassDb) (w : World) (o : ObjectId) (name : String)
    (arguments : List Variant) : Prop where
  unregistered : db.entry? (w.object o).cls.id = none →
    db.call w o name arguments = (w, .error (.unknownClass (w.object o).cls.name))
  missing : (db.entry? (w.object o).cls.id).isSome → db.Lacks (w.object o).cls (ownMethod name) →
    db.call w o name arguments = (w, .error (.unknownMethod (w.object o).cls.name name))
  found : (db.entry? (w.object o).cls.id).isSome → ¬ db.Lacks (w.object o).cls (ownMethod name) →
    ∃ owner m, db.Nearest (w.object o).cls (ownMethod name) owner m ∧
      db.call w o name arguments = answerOf m w o name arguments
  unknownClass : ∀ n, (db.call w o name arguments).2 = .error (.unknownClass n) ↔
    (db.entry? (w.object o).cls.id = none ∧ n = (w.object o).cls.name) ∨
      db.BodyAnswers w o name arguments (.error (.unknownClass n))
  unknownMethod : ∀ n n', (db.call w o name arguments).2 = .error (.unknownMethod n n') ↔
    ((db.entry? (w.object o).cls.id).isSome ∧ db.Lacks (w.object o).cls (ownMethod name) ∧
        n = (w.object o).cls.name ∧ n' = name) ∨
      db.BodyAnswers w o name arguments (.error (.unknownMethod n n'))

theorem Nearest.unique {owner' : ClassInfo} {x' : α} (near : db.Nearest cls has owner x)
    (near' : db.Nearest cls has owner' x') : x = x' :=
  Option.some.inj ((findSome?_lineage_eq_some_iff.mpr ⟨owner, near⟩).symm.trans
    (findSome?_lineage_eq_some_iff.mpr ⟨owner', near'⟩))

theorem Nearest.not_lacks (near : db.Nearest cls has owner x) : ¬ db.Lacks cls has := by
  intro lacks
  have found := findSome?_lineage_eq_some_iff.mpr ⟨owner, near⟩
  rw [findSome?_lineage_eq_none_iff.mpr lacks] at found
  cases found

/-- Where not everyone lacks it, somebody is the nearest that has it. -/
theorem exists_nearest_of_not_lacks (h : ¬ db.Lacks cls has) :
    ∃ owner x, db.Nearest cls has owner x := by
  rw [← findSome?_lineage_eq_none_iff] at h
  obtain ⟨x, found⟩ := Option.ne_none_iff_exists'.mp h
  obtain ⟨owner, near⟩ := findSome?_lineage_eq_some_iff.mp found
  exact ⟨owner, x, near⟩

theorem callDecided (db : ClassDb) (w : World) (o : ObjectId) (name : String)
    (arguments : List Variant) : db.CallDecided w o name arguments where
  unregistered none := call_of_refused (findMethod_eq_error_iff.mpr (.inl ⟨none, rfl⟩)) arguments
  missing registered lacks :=
    call_of_refused (findMethod_eq_error_iff.mpr (.inr ⟨registered, lacks, rfl⟩)) arguments
  found registered has := by
    obtain ⟨owner, m, near⟩ := exists_nearest_of_not_lacks has
    have found := findMethod_eq_ok_iff.mpr ⟨registered, owner, near⟩
    exact ⟨owner, m, near, call_of_found found arguments⟩
  unknownClass n := by
    rw [call_eq_error_iff fun _ => CallError.noConfusion, findMethod_eq_error_iff]
    simp
  unknownMethod n n' := by
    rw [call_eq_error_iff fun _ => CallError.noConfusion, findMethod_eq_error_iff]
    simp

/-! ## Properties -/

/-- **How access to a property by name is decided**: the property is that of the nearest class that
has it, and its accessors are called as methods of the object's class. There always is such a
method, so that none is missing is never answered but by a body. -/
structure AccessDecided (db : ClassDb) (w : World) (o : ObjectId) (name : String) : Prop where
  unregistered : db.entry? (w.object o).cls.id = none →
    let refusal := CallError.unknownClass (w.object o).cls.name
    db.getProperty w o name = (w, .error refusal) ∧
      ∀ value, db.setProperty w o name value = (w, .error refusal)
  missing : (db.entry? (w.object o).cls.id).isSome →
    db.Lacks (w.object o).cls (ownProperty name) →
    let refusal := CallError.unknownProperty (w.object o).cls.name name
    db.getProperty w o name = (w, .error refusal) ∧
      ∀ value, db.setProperty w o name value = (w, .error refusal)
  found : (db.entry? (w.object o).cls.id).isSome → ¬ db.Lacks (w.object o).cls (ownProperty name) →
    ∃ owner p, db.Nearest (w.object o).cls (ownProperty name) owner p ∧
      (∃ owner' getter, db.Nearest (w.object o).cls (ownMethod p.getter) owner' getter ∧
        owner ∈ owner'.ancestors ∧
        let (after, answer) := answerOf getter w o p.getter []
        db.getProperty w o name = (after, answer.map fun value => value.getD .nil)) ∧
      ∃ owner' setter, db.Nearest (w.object o).cls (ownMethod p.setter) owner' setter ∧
        owner ∈ owner'.ancestors ∧
        ∀ value, db.setProperty w o name value = answerOf setter w o p.setter [value]
  /-- That a method is missing is answered only by the body of an accessor. -/
  neverDangles : ∀ n n',
    ((db.getProperty w o name).2 = .error (.unknownMethod n n') →
      ∃ owner p, db.Nearest (w.object o).cls (ownProperty name) owner p ∧
        db.BodyAnswers w o p.getter [] (.error (.unknownMethod n n'))) ∧
    ∀ value, (db.setProperty w o name value).2 = .error (.unknownMethod n n') →
      ∃ owner p, db.Nearest (w.object o).cls (ownProperty name) owner p ∧
        db.BodyAnswers w o p.setter [value] (.error (.unknownMethod n n'))

theorem access_of_refused {e : CallError} (h : db.findProperty (w.object o).cls name = .error e) :
    db.getProperty w o name = (w, .error e) ∧
      ∀ value, db.setProperty w o name value = (w, .error e) := by
  unfold getProperty setProperty
  simp only [h, implies_true, and_self]

theorem access_of_found {p : RegisteredProperty}
    (h : db.findProperty (w.object o).cls name = .ok p) :
    db.getProperty w o name =
        ((db.call w o p.getter []).1, (db.call w o p.getter []).2.map fun v => v.getD .nil) ∧
      ∀ value, db.setProperty w o name value = db.call w o p.setter [value] := by
  unfold getProperty setProperty
  simp only [h, implies_true, and_self]

/-- The look-up of an accessor never fails for want of a method. -/
theorem Consistent.bodyAnswers_of_accessor (c : db.Consistent) {p : RegisteredProperty}
    (near : db.Nearest (w.object o).cls (ownProperty name) owner p) {accessor : String}
    (isAccessor : accessor = p.getter ∨ accessor = p.setter) {n n' : String}
    (h : (db.call w o accessor arguments).2 = .error (.unknownMethod n n')) :
    db.BodyAnswers w o accessor arguments (.error (.unknownMethod n n')) := by
  rcases ((db.callDecided w o accessor arguments).unknownMethod n n').mp h with ⟨_, lacks, _⟩ | own
  · obtain ⟨_, _, near', _⟩ := c.nearest_accessor near isAccessor
    exact absurd lacks near'.not_lacks
  · exact own

theorem Consistent.accessDecided (c : db.Consistent) (w : World) (o : ObjectId) (name : String) :
    db.AccessDecided w o name where
  unregistered none := access_of_refused (findProperty_eq_error_iff.mpr (.inl ⟨none, rfl⟩))
  missing registered lacks :=
    access_of_refused (findProperty_eq_error_iff.mpr (.inr ⟨registered, lacks, rfl⟩))
  found registered has := by
    obtain ⟨owner, p, near⟩ := exists_nearest_of_not_lacks has
    obtain ⟨read, write⟩ := access_of_found (findProperty_eq_ok_iff.mpr ⟨registered, owner, near⟩)
    obtain ⟨owner₁, getter, near₁, derived₁⟩ := c.nearest_accessor near (.inl rfl)
    obtain ⟨owner₂, setter, near₂, derived₂⟩ := c.nearest_accessor near (.inr rfl)
    refine ⟨owner, p, near, ⟨owner₁, getter, near₁, derived₁, ?_⟩,
      owner₂, setter, near₂, derived₂, fun value => ?_⟩
    · rw [read, call_of_found (findMethod_eq_ok_iff.mpr ⟨registered, owner₁, near₁⟩)]
    · rw [write, call_of_found (findMethod_eq_ok_iff.mpr ⟨registered, owner₂, near₂⟩)]
  neverDangles n n' := by
    cases found : db.findProperty (w.object o).cls name with
    | error e =>
      have other : e ≠ .unknownMethod n n' := by
        rcases findProperty_eq_error_iff.mp found with ⟨_, rfl⟩ | ⟨_, _, rfl⟩
        · exact CallError.noConfusion
        · exact CallError.noConfusion
      obtain ⟨read, write⟩ := access_of_refused found
      rw [read]
      refine ⟨fun h => absurd (Except.error.inj h) other, fun value h => ?_⟩
      rw [write] at h
      exact absurd (Except.error.inj h) other
    | ok p =>
      obtain ⟨_, owner, near⟩ := findProperty_eq_ok_iff.mp found
      obtain ⟨read, write⟩ := access_of_found found
      rw [read]
      refine ⟨fun h => ⟨owner, p, near, c.bodyAnswers_of_accessor near (.inl rfl) ?_⟩,
        fun value h => ⟨owner, p, near, c.bodyAnswers_of_accessor near (.inr rfl) ?_⟩⟩
      · cases answer : (db.call w o p.getter []).2 with
        | ok v => simp [answer, Except.map] at h
        | error e => simpa [answer, Except.map] using h
      · rwa [← write]

/-! ## All of it -/

/-- **The queries by the name of a class** describe what a call or an access would find. -/
structure QueriesAgree (db : ClassDb) (cls : ClassInfo) (name : String) : Prop where
  method : ∀ owner m, db.Nearest cls (ownMethod name) owner m →
    db.method? cls.name name = some m.info
  noMethod : db.method? cls.name name = none ↔ db.Lacks cls (ownMethod name)
  property : ∀ owner p, db.Nearest cls (ownProperty name) owner p →
    db.property? cls.name name = some p.info
  noProperty : db.property? cls.name name = none ↔ db.Lacks cls (ownProperty name)

theorem Consistent.queriesAgree (c : db.Consistent)
    (record : (db.entry? cls.id).map ClassEntry.info = some cls) (name : String) :
    db.QueriesAgree cls name := by
  obtain ⟨methods, properties⟩ := c.queries_of_record record name
  constructor
  · intro owner m near
    rw [methods, methodOf?_eq_some_iff.mpr ⟨owner, near⟩]
    rfl
  · rw [methods, Option.map_eq_none_iff]
    exact methodOf?_eq_none_iff
  · intro owner p near
    rw [properties, propertyOf?_eq_some_iff.mpr ⟨owner, near⟩]
    rfl
  · rw [properties, Option.map_eq_none_iff]
    exact propertyOf?_eq_none_iff

/-- A member that the built-in classes do not have was accepted among the attempts. -/
theorem mem_items_of_new {attempts : List Registration} {item : RegisteredItem}
    (member : item ∉ ClassDb.new.items) :
    item ∈ (ClassDb.new.afterAttempts attempts).items ↔ ClassDb.new.Accepted attempts item :=
  (consistent_new.mem_items_afterAttempts attempts).trans (or_iff_right member)

end ClassDb

/-- **Members answer from the nearest class**, after any attempts at registering anything, accepted
or refused, for every object:

- calls and access to properties by name are decided by what is nearest among the registered ones of
  the object's class and its bases, and an accessor is never missing;
- if the record registered under the identity of the object's class is that class, the queries by
  its name describe what is found;
- what a class has of its own is what was registered on it and accepted. -/
theorem members_answer_from_nearest (attempts : List Registration) (w : World) (o : ObjectId) :
    let db := ClassDb.new.afterAttempts attempts
    let cls := (w.object o).cls
    (∀ name arguments, db.CallDecided w o name arguments) ∧
    (∀ name, db.AccessDecided w o name) ∧
    ((db.entry? cls.id).map ClassEntry.info = some cls → ∀ name, db.QueriesAgree cls name) ∧
    ∀ owner name,
      (∀ m, db.ownOf (ClassEntry.ownMethod name) owner = some m ↔
        ClassDb.new.Accepted attempts (.method owner.id m) ∧ m.info.name = name) ∧
      ∀ p, db.ownOf (ClassEntry.ownProperty name) owner = some p ↔
        ClassDb.new.Accepted attempts (.property owner.id p) ∧ p.info.name = name := by
  intro db cls
  have c : db.Consistent := ClassDb.consistent_new.afterAttempts attempts
  refine ⟨db.callDecided w o, c.accessDecided w o, fun record name => c.queriesAgree record name,
    fun owner name => ⟨fun m => ?_, fun p => ?_⟩⟩
  · rw [c.ownOf_method_iff, ClassDb.mem_items_of_new]
    simp [ClassDb.new, ClassDb.items, ClassDb.insertClass, ClassEntry.items, ClassEntry.bare]
  · rw [c.ownOf_property_iff, ClassDb.mem_items_of_new]
    simp [ClassDb.new, ClassDb.items, ClassDb.insertClass, ClassEntry.items, ClassEntry.bare]

/-- A property with its accessors on a class, and another getter on a derived one. -/
def overridden : List Registration :=
  [ .newClass storeClass,
    .newMethod storeClass (.plain "size" none []) (.constant (.int 1)),
    .newMethod storeClass (.plain "resize" none []) .silent,
    .newProperty storeClass (.plain .int "length") "size" "resize",
    .newClass boxClass,
    .newMethod boxClass (.plain "size" none []) (.constant (.int 2)) ]

/-- An object of the derived class. -/
def oneBox : List Action := [.allocate .empty boxClass ⟨none, []⟩, .keep [.object ⟨0⟩]]

/-- The getter is that of the derived class; the property is no method. -/
theorem members_answer_from_nearest_overridden :
    let db := ClassDb.new.afterAttempts overridden
    let w := worldFrom .empty oneBox
    db.method? "Box" "size" = some (.plain "size" none []) ∧
      db.call w ⟨0⟩ "length" [] = (w, .error (.unknownMethod "Box" "length")) ∧
      (db.getProperty w ⟨0⟩ "length").2 = .ok (.int 2) := by
  intro db w
  have box : (w.object ⟨0⟩).cls = boxClass := by cbv
  have registered : (db.entry? boxClass.id).isSome := by decide +kernel
  have size : db.Nearest boxClass (ClassEntry.ownMethod "size") boxClass
      ⟨.plain "size" none [], .constant (.int 2)⟩ :=
    ⟨rfl, [], storeClass.ancestors, rfl, fun _ mem => absurd mem List.not_mem_nil⟩
  have length : db.Nearest boxClass (ClassEntry.ownProperty "length") storeClass
      ⟨.plain .int "length", "size", "resize"⟩ :=
    ⟨rfl, [boxClass], ClassInfo.refCounted.ancestors, rfl, List.forall_mem_singleton.mpr rfl⟩
  obtain ⟨calls, access, queries, _⟩ := members_answer_from_nearest overridden w ⟨0⟩
  have call := (calls "length" []).missing
  have found := (access "length").found
  rw [box] at call found queries
  refine ⟨(queries (by decide +kernel) "size").method _ _ size, ?_, ?_⟩
  · apply call registered
    exact ClassDb.methodOf?_eq_none_iff.mp (Option.isNone_iff_eq_none.mp (by decide +kernel))
  · obtain ⟨_, p, near, ⟨_, getter, nearest, _, read⟩, _⟩ := found registered length.not_lacks
    obtain rfl := near.unique length
    obtain rfl := nearest.unique size
    rw [read]
    cbv

end ArrayBridge
