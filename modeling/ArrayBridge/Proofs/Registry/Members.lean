import ArrayBridge.Proofs.Registry.Consistency
import ArrayBridge.Registry.ArrayProperty
import ArrayBridge.Registry.Dispatch

/-!
# Whose member answers

A class answers with the member of the nearest class that has it, its own included. That class is
the owner of the member (`ClassDb.methodOwner?`, `ClassDb.propertyOwner?`).

In a consistent database the owner's entry decides what is found, and what was registered on the
owner is found there (`Consistent.findMethod_of_owner`, `Consistent.findProperty_of_owner`). So for
an array property nothing else has to be known of the database than that the property and its two
accessors belong to one class, and that they were registered (`AnswersFrom`).
-/

namespace ArrayBridge

namespace ClassDb

variable {db : ClassDb}

/-- The nearest class among a class and its bases of which the entry has something. -/
def owner? (db : ClassDb) (cls : ClassInfo) (has : ClassEntry → Bool) : Option ClassId :=
  ((db.lineage cls).find? has).map fun entry => entry.info.id

/-- The class with whose method the class answers. -/
def methodOwner? (db : ClassDb) (cls : ClassInfo) (name : String) : Option ClassId :=
  db.owner? cls fun entry => (find? entry.methods name).isSome

/-- The class with whose property the class answers. -/
def propertyOwner? (db : ClassDb) (cls : ClassInfo) (name : String) : Option ClassId :=
  db.owner? cls fun entry => (find? entry.properties name).isSome

/-- A class is registered, and its array property and both accessors are those of one owner. -/
structure AnswersFrom (db : ClassDb) (cls : ClassInfo) (name : String) (owner : ClassId) :
    Prop where
  registered : (db.entry? cls.id).isSome
  property : db.propertyOwner? cls name = some owner
  getter : db.methodOwner? cls (getterName name) = some owner
  setter : db.methodOwner? cls (setterName name) = some owner

/-! ## What was registered is there -/

/-- When all of a list is accepted, the database stays consistent, and everything in it is an item
afterwards. -/
theorem Consistent.registerAll (c : db.Consistent) {parts : List Registration}
    (accepted : (db.registerAll parts).refusal = none) :
    (db.registerAll parts).db.Consistent ∧
      (∀ item ∈ db.items, item ∈ (db.registerAll parts).db.items) ∧
      ∀ part ∈ parts, part.item ∈ (db.registerAll parts).db.items := by
  induction parts generalizing db with
  | nil => exact ⟨c, fun _ h => h, fun _ h => absurd h List.not_mem_nil⟩
  | cons part rest ih =>
    unfold ClassDb.registerAll at accepted ⊢
    cases first : db.register part with
    | error reason =>
      rw [first] at accepted
      cases accepted
    | ok next =>
      rw [first] at accepted
      obtain ⟨consistent, kept, added⟩ := ih (c.register first) accepted
      have all := c.items_register first
      refine ⟨consistent, fun item mem => kept item ?_, fun p mem => ?_⟩
      · exact all.mem_iff.mpr (List.mem_cons_of_mem _ mem)
      · rcases List.mem_cons.mp mem with rfl | mem
        · exact kept _ (all.mem_iff.mpr List.mem_cons_self)
        · exact added p mem

/-- An item stands in the entry of its owner. -/
theorem mem_items_iff {item : RegisteredItem} :
    item ∈ db.items ↔ ∃ owner entry, (owner, entry) ∈ db.classes ∧ item ∈ entry.items owner := by
  simp only [items, List.mem_flatMap, Prod.exists]

theorem Consistent.entry_of_item (c : db.Consistent) {item : RegisteredItem}
    (h : item ∈ db.items) :
    ∃ owner entry, db.entry? owner = some entry ∧ item ∈ entry.items owner ∧ entry.Orderly := by
  obtain ⟨owner, entry, row, mem⟩ := mem_items_iff.mp h
  have there : db.entry? owner = some entry := (find?_eq_some_iff c.identities).mpr row
  exact ⟨owner, entry, there, mem, c.members owner entry there⟩

/-- A class is found under its identity, with the record that was registered. -/
theorem Consistent.record_eq_some_iff (c : db.Consistent) {id : ClassId} {info : ClassInfo} :
    (db.entry? id).map ClassEntry.info = some info ↔ .cls info ∈ db.items ∧ info.id = id := by
  constructor
  · intro record
    obtain ⟨entry, there, rfl⟩ := Option.map_eq_some_iff.mp record
    exact ⟨mem_items_iff.mpr ⟨id, entry, mem_of_find? there, List.mem_cons_self⟩,
      (c.naming id entry there).1⟩
  · rintro ⟨item, rfl⟩
    obtain ⟨owner, entry, there, mem, _⟩ := c.entry_of_item item
    -- an item that is a class is the record of the entry
    obtain rfl : info = entry.info := by simpa [ClassEntry.items] using mem
    rw [(c.naming owner entry there).1, there]
    rfl

/-- A name leads to the identity of the class that was registered under it. -/
theorem Consistent.find?_names_eq_some_iff (c : db.Consistent) {name : String} {id : ClassId} :
    find? db.names name = some id ↔
      ∃ info, (.cls info ∈ db.items ∧ info.id = id) ∧ info.name = name := by
  simp only [← c.record_eq_some_iff]
  constructor
  · intro found
    obtain ⟨entry, there, named⟩ := c.named name id found
    exact ⟨entry.info, congrArg (Option.map _) there, named⟩
  · rintro ⟨info, record, rfl⟩
    obtain ⟨entry, there, rfl⟩ := Option.map_eq_some_iff.mp record
    exact (c.naming id entry there).2

/-- A method that was registered is found with its owner. -/
theorem Consistent.find?_method (c : db.Consistent) {owner : ClassId} {m : RegisteredMethod}
    (h : .method owner m ∈ db.items) :
    ∃ entry, db.entry? owner = some entry ∧ find? entry.methods m.info.name = some m := by
  obtain ⟨_, entry, there, mem, orderly⟩ := c.entry_of_item h
  simp only [ClassEntry.items, List.mem_cons, List.mem_append, List.mem_map, reduceCtorEq,
    and_false, exists_false, or_false, false_or, RegisteredItem.method.injEq] at mem
  obtain ⟨row, mem, rfl, rfl⟩ := mem
  refine ⟨entry, there, (find?_eq_some_iff orderly.methods).mpr ?_⟩
  rwa [← orderly.methodNames _ mem]

/-- A property that was registered is found with its owner. -/
theorem Consistent.find?_property (c : db.Consistent) {owner : ClassId} {p : RegisteredProperty}
    (h : .property owner p ∈ db.items) :
    ∃ entry, db.entry? owner = some entry ∧ find? entry.properties p.info.name = some p := by
  obtain ⟨_, entry, there, mem, orderly⟩ := c.entry_of_item h
  simp only [ClassEntry.items, List.mem_cons, List.mem_append, List.mem_map, reduceCtorEq,
    and_false, exists_false, or_false, false_or, RegisteredItem.property.injEq] at mem
  obtain ⟨row, mem, rfl, rfl⟩ := mem
  refine ⟨entry, there, (find?_eq_some_iff orderly.properties).mpr ?_⟩
  rwa [← orderly.propertyNames _ mem]

/-! ## Looking members up -/

/-- The first answer is that of the first that has one. -/
theorem findSome?_of_find? {α β : Type} {f : α → Option β} {l : List α} {a : α}
    (h : l.find? (fun x => (f x).isSome) = some a) : l.findSome? f = f a := by
  induction l with
  | nil => cases h
  | cons x rest ih =>
    rw [List.find?_cons] at h
    rw [List.findSome?_cons]
    cases hx : f x with
    | some y =>
      rw [hx] at h
      obtain rfl : x = a := Option.some.inj h
      exact hx.symm
    | none =>
      rw [hx] at h
      exact ih h

/-- The entry that decides is that of the owner. -/
theorem Consistent.lineage_of_owner (c : db.Consistent) {cls : ClassInfo} {has : ClassEntry → Bool}
    {owner : ClassId} {entry : ClassEntry} (h : db.owner? cls has = some owner)
    (there : db.entry? owner = some entry) : (db.lineage cls).find? has = some entry := by
  obtain ⟨nearest, found, rfl⟩ := Option.map_eq_some_iff.mp h
  obtain ⟨ancestor, _, registered⟩ := List.mem_filterMap.mp (List.mem_of_find?_eq_some found)
  rw [(c.naming ancestor.id nearest registered).1, registered] at there
  rw [found, there]

theorem Consistent.findMethod_of_owner (c : db.Consistent) {cls : ClassInfo}
    (registered : (db.entry? cls.id).isSome) {owner : ClassId} {m : RegisteredMethod}
    (h : .method owner m ∈ db.items) (own : db.methodOwner? cls m.info.name = some owner) :
    db.findMethod cls m.info.name = .ok m := by
  obtain ⟨entry, there, found⟩ := c.find?_method h
  have answer : db.methodOf? cls m.info.name = some m :=
    (findSome?_of_find? (c.lineage_of_owner own there)).trans found
  have known : ¬ (db.entry? cls.id).isNone = true := by
    rwa [Option.isNone_iff_eq_none, ← ne_eq, Option.ne_none_iff_isSome]
  rw [findMethod, if_neg known, answer]

theorem Consistent.findProperty_of_owner (c : db.Consistent) {cls : ClassInfo}
    (registered : (db.entry? cls.id).isSome) {owner : ClassId} {p : RegisteredProperty}
    (h : .property owner p ∈ db.items) (own : db.propertyOwner? cls p.info.name = some owner) :
    db.findProperty cls p.info.name = .ok p := by
  obtain ⟨entry, there, found⟩ := c.find?_property h
  have answer : db.propertyOf? cls p.info.name = some p :=
    (findSome?_of_find? (c.lineage_of_owner own there)).trans found
  have known : ¬ (db.entry? cls.id).isNone = true := by
    rwa [Option.isNone_iff_eq_none, ← ne_eq, Option.ne_none_iff_isSome]
  rw [findProperty, if_neg known, answer]

/-! ## Array properties -/

/-- What the database answers for an array property and its accessors. -/
structure AnswersArray (db : ClassDb) (cls owner : ClassInfo) (elem : ElementType)
    (field name : String) : Prop where
  property : db.findProperty cls name =
    .ok ⟨.ofArray elem name, getterName name, setterName name⟩
  getter : ∃ info, db.findMethod cls (getterName name) = .ok ⟨info, arrayGetter owner field⟩
  setter : ∃ info, db.findMethod cls (setterName name) = .ok ⟨info, arraySetter owner field⟩

/-- **A registered array property is what its class answers with**, and so are its accessors. -/
theorem Consistent.answersArray (c : db.Consistent) {cls owner : ClassInfo} {elem : ElementType}
    {field name : String}
    (registered : ∀ part ∈ arrayPropertyRegistrations owner elem field name,
      part.item ∈ db.items)
    (answers : db.AnswersFrom cls name owner.id) :
    db.AnswersArray cls owner elem field name := by
  simp only [arrayPropertyRegistrations, List.forall_mem_cons] at registered
  obtain ⟨getter, setter, row, _⟩ := registered
  exact
    { property := c.findProperty_of_owner answers.registered row answers.property
      getter := ⟨_, c.findMethod_of_owner answers.registered getter answers.getter⟩
      setter := ⟨_, c.findMethod_of_owner answers.registered setter answers.setter⟩ }

end ClassDb

end ArrayBridge
