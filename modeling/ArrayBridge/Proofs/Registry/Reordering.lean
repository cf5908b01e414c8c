import ArrayBridge.Proofs.Registry.Composite
import Mathlib.Data.String.Basic

/-!
# Registration in another order

Two lists of the same registrations, in different orders, come to databases that answer alike, if
everything is accepted in both.

**The items decide.** All that a consistent database answers, but for the order of signals, is
decided by the items that are registered in it; where they stand in the tables plays no part
(`Consistent.answersAlike`, `Consistent.dispatchesAlike`). A registration that is accepted adds its
item, so the two databases have the same items (`Consistent.items_registerAll`).

**Signals** of a class are listed as they were registered. Order shows there and nowhere else, and
what it shows is the order of the one list (`signalsOf_registerAll`).

**Which orders are accepted** is not asked. A base comes before what is derived from it, a class
before its members and an accessor before its property, but of this nothing is needed besides that
the whole list was accepted.
-/

namespace ArrayBridge

/-- The signal that a registration adds to the class with the identity. -/
def Registration.signalOn? (id : ClassId) : Registration → Option SignalInfo
  | .newSignal cls info => if cls.id = id then some info else none
  | _ => none

namespace ClassDb

open ClassEntry (ownMethod ownProperty)

variable {db db' : ClassDb} {cls : ClassInfo} {name : String}

/-- **Every question has one answer** in the two databases; the signals of a class may be listed in
different orders. -/
structure AnswersAlike (db db' : ClassDb) : Prop where
  class? : ∀ name, db.class? name = db'.class? name
  containsClass : ∀ name, db.containsClass name = db'.containsClass name
  classCount : db.classCount = db'.classCount
  method? : ∀ cls name, db.method? cls name = db'.method? cls name
  property? : ∀ cls name, db.property? cls name = db'.property? cls name
  propertyNames : ∀ cls, db.propertyNames cls = db'.propertyNames cls
  debugText : db.debugText = db'.debugText

/-- **Every call and every access has one outcome**: the same method or property is found, or it is
missed for the same reason, and the world is the same afterwards. -/
structure DispatchesAlike (db db' : ClassDb) : Prop where
  findMethod : ∀ cls name, db.findMethod cls name = db'.findMethod cls name
  findProperty : ∀ cls name, db.findProperty cls name = db'.findProperty cls name
  call : ∀ w o name arguments, db.call w o name arguments = db'.call w o name arguments
  getProperty : ∀ w o name, db.getProperty w o name = db'.getProperty w o name
  setProperty : ∀ w o name value, db.setProperty w o name value = db'.setProperty w o name value

/-! ## Sorted lists and tables -/

/-- Sorting forgets the order. -/
theorem sorted_eq_of_perm {names names' : List String} (same : names.Perm names') :
    sorted names = sorted names' := by
  have ordered : ∀ names, (sorted names).Pairwise (· ≤ ·) := by
    intro names
    refine (List.pairwise_mergeSort ?_ ?_ names).imp of_decide_eq_true
    · intro a b c ab bc
      exact decide_eq_true (le_trans (of_decide_eq_true ab) (of_decide_eq_true bc))
    · intro a b
      simpa using le_total a b
  have kept : ∀ names, (sorted names).Perm names := fun names => List.mergeSort_perm names _
  exact List.Perm.eq_of_pairwise (fun a b _ _ => le_antisymm) (ordered names) (ordered names')
    ((kept names).trans (same.trans (kept names').symm))

/-- Two tables without double keys that have entries under the same keys. -/
theorem keys_perm {κ α β : Type} [DecidableEq κ] {table : List (κ × α)} {table' : List (κ × β)}
    (unique : (keys table).Nodup) (unique' : (keys table').Nodup)
    (same : ∀ key, (find? table key).isSome = (find? table' key).isSome) :
    (keys table).Perm (keys table') := by
  refine (List.perm_ext_iff_of_nodup unique unique').mpr fun key => ?_
  rw [← isSome_find?_iff, ← isSome_find?_iff, same]

/-! ## What the items decide -/

theorem Consistent.entry?_of_entryNamed? (c : db.Consistent) {entry : ClassEntry}
    (named : db.entryNamed? name = some entry) : db.entry? entry.info.id = some entry := by
  obtain ⟨id, _, there⟩ := Option.bind_eq_some_iff.mp named
  rwa [(c.naming id entry there).1]

theorem class?_eq_bind (db : ClassDb) (name : String) : db.class? name =
    (find? db.names name).bind fun id => (db.entry? id).map ClassEntry.info := Option.map_bind

theorem method?_eq_bind (db : ClassDb) (cls name : String) : db.method? cls name =
    (db.class? cls).bind fun info => (db.methodOf? info name).map RegisteredMethod.info := by
  rw [class?, Option.bind_map]
  rfl

theorem property?_eq_bind (db : ClassDb) (cls name : String) : db.property? cls name =
    (db.class? cls).bind fun info => (db.propertyOf? info name).map RegisteredProperty.info := by
  rw [class?, Option.bind_map]
  rfl

section SameItems

variable (c : db.Consistent) (c' : db'.Consistent)
  (same : ∀ item, item ∈ db.items ↔ item ∈ db'.items)

include c c' same

theorem record_congr (id : ClassId) :
    (db.entry? id).map ClassEntry.info = (db'.entry? id).map ClassEntry.info := by
  refine Option.ext fun info => ?_
  rw [c.record_eq_some_iff, c'.record_eq_some_iff, same]

theorem isSome_entry?_congr (id : ClassId) :
    (db.entry? id).isSome = (db'.entry? id).isSome := by
  simpa using congrArg Option.isSome (record_congr c c' same id)

theorem find?_names_congr (name : String) : find? db.names name = find? db'.names name := by
  refine Option.ext fun id => ?_
  simp only [c.find?_names_eq_some_iff, c'.find?_names_eq_some_iff, same]

theorem ownMethod_congr (name : String) :
    db.ownOf (ownMethod name) = db'.ownOf (ownMethod name) := by
  funext cls
  refine Option.ext fun m => ?_
  rw [c.ownOf_method_iff, c'.ownOf_method_iff, same]

theorem ownProperty_congr (name : String) :
    db.ownOf (ownProperty name) = db'.ownOf (ownProperty name) := by
  funext cls
  refine Option.ext fun p => ?_
  rw [c.ownOf_property_iff, c'.ownOf_property_iff, same]

theorem methodOf?_congr (cls : ClassInfo) (name : String) :
    db.methodOf? cls name = db'.methodOf? cls name := by
  have own := ownMethod_congr c c' same name
  calc db.methodOf? cls name
    _ = cls.ancestors.findSome? (db.ownOf (ownMethod name)) := findSome?_lineage db cls _
    _ = cls.ancestors.findSome? (db'.ownOf (ownMethod name)) := by rw [own]
    _ = db'.methodOf? cls name := (findSome?_lineage db' cls _).symm

theorem propertyOf?_congr (cls : ClassInfo) (name : String) :
    db.propertyOf? cls name = db'.propertyOf? cls name := by
  have own := ownProperty_congr c c' same name
  calc db.propertyOf? cls name
    _ = cls.ancestors.findSome? (db.ownOf (ownProperty name)) := findSome?_lineage db cls _
    _ = cls.ancestors.findSome? (db'.ownOf (ownProperty name)) := by rw [own]
    _ = db'.propertyOf? cls name := (findSome?_lineage db' cls _).symm

theorem class?_congr (name : String) : db.class? name = db'.class? name := by
  rw [class?_eq_bind, class?_eq_bind, find?_names_congr c c' same]
  exact congrArg _ (funext (record_congr c c' same))

/-- A class has properties of its own under the same names. -/
theorem keys_properties_perm {entry entry' : ClassEntry}
    (there : db.entry? cls.id = some entry) (there' : db'.entry? cls.id = some entry') :
    (keys entry.properties).Perm (keys entry'.properties) := by
  refine keys_perm (c.members _ entry there).properties (c'.members _ entry' there').properties
    fun name => ?_
  have own := congrFun (ownProperty_congr c c' same name) cls
  rw [ownOf, ownOf, there, there'] at own
  exact congrArg Option.isSome own

theorem propertyNames_congr (name : String) : db.propertyNames name = db'.propertyNames name := by
  have classes := class?_congr c c' same name
  unfold class? at classes
  unfold propertyNames
  cases named : db.entryNamed? name with
  | none =>
    rw [named] at classes
    rw [Option.map_eq_none_iff.mp classes.symm]
  | some entry =>
    rw [named] at classes
    obtain ⟨entry', named', record⟩ := Option.map_eq_some_iff.mp classes.symm
    have there' := c'.entry?_of_entryNamed? named'
    rw [record] at there'
    rw [named']
    exact sorted_eq_of_perm
      (keys_properties_perm c c' same (c.entry?_of_entryNamed? named) there')

theorem findMethod_congr (cls : ClassInfo) (name : String) :
    db.findMethod cls name = db'.findMethod cls name := by
  have registered := isSome_entry?_congr c c' same cls.id
  unfold findMethod
  rw [← Option.not_isSome, ← Option.not_isSome, registered, methodOf?_congr c c' same]

theorem findProperty_congr (cls : ClassInfo) (name : String) :
    db.findProperty cls name = db'.findProperty cls name := by
  have registered := isSome_entry?_congr c c' same cls.id
  unfold findProperty
  rw [← Option.not_isSome, ← Option.not_isSome, registered, propertyOf?_congr c c' same]

/-- **The items decide all answers**, but for the order of signals. -/
theorem Consistent.answersAlike : db.AnswersAlike db' where
  class? := class?_congr c c' same
  containsClass name := congrArg Option.isSome (find?_names_congr c c' same name)
  classCount := by
    have classes := keys_perm c.identities c'.identities (isSome_entry?_congr c c' same)
    simpa only [classCount, keys, List.length_map] using classes.length_eq
  method? cls name := by
    rw [method?_eq_bind, method?_eq_bind, class?_congr c c' same]
    exact congrArg _ (funext fun info => by rw [methodOf?_congr c c' same])
  property? cls name := by
    rw [property?_eq_bind, property?_eq_bind, class?_congr c c' same]
    exact congrArg _ (funext fun info => by rw [propertyOf?_congr c c' same])
  propertyNames := propertyNames_congr c c' same
  debugText := by
    have names := keys_perm c.names c'.names fun name =>
      congrArg Option.isSome (find?_names_congr c c' same name)
    have listed := sorted_eq_of_perm names
    unfold keys at listed
    unfold debugText
    rw [listed]

/-- **The items decide what is called.** A call needs nothing of the database but the method that is
found, and an access the property and then a call. -/
theorem Consistent.dispatchesAlike : db.DispatchesAlike db' := by
  have methods := findMethod_congr c c' same
  have properties := findProperty_congr c c' same
  have calls : ∀ w o name arguments, db.call w o name arguments = db'.call w o name arguments := by
    intro w o name arguments
    simp only [call, methods]
  exact
    { findMethod := methods
      findProperty := properties
      call := calls
      getProperty := fun w o name => by simp only [getProperty, properties, calls]
      setProperty := fun w o name value => by simp only [setProperty, properties, calls] }

end SameItems

/-! ## A whole list of registrations -/

section Accepted

variable {part : Registration} {parts : List Registration}

/-- Where all of a list is accepted, its items are added to those that are there. -/
theorem Consistent.items_registerAll (c : db.Consistent)
    (accepted : (db.registerAll parts).refusal = none) :
    (db.registerAll parts).db.items.Perm (parts.map Registration.item ++ db.items) := by
  induction parts generalizing db with
  | nil => exact .refl _
  | cons part rest ih =>
    have ends : db.Ends (part :: rest) (db.registerAll (part :: rest)).db none := ⟨rfl, accepted⟩
    rcases ends.of_cons with ⟨next, first, more⟩ | ⟨_, _, _, refused⟩
    · have added := ih (c.register first) more.answers
      rw [more.leaves] at added
      -- the item of the first part stands behind those of the others
      exact (added.trans ((c.items_register first).append_left _)).trans List.perm_middle
    · cases refused

/-! ## Signals -/

/-- The signals of the class with the identity, in order. -/
def signalsOf (db : ClassDb) (id : ClassId) : List SignalInfo :=
  (db.entry? id).elim [] ClassEntry.signals

/-- The signals that some registrations add to the class with the identity, in order. -/
def signalsAmong (parts : List Registration) (id : ClassId) : List SignalInfo :=
  parts.filterMap (Registration.signalOn? id)

/-- What an entry gets is found behind the signals of its class, and nowhere else. -/
theorem signalsOf_changeEntry {owner : ClassId} (registered : (db.entry? owner).isSome)
    {f : ClassEntry → ClassEntry} (signals : List SignalInfo)
    (grown : ∀ entry, (f entry).signals = entry.signals ++ signals) (id : ClassId) :
    (db.changeEntry owner f).signalsOf id =
      db.signalsOf id ++ if owner = id then signals else [] := by
  have found : ClassDb.entry? (db.changeEntry owner f) id = _ := find?_change db.classes owner f id
  obtain ⟨entry, there⟩ := Option.isSome_iff_exists.mp registered
  unfold signalsOf
  rw [found]
  by_cases here : owner = id
  · subst here
    rw [if_pos rfl, if_pos rfl]
    show ((db.entry? owner).map f).elim [] ClassEntry.signals = _
    rw [there]
    exact grown entry
  · rw [if_neg (Ne.symm here), if_neg here, List.append_nil]
    rfl

/-- An entry that gets no signal leaves those of its class. -/
theorem signalsOf_changeEntry_of_same {owner : ClassId} (registered : (db.entry? owner).isSome)
    {f : ClassEntry → ClassEntry} (kept : ∀ entry, (f entry).signals = entry.signals)
    (id : ClassId) : (db.changeEntry owner f).signalsOf id = db.signalsOf id := by
  have grown := signalsOf_changeEntry registered []
    (fun entry => (kept entry).trans (List.append_nil _).symm) id
  rwa [ite_self, List.append_nil] at grown

/-- A new class has no signals, and there were none under its identity. -/
theorem signalsOf_insertClass {info : ClassInfo} (free : db.entry? info.id = none) (id : ClassId) :
    (db.insertClass info).signalsOf id = db.signalsOf id := by
  unfold signalsOf
  by_cases here : info.id = id
  · subst here
    have found : ClassDb.entry? (db.insertClass info) info.id = _ := find?_concat_self free _
    rw [found, free]
    rfl
  · have found : ClassDb.entry? (db.insertClass info) id = _ := find?_concat_of_ne here _
    rw [found]
    rfl

/-- **A registration adds its signal**, if it is one, behind those that the class has. -/
theorem signalsOf_register (h : db.register part = .ok db') (id : ClassId) :
    db'.signalsOf id = db.signalsOf id ++ (part.signalOn? id).toList := by
  have registered : ∀ {cls : ClassInfo} {entry}, db.entry? cls.id = some entry →
      (db.entry? cls.id).isSome := fun there => by rw [there]; rfl
  cases part with
  | newClass info =>
    obtain ⟨identity, _, _, rfl⟩ := addClass_ok h
    rw [signalsOf_insertClass identity]
    exact (List.append_nil _).symm
  | newMethod cls info body =>
    obtain ⟨entry, there, h⟩ := bind_entryFor_ok h
    split at h
    · cases h
    · cases h
      rw [signalsOf_changeEntry_of_same (registered there)]
      · exact (List.append_nil _).symm
      · exact fun _ => rfl
  | newProperty cls info getter setter =>
    obtain ⟨entry, there, h⟩ := bind_entryFor_ok h
    split at h
    · cases h
    · split at h
      · cases h
      · cases h
        rw [signalsOf_changeEntry_of_same (registered there)]
        · exact (List.append_nil _).symm
        · exact fun _ => rfl
  | newSignal cls info =>
    obtain ⟨entry, there, h⟩ := bind_entryFor_ok h
    split at h
    · cases h
    · cases h
      rw [signalsOf_changeEntry (registered there) [info] fun _ => rfl]
      show _ = _ ++ (if cls.id = id then some info else none).toList
      split <;> rfl

/-- **Signals stand in the order of the list** that registered them. -/
theorem signalsOf_registerAll (accepted : (db.registerAll parts).refusal = none) (id : ClassId) :
    (db.registerAll parts).db.signalsOf id = db.signalsOf id ++ signalsAmong parts id := by
  induction parts generalizing db with
  | nil => exact (List.append_nil _).symm
  | cons part rest ih =>
    have ends : db.Ends (part :: rest) (db.registerAll (part :: rest)).db none := ⟨rfl, accepted⟩
    rcases ends.of_cons with ⟨next, first, more⟩ | ⟨_, _, _, refused⟩
    · rw [← more.leaves, ih more.answers, signalsOf_register first, List.append_assoc]
      unfold signalsAmong
      rw [List.filterMap_cons]
      cases part.signalOn? id <;> rfl
    · cases refused

/-- A query by name lists the signals of the class that has the name. -/
theorem Consistent.signals_eq (c : db.Consistent) (name : String) :
    db.signals name = (db.class? name).elim [] fun info => db.signalsOf info.id := by
  unfold signals class?
  cases named : db.entryNamed? name with
  | none => rfl
  | some entry =>
    show entry.signals = db.signalsOf entry.info.id
    rw [signalsOf, c.entry?_of_entryNamed? named]
    rfl

theorem signalsOf_new (id : ClassId) : ClassDb.new.signalsOf id = [] := by
  unfold new
  rw [signalsOf_insertClass (by decide +kernel), signalsOf_insertClass rfl]
  rfl

/-- From a new database on, the signals of a class are those that the list registers. -/
theorem signals_registerAll (accepted : (ClassDb.new.registerAll parts).refusal = none)
    (name : String) : (ClassDb.new.registerAll parts).db.signals name =
      ((ClassDb.new.registerAll parts).db.class? name).elim [] fun info =>
        signalsAmong parts info.id := by
  obtain ⟨c, _⟩ := consistent_new.registerAll accepted
  rw [c.signals_eq]
  simp only [signalsOf_registerAll accepted, signalsOf_new, List.nil_append]

end Accepted

end ClassDb

/-- **Registration in another order.** For two lists of the same registrations, each in its own
order, of which everything is accepted:

- every question about classes, methods and properties has one answer in the two databases, and they
  look alike to a developer;
- every call of a method and every access to a property has one outcome, with any object, name and
  arguments and in any world;
- the signals of a class are the same, and either database has them in the order of its list. -/
theorem registration_order_is_irrelevant {parts parts' : List Registration}
    (same : parts.Perm parts') (accepted : (ClassDb.new.registerAll parts).refusal = none)
    (accepted' : (ClassDb.new.registerAll parts').refusal = none) :
    let db := (ClassDb.new.registerAll parts).db
    let db' := (ClassDb.new.registerAll parts').db
    db.AnswersAlike db' ∧ db.DispatchesAlike db' ∧
    ∀ name, (db.signals name).Perm (db'.signals name) ∧
      db.signals name = (db.class? name).elim [] (fun info =>
        ClassDb.signalsAmong parts info.id) ∧
      db'.signals name = (db'.class? name).elim [] fun info =>
        ClassDb.signalsAmong parts' info.id := by
  intro db db'
  obtain ⟨c, _⟩ := ClassDb.consistent_new.registerAll accepted
  obtain ⟨c', _⟩ := ClassDb.consistent_new.registerAll accepted'
  have items : ∀ item, item ∈ db.items ↔ item ∈ db'.items := by
    have added := ClassDb.consistent_new.items_registerAll accepted
    have added' := ClassDb.consistent_new.items_registerAll accepted'
    intro item
    rw [added.mem_iff, added'.mem_iff]
    exact ((same.map Registration.item).append_right _).mem_iff
  have answers := c.answersAlike c' items
  refine ⟨answers, c.dispatchesAlike c' items, fun name => ?_⟩
  have listed := ClassDb.signals_registerAll accepted name
  have listed' := ClassDb.signals_registerAll accepted' name
  refine ⟨?_, listed, listed'⟩
  rw [listed, listed', answers.class? name]
  cases ClassDb.class? db' name with
  | none => exact .refl _
  | some info => exact same.filterMap _

/-- A property of a class with its accessors, and a signal of the class. -/
def storeMembers : List Registration :=
  [ .newMethod storeClass (.plain "size" none []) (.constant (.int 1)),
    .newMethod storeClass (.plain "resize" none []) .silent,
    .newProperty storeClass (.plain .int "length") "size" "resize",
    .newSignal storeClass ⟨"resized", []⟩ ]

/-- A class derived from it with a getter of its own, and one more signal of its base. -/
def boxMembers : List Registration :=
  [ .newClass boxClass,
    .newMethod boxClass (.plain "size" none []) (.constant (.int 2)),
    .newSignal storeClass ⟨"moved", []⟩ ]

/-- The derived class may come before the members of its base. What is read from its objects is the
same; the signals of the base change places. -/
theorem registration_order_is_irrelevant_interleaved :
    let outcome := ClassDb.new.registerAll (.newClass storeClass :: (storeMembers ++ boxMembers))
    let outcome' := ClassDb.new.registerAll (.newClass storeClass :: (boxMembers ++ storeMembers))
    outcome.refusal = none ∧ outcome'.refusal = none ∧
      outcome.db.property? "Box" "length" = outcome'.db.property? "Box" "length" ∧
      (∀ w o, outcome.db.getProperty w o "length" = outcome'.db.getProperty w o "length") ∧
      outcome.db.signals "Store" = [⟨"resized", []⟩, ⟨"moved", []⟩] ∧
      outcome'.db.signals "Store" = [⟨"moved", []⟩, ⟨"resized", []⟩] := by
  intro outcome outcome'
  have accepted : outcome.refusal = none := by decide +kernel
  have accepted' : outcome'.refusal = none := by decide +kernel
  have same : (Registration.newClass storeClass :: (storeMembers ++ boxMembers)).Perm
      (.newClass storeClass :: (boxMembers ++ storeMembers)) := List.perm_append_comm.cons _
  obtain ⟨answers, dispatches, signals⟩ := registration_order_is_irrelevant same accepted accepted'
  obtain ⟨_, listed, listed'⟩ := signals "Store"
  exact ⟨accepted, accepted', answers.property? _ _,
    fun w o => dispatches.getProperty w o _, listed.trans (by decide +kernel),
    listed'.trans (by decide +kernel)⟩

end ArrayBridge
