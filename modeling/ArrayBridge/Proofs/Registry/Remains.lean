import ArrayBridge.Proofs.Registry.Composite

/-!
# What refused registrations leave behind

A composite registration that is refused is not undone. What it leaves is told case by case, and
what that means for another attempt at the same.

**Registered for good** (`Consistent.registered_afterAttempts`,
`Consistent.ownMethod_afterAttempts`). Whatever is attempted later, a class that is registered stays
so, and keeps its methods. So after a refusal for a name that is taken every other attempt is
refused as well, and also after a refusal that left an accessor or the class behind. Only a class
or a base that was missing can be made up for.
-/

namespace ArrayBridge

namespace ClassDb

open ClassEntry (ownMethod ownProperty)

variable {db left : ClassDb} {cls : ClassInfo} {e : Export} {exports : List Export}
  {parts : List Registration} {refusal : Option RegistrationError}

/-! ## Registered for good -/

theorem Consistent.ends (c : db.Consistent) (h : db.Ends parts left refusal) :
    left.Consistent := by
  induction parts generalizing db with
  | nil =>
    obtain rfl : db = left := h.leaves
    exact c
  | cons part rest ih =>
    rcases h.of_cons with ⟨next, first, more⟩ | ⟨_, _, rfl, _⟩
    · exact ih (c.register first) more
    · exact c

/-- A class that is registered stays so. -/
theorem Consistent.registered_afterAttempts (c : db.Consistent) (later : List Registration)
    {id : ClassId} (there : (db.entry? id).isSome) :
    (ClassDb.entry? (db.afterAttempts later) id).isSome := by
  obtain ⟨entry, there⟩ := Option.isSome_iff_exists.mp there
  obtain ⟨item, identity⟩ := c.record_eq_some_iff.mp (congrArg (Option.map ClassEntry.info) there)
  have record := (c.afterAttempts later).record_eq_some_iff.mpr
    ⟨(c.mem_items_afterAttempts later).mpr (.inl item), identity⟩
  obtain ⟨_, there', _⟩ := Option.map_eq_some_iff.mp record
  rw [there']
  rfl

/-- A class keeps its methods. -/
theorem Consistent.ownMethod_afterAttempts (c : db.Consistent) (later : List Registration)
    {name : String} (own : (db.ownOf (ownMethod name) cls).isSome) :
    ((db.afterAttempts later).ownOf (ownMethod name) cls).isSome := by
  obtain ⟨m, own⟩ := Option.isSome_iff_exists.mp own
  obtain ⟨item, named⟩ := c.ownOf_method_iff.mp own
  rw [(c.afterAttempts later).ownOf_method_iff.mpr
    ⟨(c.mem_items_afterAttempts later).mpr (.inl item), named⟩]
  rfl

/-! ## An array property -/

namespace PropertyCourse

variable (course : db.PropertyCourse cls e left refusal)

include course

theorem refusal_eq_none_iff : refusal = none ↔ (db.entry? cls.id).isSome ∧
    db.ownOf (ownMethod (getterName e.property)) cls = none ∧
    db.ownOf (ownMethod (setterName e.property)) cls = none ∧
    db.ownOf (ownProperty e.property) cls = none := by
  cases course with
  | unknown none => simp [none]
  | getterTaken _ taken => simp [Option.ne_none_iff_isSome.mpr taken]
  | setterTaken _ _ taken => simp [Option.ne_none_iff_isSome.mpr taken]
  | propertyTaken _ _ _ taken => simp [Option.ne_none_iff_isSome.mpr taken]
  | complete registered getter setter property => simp [registered, getter, setter, property]

/-- The database is as it was where the class was missing or the first name was taken. -/
theorem unchanged (h : db.entry? cls.id = none ∨
    (db.ownOf (ownMethod (getterName e.property)) cls).isSome) : left = db := by
  cases course with
  | unknown => rfl
  | getterTaken => rfl
  | setterTaken registered free _ => simp_all
  | propertyTaken registered free _ _ => simp_all
  | complete registered free _ _ => simp_all

/-- What was registered is there. -/
theorem present (all : refusal = none) :
    left.ownOf (ownMethod (getterName e.property)) cls = some (e.getter cls) ∧
      left.ownOf (ownMethod (setterName e.property)) cls = some (e.setter cls) ∧
      left.ownOf (ownProperty e.property) cls = some e.registered := by
  cases course with
  | complete registered getter setter property =>
    rw [ownMethod_extend registered, ownMethod_extend registered, ownProperty_extend registered,
      getter, setter, property]
    refine ⟨?_, ?_, ?_⟩
    · exact (find?_cons _ _ _).trans (if_pos rfl)
    · refine (find?_cons _ _ _).trans ((if_neg (getterName_ne_setterName _ _)).trans ?_)
      exact (find?_cons _ _ _).trans (if_pos rfl)
    · exact (find?_cons _ _ _).trans (if_pos rfl)
  | _ => cases all

/-- The class has the getter, its own or another, unless the class was missing. -/
theorem getter_remains (registered : (db.entry? cls.id).isSome) :
    (left.ownOf (ownMethod (getterName e.property)) cls).isSome := by
  cases course with
  | unknown none => simp [none] at registered
  | getterTaken _ taken => exact taken
  | setterTaken => simp [ownMethod_extend registered, find?_cons]
  | propertyTaken => simp [ownMethod_extend registered, Export.accessorRows, find?_cons]
  | complete => simp [ownMethod_extend registered, Export.accessorRows, find?_cons]

end PropertyCourse

/-! ## A class with its exports -/

/-- With a repeated property name no list is distinct. -/
theorem not_nodup_of_repeats {before : List Export} {e : Export}
    (again : e.property ∈ before.map Export.property) (after : List Export) :
    ¬ ((before ++ e :: after).map Export.property).Nodup := by
  rw [List.map_append, List.map_cons, List.nodup_append]
  rintro ⟨_, _, apart⟩
  exact apart _ again _ List.mem_cons_self rfl

/-- The first export that repeats a property name has one place. -/
theorem before_eq_of_repeats {before before' after after' : List Export} {e e' : Export}
    (same : before ++ e :: after = before' ++ e' :: after')
    (distinct : (before.map Export.property).Nodup)
    (again : e.property ∈ before.map Export.property)
    (distinct' : (before'.map Export.property).Nodup)
    (again' : e'.property ∈ before'.map Export.property) : before = before' := by
  -- if one of the two came later, the other would stand among what is before it
  rcases List.append_eq_append_iff.mp same with ⟨more, later, rest⟩ | ⟨more, later, rest⟩
  · cases more with
    | nil => rw [later, List.append_nil]
    | cons e'' more =>
      cases rest
      rw [later] at distinct'
      exact absurd distinct' (not_nodup_of_repeats again more)
  · cases more with
    | nil => rw [later, List.append_nil]
    | cons e'' more =>
      cases rest
      rw [later] at distinct
      exact absurd distinct (not_nodup_of_repeats again' more)

namespace ExportsCourse

/-- An export that repeats a property name ends the registration of a class that is admitted. -/
theorem left_of_repeated (before : List Export) {after : List Export} {e : Export}
    (course : db.ExportsCourse cls (before ++ e :: after) left refusal) (admits : db.Admits cls)
    (distinct : (before.map Export.property).Nodup)
    (again : e.property ∈ before.map Export.property) : left = db.withExports cls before := by
  cases course with
  | taken taken => simp [admits.identity, admits.name] at taken
  | baseless _ _ isBase missing => simpa [missing] using admits.base _ isBase
  | repeated _ before' e' after' split distinct' again' =>
    rw [before_eq_of_repeats split distinct again distinct' again']
  | complete _ all => exact absurd all (not_nodup_of_repeats again after)

variable (course : db.ExportsCourse cls exports left refusal)

include course

theorem refusal_eq_none_iff :
    refusal = none ↔ db.Admits cls ∧ (exports.map Export.property).Nodup := by
  cases course with
  | taken taken =>
    have inadmissible : ¬ db.Admits cls := fun admits => by
      simp [admits.identity, admits.name] at taken
    simp [inadmissible]
  | baseless _ _ isBase missing =>
    have inadmissible : ¬ db.Admits cls := fun admits => by
      simpa [missing] using admits.base _ isBase
    simp [inadmissible]
  | repeated admits before e after split distinct again =>
    have repeats : ¬ (exports.map Export.property).Nodup := split ▸ not_nodup_of_repeats again after
    simp [repeats]
  | complete admits distinct => simp [admits, distinct]

/-- The database is as it was where the class was refused. -/
theorem unchanged (h : ¬ db.Admits cls) : left = db := by
  cases course with
  | taken => rfl
  | baseless => rfl
  | repeated admits => exact absurd admits h
  | complete admits => exact absurd admits h

theorem left_of_accepted (all : refusal = none) : left = db.withExports cls exports := by
  cases course with
  | complete => rfl
  | _ => cases all

/-- The class is there, unless it was refused. -/
theorem class_remains (admits : db.Admits cls) : (left.entry? cls.id).isSome := by
  cases course with
  | taken taken => simp [admits.identity, admits.name] at taken
  | baseless _ _ isBase missing => simpa [missing] using admits.base _ isBase
  | repeated => rw [entry?_withExports admits.identity]; rfl
  | complete => rw [entry?_withExports admits.identity]; rfl

end ExportsCourse

/-! ## Another attempt -/

/-- The courses that the attempts at an array property and at a class with its exports take. -/
theorem propertyCourse (db : ClassDb) (cls : ClassInfo) (e : Export) :
    db.PropertyCourse cls e (db.registerAll (e.registrations cls)).db
      (db.registerAll (e.registrations cls)).refusal := by
  obtain ⟨left, refusal, ends, course⟩ := db.exists_propertyCourse cls e
  rwa [ends.leaves, ends.answers]

theorem exportsCourse (db : ClassDb) (cls : ClassInfo) (exports : List Export) :
    db.ExportsCourse cls exports (db.registerAll (exportRegistrations cls exports)).db
      (db.registerAll (exportRegistrations cls exports)).refusal := by
  obtain ⟨left, refusal, ends, course⟩ := db.exists_exportsCourse cls exports
  rwa [ends.leaves, ends.answers]

/-- Once the class was there, an array property is never registered by a second attempt. -/
theorem Consistent.property_refused_again (c : db.Consistent)
    (registered : (db.entry? cls.id).isSome) (e : Export) (later : List Registration) :
    let left := (db.registerAll (e.registrations cls)).db
    ((left.afterAttempts later).registerAll (e.registrations cls)).refusal.isSome := by
  intro left
  have consistent : left.Consistent := c.ends ⟨rfl, rfl⟩
  have taken := consistent.ownMethod_afterAttempts later
    ((db.propertyCourse cls e).getter_remains registered)
  rw [← Option.ne_none_iff_isSome]
  intro all
  obtain ⟨_, free, _⟩ :=
    ((left.afterAttempts later).propertyCourse cls e).refusal_eq_none_iff.mp all
  rw [free] at taken
  cases taken

/-- Once a class could be accepted, it is never registered with its exports by a second attempt. -/
theorem Consistent.exports_refused_again (c : db.Consistent) (admits : db.Admits cls)
    (exports : List Export) (later : List Registration) :
    let left := (db.registerAll (exportRegistrations cls exports)).db
    ((left.afterAttempts later).registerAll (exportRegistrations cls exports)).refusal.isSome := by
  intro left
  have consistent : left.Consistent := c.ends ⟨rfl, rfl⟩
  have there := consistent.registered_afterAttempts later
    ((db.exportsCourse cls exports).class_remains admits)
  rw [← Option.ne_none_iff_isSome]
  intro all
  obtain ⟨admits, _⟩ :=
    ((left.afterAttempts later).exportsCourse cls exports).refusal_eq_none_iff.mp all
  rw [admits.identity] at there
  cases there

/-- Nothing is in the way of an array property of a class that was just registered. -/
theorem property_accepted_after_class {next : ClassDb}
    (added : db.register (.newClass cls) = .ok next) (e : Export) :
    (next.registerAll (e.registrations cls)).refusal = none := by
  obtain ⟨identity, _, _, rfl⟩ := addClass_ok added
  have there : ClassDb.entry? (db.insertClass cls) cls.id = some (.bare cls) :=
    find?_concat_self identity _
  refine ((db.insertClass cls).propertyCourse cls e).refusal_eq_none_iff.mpr ⟨?_, ?_, ?_, ?_⟩
  · rw [there]
    rfl
  · exact Option.not_isSome_iff_eq_none.mp
      ((isSome_getter_withExports identity [] e.property).not.mpr List.not_mem_nil)
  · exact Option.not_isSome_iff_eq_none.mp
      ((isSome_setter_withExports identity [] e.property).not.mpr List.not_mem_nil)
  · exact Option.not_isSome_iff_eq_none.mp
      ((isSome_property_withExports identity [] e.property).not.mpr List.not_mem_nil)

end ClassDb

open ClassEntry (ownMethod ownProperty)

/-- **What composite registrations leave behind**, whatever was attempted before.

Registering an array property

- takes its course by what is in the way (`ClassDb.PropertyCourse`); it is accepted exactly if the
  class is registered and has neither of the accessors nor the property, and then all three are
  there;
- changes nothing where the class is missing, and then it is accepted once the class is registered;
- changes nothing either where there is a method with the name of the getter. But wherever the class
  is registered, no later attempt at the same is accepted, whatever is attempted in between: after a
  refusal the getter stays, and the setter too if it was the property that was taken.

Registering a class with its exports

- takes its course by what is in the way (`ClassDb.ExportsCourse`); it is accepted exactly if the
  class is admitted and no two exports have one property name, and then the class and all of its
  exports are there;
- changes nothing where the class is not admitted. But where it is, no later attempt at the same is
  accepted: after a refusal the class stays, with the exports before the one that repeats a name. -/
theorem composite_registrations_remain (attempts : List Registration) (cls : ClassInfo) :
    let db := ClassDb.new.afterAttempts attempts
    (∀ e : Export,
      let outcome := db.registerAll (e.registrations cls)
      db.PropertyCourse cls e outcome.db outcome.refusal ∧
      (outcome.refusal = none ↔ (db.entry? cls.id).isSome ∧
        db.ownOf (ownMethod (getterName e.property)) cls = none ∧
        db.ownOf (ownMethod (setterName e.property)) cls = none ∧
        db.ownOf (ownProperty e.property) cls = none) ∧
      (outcome.refusal = none →
        outcome.db.ownOf (ownMethod (getterName e.property)) cls = some (e.getter cls) ∧
        outcome.db.ownOf (ownMethod (setterName e.property)) cls = some (e.setter cls) ∧
        outcome.db.ownOf (ownProperty e.property) cls = some e.registered) ∧
      (db.entry? cls.id = none → outcome.db = db ∧
        ∀ next, outcome.db.register (.newClass cls) = .ok next →
          (next.registerAll (e.registrations cls)).refusal = none) ∧
      ((db.ownOf (ownMethod (getterName e.property)) cls).isSome → outcome.db = db) ∧
      ((db.entry? cls.id).isSome → ∀ later,
        ((outcome.db.afterAttempts later).registerAll (e.registrations cls)).refusal.isSome)) ∧
    ∀ exports : List Export,
      let outcome := db.registerAll (exportRegistrations cls exports)
      db.ExportsCourse cls exports outcome.db outcome.refusal ∧
      (outcome.refusal = none ↔ db.Admits cls ∧ (exports.map Export.property).Nodup) ∧
      (outcome.refusal = none →
        outcome.db.entry? cls.id = some (.ofExports cls exports) ∧
        ClassDb.find? outcome.db.names cls.name = some cls.id) ∧
      (¬ db.Admits cls → outcome.db = db) ∧
      (db.Admits cls → ∀ later,
        ((outcome.db.afterAttempts later).registerAll
          (exportRegistrations cls exports)).refusal.isSome) := by
  intro db
  have c : db.Consistent := ClassDb.consistent_new.afterAttempts attempts
  constructor
  · intro e outcome
    have course := db.propertyCourse cls e
    refine ⟨course, course.refusal_eq_none_iff, course.present, fun missing => ?_,
      fun taken => course.unchanged (.inr taken), fun registered later => ?_⟩
    · exact ⟨course.unchanged (.inl missing), fun next added =>
        ClassDb.property_accepted_after_class added e⟩
    · exact c.property_refused_again registered e later
  · intro exports outcome
    have course := db.exportsCourse cls exports
    refine ⟨course, course.refusal_eq_none_iff, fun all => ?_, course.unchanged,
      fun admits later => c.exports_refused_again admits exports later⟩
    obtain ⟨admits, _⟩ := course.refusal_eq_none_iff.mp all
    rw [course.left_of_accepted all]
    exact ⟨ClassDb.entry?_withExports admits.identity, ClassDb.find?_concat_self admits.name _⟩

/-- A class that has a method with the name of a setter. -/
def withSetter : List Registration :=
  [ .newClass (ClassInfo.refCounted.extend "Node" ⟨2⟩),
    .newMethod (ClassInfo.refCounted.extend "Node" ⟨2⟩) (.plain "set_items" none []) .silent ]

/-- A bridge to be exported as the property `items`. -/
def itemsExport : Export := ⟨"items", .int .i64, "items"⟩

/-- With a method in the way of the setter no later attempt at the property is accepted, and of a
class with two exports of one property name the first stays. -/
theorem composite_registrations_remain_withSetter :
    let db := ClassDb.new.afterAttempts withSetter
    let node := ClassInfo.refCounted.extend "Node" ⟨2⟩
    let leaf := node.extend "Leaf" ⟨3⟩
    let outcome := db.registerAll (itemsExport.registrations node)
    let outcome' := db.registerAll (exportRegistrations leaf [itemsExport, itemsExport])
    (db.entry? node.id).isSome ∧ db.Admits leaf ∧
      (∀ later, ((outcome.db.afterAttempts later).registerAll
        (itemsExport.registrations node)).refusal.isSome) ∧
      outcome'.db = db.withExports leaf [itemsExport] := by
  intro db node leaf outcome outcome'
  have registered : (db.entry? node.id).isSome := by decide +kernel
  have admits : db.Admits leaf := by
    refine ⟨by decide +kernel, by decide +kernel, fun base isBase => ?_⟩
    cases isBase
    exact registered
  obtain ⟨_, _, _, _, _, again⟩ := (composite_registrations_remain withSetter node).1 itemsExport
  obtain ⟨course, _⟩ :=
    (composite_registrations_remain withSetter leaf).2 [itemsExport, itemsExport]
  have first : outcome'.db = db.withExports leaf [itemsExport] :=
    course.left_of_repeated [itemsExport] admits (by decide) (by decide)
  exact ⟨registered, admits, again registered, first⟩

/-- **A refused registration is not undone**: with a method in the way of the setter the property is
refused, and the getter stays. -/
theorem refused_registration_leaves_getter :
    let db := ClassDb.new.afterAttempts withSetter
    let node := ClassInfo.refCounted.extend "Node" ⟨2⟩
    let outcome := db.registerAll (itemsExport.registrations node)
    outcome.refusal = some (.duplicateRegistration "Node" "set_items" .method) ∧
      db.ownOf (ownMethod "get_items") node = none ∧
      (outcome.db.ownOf (ownMethod "get_items") node).isSome ∧ outcome.db ≠ db := by
  intro db node outcome
  have before : db.ownOf (ownMethod "get_items") node = none :=
    Option.not_isSome_iff_eq_none.mp (by decide +kernel)
  have after : (outcome.db.ownOf (ownMethod "get_items") node).isSome := by decide +kernel
  refine ⟨by decide +kernel, before, after, fun same => ?_⟩
  rw [same, before] at after
  cases after

end ArrayBridge
