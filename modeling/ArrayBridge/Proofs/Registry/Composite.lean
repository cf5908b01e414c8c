import ArrayBridge.Proofs.Registry.Nearest

/-!
# Composite registrations

An array property is registered as a getter, a setter and the property itself, and a class with its
exports as the class and then one array property after the other. Part after part is tried up to
the first refusal, and nothing that was accepted is taken back.

**How far they come** is told by what the database holds before (`ClassDb.PropertyCourse`,
`ClassDb.ExportsCourse`): each case names what is in the way, the database that is left, and the
reason that is given. For a new class nothing is in the way of an export but an earlier export of
the same property name, since accessor names of different properties differ.

**What is left of a refused one stays in its own way.** Members and classes are never removed, so
where a part was accepted before the refusal, no later attempt at the same succeeds.
-/

namespace ArrayBridge

/-! ## Accessor names -/

theorem getterName_inj {p q : String} : getterName p = getterName q ↔ p = q :=
  ⟨fun h => by simpa [getterName, ← String.toList_inj] using h, congrArg getterName⟩

theorem setterName_inj {p q : String} : setterName p = setterName q ↔ p = q :=
  ⟨fun h => by simpa [setterName, ← String.toList_inj] using h, congrArg setterName⟩

theorem getterName_ne_setterName (p q : String) : getterName p ≠ setterName q := by
  simp [getterName, setterName, ← String.toList_inj]

/-! ## What an export adds -/

namespace Export

variable (e : Export) (cls : ClassInfo)

/-- The description that the engine is given of the property. -/
def info : PropertyInfo := .ofArray e.elem e.property

def getter : RegisteredMethod :=
  ⟨.plain (getterName e.property) (some e.info) [], arrayGetter cls e.field⟩

def setter : RegisteredMethod :=
  ⟨.plain (setterName e.property) none [e.info], arraySetter cls e.field⟩

def registered : RegisteredProperty := ⟨e.info, getterName e.property, setterName e.property⟩

/-- Both accessors as rows of the table of methods. -/
def accessorRows : List (String × RegisteredMethod) :=
  [(getterName e.property, e.getter cls), (setterName e.property, e.setter cls)]

/-- The property as a row of the table of properties. -/
def row : String × RegisteredProperty := (e.property, e.registered)

/-- The parts in which the export is registered. -/
def registrations : List Registration :=
  arrayPropertyRegistrations cls e.elem e.field e.property

end Export

namespace ClassEntry

/-- The entry with more members at the end of its tables. -/
def extended (entry : ClassEntry) (methods : List (String × RegisteredMethod))
    (properties : List (String × RegisteredProperty)) : ClassEntry :=
  { entry with
    methods := entry.methods ++ methods
    properties := entry.properties ++ properties }

/-- The entry of a class that has its exports and nothing else. -/
def ofExports (cls : ClassInfo) (exports : List Export) : ClassEntry :=
  ⟨cls, exports.flatMap fun e => e.accessorRows cls, exports.map Export.row, []⟩

end ClassEntry

namespace ClassDb

open ClassEntry (ownMethod ownProperty)

variable {db : ClassDb} {cls : ClassInfo} {e : Export} {exports : List Export}

/-- The database with more members of one class. -/
def extend (db : ClassDb) (id : ClassId) (methods : List (String × RegisteredMethod))
    (properties : List (String × RegisteredProperty)) : ClassDb :=
  db.changeEntry id fun entry => entry.extended methods properties

/-- The database with a new class and its exports. -/
def withExports (db : ClassDb) (cls : ClassInfo) (exports : List Export) : ClassDb :=
  ⟨db.classes ++ [(cls.id, .ofExports cls exports)], db.names ++ [(cls.name, cls.id)]⟩

/-- What a class needs to be accepted: its identity and its name are free, and its base is there. -/
structure Admits (db : ClassDb) (cls : ClassInfo) : Prop where
  identity : db.entry? cls.id = none
  name : find? db.names cls.name = none
  base : ∀ base, cls.base? = some base → (db.entry? base.id).isSome

/-! ## Extended entries -/

section Extended

variable {id : ClassId} {entry : ClassEntry} {methods methods' : List (String × RegisteredMethod)}
  {properties properties' : List (String × RegisteredProperty)}

theorem entry?_extend_of_some (there : db.entry? id = some entry)
    (methods : List (String × RegisteredMethod))
    (properties : List (String × RegisteredProperty)) :
    ClassDb.entry? (db.extend id methods properties) id =
      some (entry.extended methods properties) := by
  have found := find?_change db.classes id (fun entry => entry.extended methods properties) id
  rw [if_pos rfl] at found
  exact found.trans (congrArg (Option.map _) there)

/-- A class with more methods at the end has its old ones, and then the new ones. -/
theorem ownMethod_extend (registered : (db.entry? cls.id).isSome)
    (methods : List (String × RegisteredMethod)) (properties : List (String × RegisteredProperty))
    (name : String) :
    ClassDb.ownOf (db.extend cls.id methods properties) (ownMethod name) cls =
      (db.ownOf (ownMethod name) cls).or (find? methods name) := by
  obtain ⟨entry, there⟩ := Option.isSome_iff_exists.mp registered
  rw [ownOf, ownOf, entry?_extend_of_some there, there]
  exact find?_append entry.methods methods name

theorem ownProperty_extend (registered : (db.entry? cls.id).isSome)
    (methods : List (String × RegisteredMethod)) (properties : List (String × RegisteredProperty))
    (name : String) :
    ClassDb.ownOf (db.extend cls.id methods properties) (ownProperty name) cls =
      (db.ownOf (ownProperty name) cls).or (find? properties name) := by
  obtain ⟨entry, there⟩ := Option.isSome_iff_exists.mp registered
  rw [ownOf, ownOf, entry?_extend_of_some there, there]
  exact find?_append entry.properties properties name

theorem change_change {κ α : Type} [DecidableEq κ] (table : List (κ × α)) (key : κ) (f g : α → α) :
    change (change table key f) key g = change table key (g ∘ f) := by
  simp only [change, List.map_map]
  refine List.map_congr_left fun row _ => ?_
  simp only [Function.comp_apply]
  split <;> rfl

theorem extend_extend : (db.extend id methods properties).extend id methods' properties' =
    db.extend id (methods ++ methods') (properties ++ properties') := by
  simp only [extend, changeEntry, change_change]
  congr 2
  funext entry
  simp [ClassEntry.extended]

/-- A change to the entry under a new key at the end. -/
theorem change_concat_self {κ α : Type} [DecidableEq κ] {table : List (κ × α)} {key : κ}
    (free : find? table key = none) (x : α) (f : α → α) :
    change (table ++ [(key, x)]) key f = table ++ [(key, f x)] := by
  have others : ∀ row ∈ table, (if row.1 = key then (row.1, f row.2) else row) = row :=
    fun row mem => if_neg fun same => find?_eq_none_iff.mp free (List.mem_map.mpr ⟨row, mem, same⟩)
  simp only [change, List.map_append, List.map_cons, List.map_nil, if_pos]
  rw [List.map_congr_left others, List.map_id']

theorem extend_withExports (free : db.entry? cls.id = none) :
    (db.withExports cls exports).extend cls.id (e.accessorRows cls) [e.row] =
      db.withExports cls (exports ++ [e]) := by
  unfold extend changeEntry withExports
  rw [change_concat_self free]
  simp [ClassEntry.extended, ClassEntry.ofExports]

theorem entry?_withExports (free : db.entry? cls.id = none) :
    ClassDb.entry? (db.withExports cls exports) cls.id = some (.ofExports cls exports) :=
  find?_concat_self free _

end Extended

/-! ## One part -/

section Part

variable {entry : ClassEntry}

theorem bind_entryFor (there : db.entry? cls.id = some entry)
    (next : ClassEntry → Except RegistrationError ClassDb) :
    (db.entryFor cls >>= next) = next entry := by
  rw [entryFor, there]
  rfl

theorem addMethod_of_unknown (none : db.entry? cls.id = none) (info : MethodInfo)
    (body : MethodBody) : db.addMethod cls info body = .error (.unknownClass cls.name) := by
  rw [addMethod, entryFor, none]
  rfl

theorem addMethod_of_taken (there : db.entry? cls.id = some entry) (info : MethodInfo)
    (body : MethodBody) (taken : (find? entry.methods info.name).isSome) :
    db.addMethod cls info body = .error (.duplicateRegistration cls.name info.name .method) := by
  rw [addMethod, bind_entryFor there, if_pos taken]

theorem addMethod_of_free (there : db.entry? cls.id = some entry) (info : MethodInfo)
    (body : MethodBody) (free : find? entry.methods info.name = none) :
    db.addMethod cls info body = .ok (db.extend cls.id [(info.name, ⟨info, body⟩)] []) := by
  rw [addMethod, bind_entryFor there, if_neg (by simp [free])]
  simp only [extend, ClassEntry.extended, List.append_nil]

theorem addProperty_of_taken (there : db.entry? cls.id = some entry) (info : PropertyInfo)
    (getter setter : String) (taken : (find? entry.properties info.name).isSome) :
    db.addProperty cls info getter setter =
      .error (.duplicateRegistration cls.name info.name .property) := by
  rw [addProperty, bind_entryFor there, if_pos taken]

theorem addProperty_of_free (there : db.entry? cls.id = some entry) (info : PropertyInfo)
    {getter setter : String} (free : find? entry.properties info.name = none)
    (hasGetter : (find? entry.methods getter).isSome)
    (hasSetter : (find? entry.methods setter).isSome) :
    db.addProperty cls info getter setter =
      .ok (db.extend cls.id [] [(info.name, ⟨info, getter, setter⟩)]) := by
  have complete : missingAccessor? entry [getter, setter] = none := by
    simp only [missingAccessor?, List.find?_eq_none, List.forall_mem_cons,
      Option.isNone_iff_eq_none, ← ne_eq, Option.ne_none_iff_isSome]
    exact ⟨hasGetter, hasSetter, fun _ h => absurd h List.not_mem_nil⟩
  rw [addProperty, bind_entryFor there, if_neg (by simp [free]), complete]
  simp only [extend, ClassEntry.extended, List.append_nil]

theorem addClass_of_taken
    (taken : (db.entry? cls.id).isSome ∨ (find? db.names cls.name).isSome) :
    db.addClass cls = .error (.duplicateClass cls.name) := by
  rw [addClass, if_pos (by simpa using taken)]

theorem addClass_of_baseless (identity : db.entry? cls.id = none)
    (name : find? db.names cls.name = none) {base : ClassInfo} (isBase : cls.base? = some base)
    (missing : db.entry? base.id = none) :
    db.addClass cls = .error (.unregisteredBase cls.name base.name) := by
  rw [addClass, if_neg (by simp [identity, name]), isBase]
  simp [missing]

theorem Admits.addClass (admits : db.Admits cls) : db.addClass cls = .ok (db.insertClass cls) := by
  rw [ClassDb.addClass, if_neg (by simp [admits.identity, admits.name])]
  split
  · rename_i base isBase
    exact if_pos (admits.base base isBase)
  · rfl

end Part

/-! ## Part after part -/

/-- The parts are tried up to the first refusal, if there is one, and leave the database `left`. -/
structure Ends (db : ClassDb) (parts : List Registration) (left : ClassDb)
    (refusal : Option RegistrationError) : Prop where
  leaves : (db.registerAll parts).db = left
  answers : (db.registerAll parts).refusal = refusal

namespace Ends

variable {part : Registration} {parts rest : List Registration} {left next : ClassDb}
  {refusal : Option RegistrationError} {reason : RegistrationError}

theorem nil : db.Ends [] db none := ⟨rfl, rfl⟩

theorem refused (h : db.register part = .error reason) :
    db.Ends (part :: rest) db (some reason) := by
  constructor <;> rw [registerAll, h]

theorem accepted (h : db.register part = .ok next) (more : next.Ends rest left refusal) :
    db.Ends (part :: rest) left refusal := by
  constructor
  · rw [registerAll, h, ← more.leaves]
  · rw [registerAll, h, ← more.answers]

/-- The first part is accepted, and the others go on from there, or it is refused. -/
theorem of_cons (h : db.Ends (part :: rest) left refusal) :
    (∃ next, db.register part = .ok next ∧ next.Ends rest left refusal) ∨
      ∃ reason, db.register part = .error reason ∧ left = db ∧ refusal = some reason := by
  obtain ⟨leaves, answers⟩ := h
  cases first : db.register part with
  | ok next =>
    rw [registerAll, first] at leaves answers
    exact .inl ⟨next, rfl, leaves, answers⟩
  | error reason =>
    rw [registerAll, first] at leaves answers
    exact .inr ⟨reason, rfl, leaves.symm, answers.symm⟩

/-- Where all parts of one list are accepted, those of another go on from there. -/
theorem append (all : db.Ends parts next none) (more : next.Ends rest left refusal) :
    db.Ends (parts ++ rest) left refusal := by
  induction parts generalizing db with
  | nil =>
    obtain rfl : db = next := all.leaves
    exact more
  | cons part parts ih =>
    rcases all.of_cons with ⟨db', first, all⟩ | ⟨_, _, _, some⟩
    · exact accepted first (ih all)
    · cases some

/-- Where a part of one list is refused, another list is not come to. -/
theorem append_of_refused (stops : db.Ends parts left (some reason)) (rest : List Registration) :
    db.Ends (parts ++ rest) left (some reason) := by
  induction parts generalizing db with
  | nil => cases stops.answers
  | cons part parts ih =>
    rcases stops.of_cons with ⟨db', first, stops⟩ | ⟨_, first, rfl, same⟩
    · exact accepted first (ih stops)
    · exact same ▸ refused first

end Ends

/-! ## An array property -/

/-- **How far the registration of an array property comes**: the database that it leaves and the
reason why it is refused, if it is. -/
inductive PropertyCourse (db : ClassDb) (cls : ClassInfo) (e : Export) :
    ClassDb → Option RegistrationError → Prop where
  /-- The class is not registered. -/
  | unknown (none : db.entry? cls.id = none) :
    PropertyCourse db cls e db (some (.unknownClass cls.name))
  /-- The class has a method with the name of the getter. -/
  | getterTaken (registered : (db.entry? cls.id).isSome)
    (taken : (db.ownOf (ownMethod (getterName e.property)) cls).isSome) :
    PropertyCourse db cls e db
      (some (.duplicateRegistration cls.name (getterName e.property) .method))
  /-- The class has a method with the name of the setter. The getter stays. -/
  | setterTaken (registered : (db.entry? cls.id).isSome)
    (free : db.ownOf (ownMethod (getterName e.property)) cls = none)
    (taken : (db.ownOf (ownMethod (setterName e.property)) cls).isSome) :
    PropertyCourse db cls e (db.extend cls.id [(getterName e.property, e.getter cls)] [])
      (some (.duplicateRegistration cls.name (setterName e.property) .method))
  /-- The class has a property of that name. Both accessors stay. -/
  | propertyTaken (registered : (db.entry? cls.id).isSome)
    (getter : db.ownOf (ownMethod (getterName e.property)) cls = none)
    (setter : db.ownOf (ownMethod (setterName e.property)) cls = none)
    (taken : (db.ownOf (ownProperty e.property) cls).isSome) :
    PropertyCourse db cls e (db.extend cls.id (e.accessorRows cls) [])
      (some (.duplicateRegistration cls.name e.property .property))
  /-- Nothing is in the way. -/
  | complete (registered : (db.entry? cls.id).isSome)
    (getter : db.ownOf (ownMethod (getterName e.property)) cls = none)
    (setter : db.ownOf (ownMethod (setterName e.property)) cls = none)
    (property : db.ownOf (ownProperty e.property) cls = none) :
    PropertyCourse db cls e (db.extend cls.id (e.accessorRows cls) [e.row]) none

theorem exists_propertyCourse (db : ClassDb) (cls : ClassInfo) (e : Export) :
    ∃ left refusal, db.Ends (e.registrations cls) left refusal ∧
      db.PropertyCourse cls e left refusal := by
  cases there : db.entry? cls.id with
  | none => exact ⟨_, _, .refused (addMethod_of_unknown there _ _), .unknown there⟩
  | some entry =>
    have known : (db.entry? cls.id).isSome := by rw [there]; rfl
    have own {α : Type} (has : ClassEntry → Option α) : db.ownOf has cls = has entry := by
      rw [ownOf, there]; rfl
    by_cases getter : (find? entry.methods (getterName e.property)).isSome
    · exact ⟨_, _, .refused (addMethod_of_taken there _ _ getter),
        .getterTaken known ((own _).symm ▸ getter)⟩
    rw [Option.not_isSome_iff_eq_none] at getter
    have first := addMethod_of_free there (.plain (getterName e.property) (some e.info) [])
      (arrayGetter cls e.field) getter
    have there₁ := entry?_extend_of_some there [(getterName e.property, e.getter cls)] []
    have others : find? (entry.methods ++ [(getterName e.property, e.getter cls)])
        (setterName e.property) = find? entry.methods (setterName e.property) :=
      find?_concat_of_ne (getterName_ne_setterName _ _) _
    by_cases setter : (find? entry.methods (setterName e.property)).isSome
    · have second := addMethod_of_taken there₁ (.plain (setterName e.property) none [e.info])
        (arraySetter cls e.field) (others.symm ▸ setter)
      exact ⟨_, _, .accepted first (.refused second),
        .setterTaken known ((own _).trans getter) ((own _).symm ▸ setter)⟩
    rw [Option.not_isSome_iff_eq_none] at setter
    have second := addMethod_of_free there₁ (.plain (setterName e.property) none [e.info])
      (arraySetter cls e.field) (others.trans setter)
    rw [extend_extend] at second
    have there₂ := entry?_extend_of_some there (e.accessorRows cls) []
    have same : (entry.extended (e.accessorRows cls) []).properties = entry.properties :=
      List.append_nil _
    by_cases property : (find? entry.properties e.property).isSome
    · have third := addProperty_of_taken there₂ e.info (getterName e.property)
        (setterName e.property) (same.symm ▸ property)
      exact ⟨_, _, .accepted first (.accepted second (.refused third)),
        .propertyTaken known ((own _).trans getter) ((own _).trans setter)
          ((own _).symm ▸ property)⟩
    rw [Option.not_isSome_iff_eq_none] at property
    have accessors : ∀ name ∈ [getterName e.property, setterName e.property],
        (find? (entry.extended (e.accessorRows cls) []).methods name).isSome := fun name mem =>
      isSome_find?_iff.mpr (keys_append _ _ ▸ List.mem_append_right _ mem)
    have third := addProperty_of_free there₂ e.info (same.symm ▸ property)
      (accessors _ List.mem_cons_self) (accessors _ (List.mem_cons_of_mem _ List.mem_cons_self))
    rw [extend_extend] at third
    exact ⟨_, _, .accepted first (.accepted second (.accepted third .nil)),
      .complete known ((own _).trans getter) ((own _).trans setter) ((own _).trans property)⟩

/-! ## A class with its exports -/

/-- **How far the registration of a class with its exports comes**: the database that it leaves and
the reason why it is refused, if it is. -/
inductive ExportsCourse (db : ClassDb) (cls : ClassInfo) (exports : List Export) :
    ClassDb → Option RegistrationError → Prop where
  /-- The identity or the name of the class is taken. -/
  | taken (taken : (db.entry? cls.id).isSome ∨ (find? db.names cls.name).isSome) :
    ExportsCourse db cls exports db (some (.duplicateClass cls.name))
  /-- The base of the class is not registered. -/
  | baseless (identity : db.entry? cls.id = none) (name : find? db.names cls.name = none)
    {base : ClassInfo} (isBase : cls.base? = some base) (missing : db.entry? base.id = none) :
    ExportsCourse db cls exports db (some (.unregisteredBase cls.name base.name))
  /-- An export repeats a property name. The class stays, with the exports before that one. -/
  | repeated (admits : db.Admits cls) (before : List Export) (e : Export) (after : List Export)
    (split : exports = before ++ e :: after) (distinct : (before.map Export.property).Nodup)
    (again : e.property ∈ before.map Export.property) :
    ExportsCourse db cls exports (db.withExports cls before)
      (some (.duplicateRegistration cls.name (getterName e.property) .method))
  /-- Nothing is in the way. -/
  | complete (admits : db.Admits cls) (distinct : (exports.map Export.property).Nodup) :
    ExportsCourse db cls exports (db.withExports cls exports) none

/-- The methods of a class that has only its exports are their accessors. -/
theorem mem_keys_accessorRows {name : String} :
    name ∈ keys (exports.flatMap fun e => e.accessorRows cls) ↔
      ∃ e ∈ exports, name = getterName e.property ∨ name = setterName e.property := by
  simp only [keys, List.map_flatMap, List.mem_flatMap, Export.accessorRows, List.map_cons,
    List.map_nil, List.mem_cons, List.not_mem_nil, or_false]

section Fresh

variable (free : db.entry? cls.id = none)

include free

theorem ownOf_withExports {α : Type} (has : ClassEntry → Option α) :
    ClassDb.ownOf (db.withExports cls exports) has cls = has (.ofExports cls exports) := by
  rw [ownOf, entry?_withExports free]
  rfl

theorem isSome_getter_withExports (exports : List Export) (p : String) :
    (ClassDb.ownOf (db.withExports cls exports) (ownMethod (getterName p)) cls).isSome ↔
      p ∈ exports.map Export.property := by
  rw [ownOf_withExports free, ownMethod, isSome_find?_iff, ClassEntry.ofExports,
    mem_keys_accessorRows, List.mem_map]
  simp only [getterName_inj, getterName_ne_setterName, or_false, eq_comm (a := p)]

theorem isSome_setter_withExports (exports : List Export) (p : String) :
    (ClassDb.ownOf (db.withExports cls exports) (ownMethod (setterName p)) cls).isSome ↔
      p ∈ exports.map Export.property := by
  rw [ownOf_withExports free, ownMethod, isSome_find?_iff, ClassEntry.ofExports,
    mem_keys_accessorRows, List.mem_map]
  simp only [setterName_inj, (getterName_ne_setterName _ _).symm, false_or, eq_comm (a := p)]

theorem isSome_property_withExports (exports : List Export) (p : String) :
    (ClassDb.ownOf (db.withExports cls exports) (ownProperty p) cls).isSome ↔
      p ∈ exports.map Export.property := by
  rw [ownOf_withExports free, ownProperty, isSome_find?_iff, ClassEntry.ofExports, keys,
    List.map_map]
  rfl

/-- One export more of a new class: it is added, unless one before it has its property name. -/
theorem ends_export (exports : List Export) (e : Export) :
    (e.property ∈ exports.map Export.property ∧
      (db.withExports cls exports).Ends (e.registrations cls) (db.withExports cls exports)
        (some (.duplicateRegistration cls.name (getterName e.property) .method))) ∨
    (e.property ∉ exports.map Export.property ∧
      (db.withExports cls exports).Ends (e.registrations cls) (db.withExports cls (exports ++ [e]))
        none) := by
  obtain ⟨left, refusal, ends, course⟩ := exists_propertyCourse (db.withExports cls exports) cls e
  have getter := isSome_getter_withExports free exports e.property
  have setter := isSome_setter_withExports free exports e.property
  have property := isSome_property_withExports free exports e.property
  cases course with
  | unknown none => cases none.symm.trans (entry?_withExports free)
  | getterTaken _ taken => exact .inl ⟨getter.mp taken, ends⟩
  | setterTaken _ free taken => exact absurd (getter.mpr (setter.mp taken)) (by simp [free])
  | propertyTaken _ free _ taken =>
    exact absurd (getter.mpr (property.mp taken)) (by simp [free])
  | complete _ none =>
    rw [extend_withExports free] at ends
    exact .inr ⟨fun mem => absurd (getter.mpr mem) (by simp [none]), ends⟩

end Fresh

/-- The exports that are still to come, with some of them registered. -/
theorem Admits.exists_exportsCourse_rest (admits : db.Admits cls) (before rest : List Export)
    (split : exports = before ++ rest) (distinct : (before.map Export.property).Nodup) :
    ∃ left refusal,
      (db.withExports cls before).Ends (rest.flatMap fun e => e.registrations cls) left refusal ∧
        db.ExportsCourse cls exports left refusal := by
  induction rest generalizing before with
  | nil =>
    rw [List.append_nil] at split
    subst split
    exact ⟨_, _, .nil, .complete admits distinct⟩
  | cons e rest ih =>
    rcases ends_export admits.identity before e with ⟨again, ends⟩ | ⟨new, ends⟩
    · exact ⟨_, _, ends.append_of_refused _, .repeated admits before e rest split distinct again⟩
    · have distinct' : ((before ++ [e]).map Export.property).Nodup := by
        rw [List.map_append, List.nodup_append]
        refine ⟨distinct, List.pairwise_singleton _ _, ?_⟩
        rintro p mem q mem' rfl
        exact new (List.mem_singleton.mp mem' ▸ mem)
      obtain ⟨left, refusal, more, course⟩ := ih (before ++ [e]) (by simp [split]) distinct'
      exact ⟨left, refusal, ends.append more, course⟩

theorem exists_exportsCourse (db : ClassDb) (cls : ClassInfo) (exports : List Export) :
    ∃ left refusal, db.Ends (exportRegistrations cls exports) left refusal ∧
      db.ExportsCourse cls exports left refusal := by
  by_cases taken : (db.entry? cls.id).isSome ∨ (find? db.names cls.name).isSome
  · exact ⟨_, _, .refused (addClass_of_taken taken), .taken taken⟩
  obtain ⟨identity, name⟩ := not_or.mp taken
  rw [Option.not_isSome_iff_eq_none] at identity name
  by_cases base : ∀ base, cls.base? = some base → (db.entry? base.id).isSome
  · have admits : db.Admits cls := ⟨identity, name, base⟩
    obtain ⟨left, refusal, more, course⟩ :=
      admits.exists_exportsCourse_rest [] exports rfl .nil
    exact ⟨left, refusal, .accepted admits.addClass more, course⟩
  · simp only [not_forall, Option.not_isSome_iff_eq_none] at base
    obtain ⟨base, isBase, missing⟩ := base
    exact ⟨_, _, .refused (addClass_of_baseless identity name isBase missing),
      .baseless identity name isBase missing⟩

end ClassDb

end ArrayBridge
