import ArrayBridge.Proofs.Declaration.Written
import ArrayBridge.Proofs.Registry.Remains

/-!
# What declarations say, and what is registered for them

A declaration of a class is read exactly if it is of the form that `Grammar.Declares` tells, and
then the class has the name and the base that were said last, and exports the fields that have an
`export` attribute, in order (`Grammar.Conventional.declare_eq_ok_iff`). The form is told without
the reading: what the attributes say is a relation (`Grammar.Says`). Nothing is relied on in the
grammar but its conventions.

Nothing in a declaration keeps two exports from having one property name. So the registration of a
class that was declared is accepted exactly if the class is admitted and the property names are
distinct, and then the class has the accessors and the properties of its exports and no other
members (`declared_classes_register_exports`).
-/

namespace ArrayBridge

namespace Grammar

variable {Path Token TypeExpr : Type} (g : Grammar Path Token TypeExpr)
  {field : FieldDecl Path Token TypeExpr}

/-! ## Fields -/

/-- Whether a field has an `export` attribute. -/
def isExported (field : FieldDecl Path Token TypeExpr) : Bool :=
  field.attributes.any fun a => g.isName a.path "export"

/-- A type that is a path which ends in the name. -/
def IsPathTo (name : String) (type : TypeExpr) : Prop :=
  ∃ path, g.typePath? type = some path ∧ (g.names path).getLast? = some name

/-- What is exported for a field: its type is a path to `TypedArray`, and the property has the last
name that its `export` attributes say, or else the name of the field. -/
def ExportedAs (field : FieldDecl Path Token TypeExpr) (e : ExportedField) : Prop :=
  g.IsPathTo "TypedArray" field.type ∧ ∃ said : List (List String),
    List.Forall₂ g.SaysExport (g.named "export" field.attributes) said ∧
    e = ⟨field.name, said.flatten.getLast?.getD field.name⟩

variable {g}

theorem isTypedArray_iff {type : TypeExpr} :
    g.isTypedArray type = true ↔ g.IsPathTo "TypedArray" type := by
  unfold isTypedArray IsPathTo
  cases g.typePath? type <;> simp

theorem isExported_iff : g.isExported field = true ↔ g.named "export" field.attributes ≠ [] := by
  simp [isExported, named]

theorem export?_of_not_exported (h : g.isExported field = false) : g.export? field = .ok none := by
  have bare : g.named "export" field.attributes = [] := by
    simpa [isExported_iff] using Bool.eq_false_iff.mp h
  rw [export?, exportSettings, bare]
  rfl

theorem Conventional.export?_eq_ok_iff (c : g.Conventional) (h : g.isExported field = true)
    {found : Option ExportedField} :
    g.export? field = .ok found ↔ ∃ e, g.ExportedAs field e ∧ found = some e := by
  -- each of the attributes said something, if only that it is there
  have nonempty : ∀ said : List (List String),
      List.Forall₂ g.SaysExport (g.named "export" field.attributes) said → said ≠ [] := by
    rintro _ all rfl
    exact isExported_iff.mp h (List.forall₂_nil_right_iff.mp all)
  rw [export?, bind_eq_ok_iff]
  simp only [c.exportSettings_eq_ok_iff]
  constructor
  · rintro ⟨_, ⟨said, all, rfl⟩, h⟩
    rw [if_neg (by simp [nonempty said all])] at h
    split at h
    · rename_i typed
      cases h
      exact ⟨_, ⟨isTypedArray_iff.mp typed, said, all, rfl⟩, rfl⟩
    · cases h
  · rintro ⟨e, ⟨typed, said, all, rfl⟩, rfl⟩
    refine ⟨_, ⟨said, all, rfl⟩, ?_⟩
    rw [if_neg (by simp [nonempty said all]), if_pos (isTypedArray_iff.mpr typed)]

/-- The exports of fields are those of the fields that are exported, in order. -/
theorem Conventional.exportsOf_eq_ok_iff (c : g.Conventional)
    {fields : List (FieldDecl Path Token TypeExpr)} {exports : List ExportedField} :
    g.exportsOf fields = .ok exports ↔
      List.Forall₂ g.ExportedAs (fields.filter g.isExported) exports := by
  induction fields generalizing exports with
  | nil =>
    constructor
    · intro h
      cases h
      exact .nil
    · intro h
      cases h
      rfl
  | cons field rest ih =>
    rw [exportsOf]
    simp only [bind_eq_ok_iff]
    cases exported : g.isExported field with
    | false =>
      rw [List.filter_cons_of_neg (by simp [exported]), ← ih, export?_of_not_exported exported]
      constructor
      · rintro ⟨_, first, others, read, same⟩
        cases first
        cases same
        exact read
      · exact fun read => ⟨none, rfl, exports, read, rfl⟩
    | true =>
      rw [List.filter_cons_of_pos exported]
      constructor
      · rintro ⟨_, first, others, read, same⟩
        obtain ⟨e, exports, rfl⟩ := (c.export?_eq_ok_iff exported).mp first
        cases same
        exact .cons exports (ih.mp read)
      · intro all
        cases all with
        | cons first others =>
          exact ⟨_, (c.export?_eq_ok_iff exported).mpr ⟨_, first, rfl⟩, _, ih.mpr others, rfl⟩

/-! ## Items -/

/-- An item of named fields, or of none. -/
inductive HasFields : ItemShape Path Token TypeExpr → List (FieldDecl Path Token TypeExpr) → Prop
    where
  | named (fields : List (FieldDecl Path Token TypeExpr)) : HasFields (.named fields) fields
  | unit : HasFields .unit []

/-- **What a declaration says**: an item without generic parameters, of named fields or none, with
`class` attributes that say names and bases. The class has the last name and the last base, or else
the name of the item and the usual base, and the exports of the fields that are exported. -/
structure Declares (g : Grammar Path Token TypeExpr) (item : Item Path Token TypeExpr)
    (d : ClassDeclaration) : Prop where
  plain : item.parameters = []
  attributes : ∃ said : List (List (ClassArgument Path)),
    List.Forall₂ (g.Says (ClassArgument.SaidBy g)) (g.named "class" item.attributes) said ∧
    d.name = (said.flatten.filterMap ClassArgument.name?).getLast?.getD item.name ∧
    d.base = ((said.flatten.filterMap ClassArgument.base?).getLast?.map g.written).getD defaultBase
  fields : ∃ fields, HasFields item.shape fields ∧
    List.Forall₂ g.ExportedAs (fields.filter g.isExported) d.exports

/-- **Which items are read as declarations, and as which.** -/
theorem Conventional.declare_eq_ok_iff (c : g.Conventional) {item : Item Path Token TypeExpr}
    {d : ClassDeclaration} : g.declare item = .ok d ↔ g.Declares item d := by
  rw [declare]
  split
  · rename_i generic
    constructor
    · intro h
      cases h
    · intro declares
      rw [declares.plain] at generic
      cases generic
  · rename_i plain
    have plain : item.parameters = [] := by simpa using plain
    rw [bind_eq_ok_iff]
    simp only [c.classSettings_eq_ok_iff]
    constructor
    · rintro ⟨_, ⟨said, all, rfl⟩, h⟩
      split at h
      · rename_i fields shape
        obtain ⟨_, ⟨⟩, h⟩ := bind_eq_ok_iff.mp h
        obtain ⟨exports, read, ⟨⟩⟩ := bind_eq_ok_iff.mp h
        exact ⟨plain, ⟨said, all, rfl, rfl⟩, fields, shape ▸ .named fields,
          c.exportsOf_eq_ok_iff.mp read⟩
      · rename_i shape
        obtain ⟨_, ⟨⟩, h⟩ := bind_eq_ok_iff.mp h
        obtain ⟨exports, read, ⟨⟩⟩ := bind_eq_ok_iff.mp h
        exact ⟨plain, ⟨said, all, rfl, rfl⟩, [], shape ▸ .unit, c.exportsOf_eq_ok_iff.mp read⟩
      all_goals cases h
    · rintro ⟨_, ⟨said, all, name, base⟩, fields, shape, exports⟩
      refine ⟨_, ⟨said, all, rfl⟩, ?_⟩
      have read := c.exportsOf_eq_ok_iff.mpr exports
      obtain ⟨_, _, _⟩ := d
      subst name base
      generalize item.shape = written at shape ⊢
      cases shape <;> exact bind_eq_ok_iff.mpr ⟨_, rfl, bind_eq_ok_iff.mpr ⟨_, read, rfl⟩⟩

end Grammar

/-! ## Registration -/

namespace ClassDeclaration

variable {d : ClassDeclaration} {bridges : List (String × ElementType)}

/-- Each field that is exported is a bridge of the payload. -/
def CoveredBy (d : ClassDeclaration) (bridges : List (String × ElementType)) : Prop :=
  ∀ e ∈ d.exports, ∃ T, (e.field, T) ∈ bridges

/-- The bridge of a payload that an exported field is. -/
structure IsOver (bridges : List (String × ElementType)) (e : ExportedField) (e' : Export) :
    Prop where
  field : e'.field = e.field
  property : e'.property = e.property
  elem : (e.field, e'.elem) ∈ bridges

/-- Over a payload that has the bridges, the exports are those that were declared. -/
theorem CoveredBy.exportsOver (covered : d.CoveredBy bridges) :
    List.Forall₂ (IsOver bridges) d.exports (d.exportsOver bridges) := by
  unfold ClassDeclaration.exportsOver
  unfold CoveredBy at covered
  generalize d.exports = exports at covered ⊢
  induction exports with
  | nil => exact .nil
  | cons e rest ih =>
    obtain ⟨⟨T, there⟩, later⟩ := List.forall_mem_cons.mp covered
    have some : (bridges.find? fun bridge => bridge.1 == e.field).isSome :=
      List.find?_isSome.mpr ⟨_, there, beq_self_eq_true _⟩
    obtain ⟨bridge, found⟩ := Option.isSome_iff_exists.mp some
    have named : bridge.1 = e.field := by simpa using List.find?_some found
    have mem : (e.field, bridge.2) ∈ bridges := named ▸ List.mem_of_find?_eq_some found
    rw [List.filterMap_cons, found]
    exact .cons ⟨rfl, rfl, mem⟩ (ih later)

theorem CoveredBy.map_property (covered : d.CoveredBy bridges) :
    (d.exportsOver bridges).map Export.property = d.exports.map ExportedField.property := by
  have all := covered.exportsOver
  generalize d.exports = exports, d.exportsOver bridges = exports' at all ⊢
  induction all with
  | nil => rfl
  | cons first _ ih => rw [List.map_cons, List.map_cons, ih, first.property]

end ClassDeclaration

namespace ClassDb

variable {db : ClassDb} {base : ClassInfo} {name : String} {id : ClassId}

/-- What a derived class needs to be accepted. -/
theorem admits_extend_iff : db.Admits (base.extend name id) ↔
    db.entry? id = none ∧ find? db.names name = none ∧ (db.entry? base.id).isSome := by
  constructor
  · exact fun admits => ⟨admits.identity, admits.name, admits.base base rfl⟩
  · rintro ⟨identity, free, there⟩
    refine ⟨identity, free, fun base' isBase => ?_⟩
    cases isBase
    exact there

/-- The own members of a class that has only its exports. -/
structure HasExports (entry : ClassEntry) (cls : ClassInfo) (exports : List Export) : Prop where
  info : entry.info = cls
  /-- No member stands twice. -/
  orderly : entry.Orderly
  methods : ∀ name m, find? entry.methods name = some m ↔ ∃ e ∈ exports,
    (name = getterName e.property ∧ m = e.getter cls) ∨
      (name = setterName e.property ∧ m = e.setter cls)
  properties : ∀ name p, find? entry.properties name = some p ↔ ∃ e ∈ exports,
    name = e.property ∧ p = e.registered
  signals : entry.signals = []

/-- In an orderly entry the members are found that were put there. -/
theorem hasExports_ofExports {cls : ClassInfo} {exports : List Export}
    (orderly : (ClassEntry.ofExports cls exports).Orderly) :
    HasExports (.ofExports cls exports) cls exports where
  info := rfl
  orderly := orderly
  methods name m := by
    rw [find?_eq_some_iff orderly.methods]
    simp only [ClassEntry.ofExports, List.mem_flatMap, Export.accessorRows, List.mem_cons,
      Prod.mk.injEq, List.not_mem_nil, or_false]
  properties name p := by
    rw [find?_eq_some_iff orderly.properties]
    simp only [ClassEntry.ofExports, List.mem_map, Export.row, Prod.mk.injEq, eq_comm]
  signals := rfl

end ClassDb

/-- **Declared classes register exactly their exports.** By any grammar that reads arguments in the
conventional way, an item is read as a declaration exactly if it declares it. And where the payload
has the bridges that are exported, whatever was registered before, the class is registered with its
exports

- exactly if its identity and its name are free, its base is registered, and no two exports have one
  property name;
- and then the database has one class more, of which the own methods are exactly the getter and the
  setter of each export, the own properties exactly those of the exports, and nothing else. -/
theorem declared_classes_register_exports {Path Token TypeExpr : Type}
    {g : Grammar Path Token TypeExpr} (conventional : g.Conventional) :
    (∀ item d, g.declare item = .ok d ↔ g.Declares item d) ∧
    ∀ (d : ClassDeclaration) (bridges : List (String × ElementType)), d.CoveredBy bridges →
      ∀ (base : ClassInfo) (id : ClassId) (attempts : List Registration),
        let db := ClassDb.new.afterAttempts attempts
        let cls := base.extend d.name id
        let exports := d.exportsOver bridges
        let outcome := db.registerAll (exportRegistrations cls exports)
        (outcome.refusal = none ↔
          db.entry? id = none ∧ ClassDb.find? db.names d.name = none ∧
            (db.entry? base.id).isSome ∧ (d.exports.map ExportedField.property).Nodup) ∧
        (outcome.refusal = none →
          List.Forall₂ (ClassDeclaration.IsOver bridges) d.exports exports ∧
          outcome.db.names = db.names ++ [(d.name, id)] ∧
          ∃ entry, outcome.db.classes = db.classes ++ [(id, entry)] ∧
            ClassDb.HasExports entry cls exports) := by
  refine ⟨fun _ _ => conventional.declare_eq_ok_iff, fun d bridges covered base id attempts => ?_⟩
  intro db cls exports outcome
  have c : db.Consistent := ClassDb.consistent_new.afterAttempts attempts
  have course := db.exportsCourse cls exports
  constructor
  · rw [course.refusal_eq_none_iff, ClassDb.admits_extend_iff, covered.map_property]
    simp only [and_assoc]
  · intro all
    have left : outcome.db = db.withExports cls exports := course.left_of_accepted all
    obtain ⟨admits, _⟩ := course.refusal_eq_none_iff.mp all
    have consistent : outcome.db.Consistent := c.ends ⟨rfl, rfl⟩
    have there : outcome.db.entry? id = some (.ofExports cls exports) :=
      left ▸ ClassDb.entry?_withExports admits.identity
    exact ⟨covered.exportsOver, congrArg ClassDb.names left, _, congrArg ClassDb.classes left,
      ClassDb.hasExports_ofExports (consistent.members id _ there)⟩

/-- A chest with two exports, of which one has a name of its own, and a field that is none. The
class has two names. -/
def chestItem : Written.Item where
  name := "Chest"
  generics := ""
  attributes := [⟨"class", .list [⟨"name", .text "Box"⟩, ⟨"base", .written "crate::Inventory"⟩]⟩,
    ⟨"derive", .list [⟨"Default", .bare⟩]⟩, ⟨"class", .list [⟨"name", .text "Locker"⟩]⟩]
  shape := .named
    [ ⟨"pub keys", .path "TypedArray" [.path "bool" []], [⟨"export", .bare⟩]⟩,
      ⟨"count", .path "u8" [], []⟩,
      ⟨"names", .path "varbridge::TypedArray" [.path "String" []],
        [⟨"export", .list [⟨"name", .text "labels"⟩]⟩]⟩ ]

/-- The last name counts, and the members are those of `keys` and `labels`. -/
theorem declared_classes_register_exports_chest :
    let d : ClassDeclaration :=
      ⟨"Locker", "crate::Inventory", [⟨"keys", "keys"⟩, ⟨"names", "labels"⟩]⟩
    let bridges := [("keys", ElementType.bool), ("names", ElementType.string)]
    let outcome := ClassDb.new.registerAll
      (exportRegistrations (ClassInfo.refCounted.extend d.name ⟨2⟩) (d.exportsOver bridges))
    Written.grammar.Declares chestItem.parsed d ∧ d.CoveredBy bridges ∧ outcome.refusal = none ∧
      ∃ entry, outcome.db.classes = ClassDb.new.classes ++ [(⟨2⟩, entry)] := by
  intro d bridges outcome
  obtain ⟨declares, registers⟩ := declared_classes_register_exports Written.grammar_conventional
  have read : chestItem.declare = .ok d := by decide +kernel
  have covered : d.CoveredBy bridges := by
    rintro e mem
    rcases List.mem_pair.mp mem with rfl | rfl
    · exact ⟨.bool, List.mem_cons_self⟩
    · exact ⟨.string, List.mem_cons_of_mem _ List.mem_cons_self⟩
  obtain ⟨iff, members⟩ := registers d bridges covered .refCounted ⟨2⟩ []
  have all : outcome.refusal = none :=
    iff.mpr ⟨by decide +kernel, by decide +kernel, by decide +kernel, by decide +kernel⟩
  obtain ⟨_, _, entry, classes, _⟩ := members all
  exact ⟨(declares chestItem.parsed d).mp read, covered, all, entry, classes⟩

end ArrayBridge
