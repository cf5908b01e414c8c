import ArrayBridge.Registry.Error
import ArrayBridge.Registry.Member
import ArrayBridge.World.Basic

/-!
# The class database

What the engine knows of the classes and their members. Classes are kept under their identity, and a
second table leads from names to identities; members are kept under their names, class by class.

**A registration is a value**, so a run is a list of them. It is accepted or refused as a whole, and
one that is refused leaves the database as it was. A composite registration is a list applied one by
one up to the first refusal: what was accepted before it stays.

**Looking up a member** goes up the bases of a class and takes the first that is registered and has
it; a base that is not registered is passed over.
-/

namespace ArrayBridge

/-- The native body of a method. It is run on the object while the object's payload is lent out
to it, with the arguments of the call, and may return a value. `keeps` lists the handles that it
keeps for itself. -/
structure MethodBody where
  run : World → ObjectId → List Variant → World × Except CallError (Option Variant)
  keeps : List Variant

structure RegisteredMethod where
  info : MethodInfo
  body : MethodBody

structure RegisteredProperty where
  info : PropertyInfo
  getter : String
  setter : String

/-- A registered class and its own members. Signals stand in the order of registration. -/
structure ClassEntry where
  info : ClassInfo
  methods : List (String × RegisteredMethod)
  properties : List (String × RegisteredProperty)
  signals : List SignalInfo

/-- A class without members. -/
def ClassEntry.bare (info : ClassInfo) : ClassEntry := ⟨info, [], [], []⟩

/-- The database. -/
structure ClassDb where
  classes : List (ClassId × ClassEntry)
  names : List (String × ClassId)

/-- What can be registered. -/
inductive Registration where
  | newClass (info : ClassInfo)
  | newMethod (cls : ClassInfo) (info : MethodInfo) (body : MethodBody)
  | newProperty (cls : ClassInfo) (info : PropertyInfo) (getter setter : String)
  | newSignal (cls : ClassInfo) (info : SignalInfo)

namespace ClassDb

/-! ## Tables -/

/-- The entry under a key. -/
def find? {κ α : Type} [DecidableEq κ] (table : List (κ × α)) (key : κ) : Option α :=
  (table.find? fun row => row.1 = key).map Prod.snd

/-- The table with the entry under a key changed. -/
def change {κ α : Type} [DecidableEq κ] (table : List (κ × α)) (key : κ) (f : α → α) :
    List (κ × α) :=
  table.map fun row => if row.1 = key then (row.1, f row.2) else row

/-! ## Registration -/

def insertClass (db : ClassDb) (info : ClassInfo) : ClassDb :=
  ⟨db.classes ++ [(info.id, .bare info)], db.names ++ [(info.name, info.id)]⟩

/-- A new database, in which the two built-in classes are registered. -/
def new : ClassDb := (ClassDb.insertClass ⟨[], []⟩ .object).insertClass .refCounted

instance : Inhabited ClassDb := ⟨new⟩

def entry? (db : ClassDb) (id : ClassId) : Option ClassEntry := find? db.classes id

def entryNamed? (db : ClassDb) (name : String) : Option ClassEntry :=
  (find? db.names name).bind db.entry?

/-- The entry that a member is to be added to. -/
def entryFor (db : ClassDb) (cls : ClassInfo) : Except RegistrationError ClassEntry :=
  match db.entry? cls.id with
  | some entry => .ok entry
  | none => .error (.unknownClass cls.name)

def changeEntry (db : ClassDb) (id : ClassId) (f : ClassEntry → ClassEntry) : ClassDb :=
  { db with classes := change db.classes id f }

/-- A class is added if its identity and its name are free and its base is there. -/
def addClass (db : ClassDb) (info : ClassInfo) : Except RegistrationError ClassDb :=
  if (db.entry? info.id).isSome || (find? db.names info.name).isSome then
    .error (.duplicateClass info.name)
  else
    match info.base? with
    | some base =>
      if (db.entry? base.id).isSome then .ok (db.insertClass info)
      else .error (.unregisteredBase info.name base.name)
    | none => .ok (db.insertClass info)

def addMethod (db : ClassDb) (cls : ClassInfo) (info : MethodInfo) (body : MethodBody) :
    Except RegistrationError ClassDb := do
  let entry ← db.entryFor cls
  if (find? entry.methods info.name).isSome then
    .error (.duplicateRegistration cls.name info.name .method)
  else
    .ok (db.changeEntry cls.id fun entry =>
      { entry with methods := entry.methods ++ [(info.name, ⟨info, body⟩)] })

/-- The first of the accessors that is no method of the class. -/
def missingAccessor? (entry : ClassEntry) (accessors : List String) : Option String :=
  accessors.find? fun accessor => (find? entry.methods accessor).isNone

/-- A property is added if both its accessors are methods of the same class. -/
def addProperty (db : ClassDb) (cls : ClassInfo) (info : PropertyInfo) (getter setter : String) :
    Except RegistrationError ClassDb := do
  let entry ← db.entryFor cls
  if (find? entry.properties info.name).isSome then
    .error (.duplicateRegistration cls.name info.name .property)
  else
    match missingAccessor? entry [getter, setter] with
    | some accessor => .error (.unknownAccessor cls.name info.name accessor)
    | none =>
      .ok (db.changeEntry cls.id fun entry =>
        { entry with properties := entry.properties ++ [(info.name, ⟨info, getter, setter⟩)] })

def addSignal (db : ClassDb) (cls : ClassInfo) (info : SignalInfo) :
    Except RegistrationError ClassDb := do
  let entry ← db.entryFor cls
  if entry.signals.any fun signal => signal.name == info.name then
    .error (.duplicateRegistration cls.name info.name .signal)
  else
    .ok (db.changeEntry cls.id fun entry => { entry with signals := entry.signals ++ [info] })

/-- One registration: the database with it, or the reason why not. -/
def register (db : ClassDb) : Registration → Except RegistrationError ClassDb
  | .newClass info => db.addClass info
  | .newMethod cls info body => db.addMethod cls info body
  | .newProperty cls info getter setter => db.addProperty cls info getter setter
  | .newSignal cls info => db.addSignal cls info

/-- The outcome of a composite registration: the database it leaves, the parts that were
accepted, and the reason why the next one was not. -/
structure Outcome where
  db : ClassDb
  accepted : List Registration
  refusal : Option RegistrationError

/-- A composite registration, part by part up to the first refusal. -/
def registerAll (db : ClassDb) : List Registration → Outcome
  | [] => ⟨db, [], none⟩
  | part :: rest =>
    match db.register part with
    | .ok db =>
      let outcome := db.registerAll rest
      { outcome with accepted := part :: outcome.accepted }
    | .error reason => ⟨db, [], some reason⟩

/-- The handles that the bodies of registered methods keep. -/
def keeps (db : ClassDb) : List Variant :=
  db.classes.flatMap fun row => row.2.methods.flatMap fun method => method.2.body.keeps

/-! ## Queries -/

/-- The registered entries of a class and its bases, the nearest first. -/
def lineage (db : ClassDb) (cls : ClassInfo) : List ClassEntry :=
  cls.ancestors.filterMap fun ancestor => db.entry? ancestor.id

/-- The method that the class answers to. -/
def methodOf? (db : ClassDb) (cls : ClassInfo) (name : String) : Option RegisteredMethod :=
  (db.lineage cls).findSome? fun entry => find? entry.methods name

/-- The property that the class answers to. -/
def propertyOf? (db : ClassDb) (cls : ClassInfo) (name : String) : Option RegisteredProperty :=
  (db.lineage cls).findSome? fun entry => find? entry.properties name

/-- The class of that name. -/
def class? (db : ClassDb) (name : String) : Option ClassInfo :=
  (db.entryNamed? name).map ClassEntry.info

def containsClass (db : ClassDb) (name : String) : Bool := (find? db.names name).isSome

def classCount (db : ClassDb) : Nat := db.classes.length

/-- The description of a method of the class of that name, or of a base of it. -/
def method? (db : ClassDb) (cls name : String) : Option MethodInfo := do
  let entry ← db.entryNamed? cls
  (db.methodOf? entry.info name).map RegisteredMethod.info

/-- The description of a property of the class of that name, or of a base of it. -/
def property? (db : ClassDb) (cls name : String) : Option PropertyInfo := do
  let entry ← db.entryNamed? cls
  (db.propertyOf? entry.info name).map RegisteredProperty.info

/-- Texts in the order of their code points. -/
def sorted (names : List String) : List String := names.mergeSort fun a b => decide (a ≤ b)

/-- The names of the class's own properties, sorted. -/
def propertyNames (db : ClassDb) (cls : String) : List String :=
  match db.entryNamed? cls with
  | some entry => sorted (entry.properties.map Prod.fst)
  | none => []

/-- The class's own signals, in the order of registration. -/
def signals (db : ClassDb) (cls : String) : List SignalInfo :=
  match db.entryNamed? cls with
  | some entry => entry.signals
  | none => []

/-- The database as a developer sees it: the names of its classes, sorted. -/
def debugText (db : ClassDb) : String :=
  "ClassDb \x7b classes: [" ++
    String.intercalate ", " ((sorted (db.names.map Prod.fst)).map Text.quote) ++ "] \x7d"

end ClassDb

/-- The notice that an accepted registration leaves. -/
def Registration.notice : Registration → Notice
  | .newClass info => .registeringClass info.name (info.base?.map ClassInfo.name)
  | .newMethod cls info _ => .registeringMethod cls.name info.name
  | .newProperty cls info _ _ => .registeringProperty cls.name info.name info.className
  | .newSignal cls info => .registeringSignal cls.name info.name

/-- Writes down what was accepted. -/
def World.noteRegistrations (w : World) (accepted : List Registration) : World :=
  accepted.foldl (fun w part => w.note part.notice) w

end ArrayBridge
