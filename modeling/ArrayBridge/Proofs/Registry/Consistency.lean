import ArrayBridge.Proofs.Class.Inheritance
import ArrayBridge.Proofs.Registry.Tables

/-!
# Consistent databases

What is true of a class database whatever was registered, in any order and with any refusals.

**Consistency** (`ClassDb.Consistent`). The two tables lead to each other: names to identities, and
identities to entries whose record has the name. The base of a class is registered, and within one
entry every member stands once and under its own name, with the accessors of a property among the
methods of the same class.

**A registration adds one item or changes nothing** (`ClassDb.items`). What an accepted registration
can do is said once, in `register_cases`; that the database stays consistent and what it holds
afterwards are read off from there.

**Bases of bases.** A class is accepted if the identity of its direct base is registered, under
whatever record. So all bases of a registered class are registered only if no identity has two
records (`OneRecordEach`).
-/

namespace ArrayBridge

/-- What can be found in a database: a class, or a member of the class with the identity. -/
inductive RegisteredItem where
  | cls (info : ClassInfo)
  | method (owner : ClassId) (method : RegisteredMethod)
  | property (owner : ClassId) (property : RegisteredProperty)
  | signal (owner : ClassId) (signal : SignalInfo)

/-- The item that a registration is about. -/
def Registration.item : Registration → RegisteredItem
  | .newClass info => .cls info
  | .newMethod cls info body => .method cls.id ⟨info, body⟩
  | .newProperty cls info getter setter => .property cls.id ⟨info, getter, setter⟩
  | .newSignal cls info => .signal cls.id info

namespace ClassEntry

/-- The class of an entry and its own members. -/
def items (entry : ClassEntry) (owner : ClassId) : List RegisteredItem :=
  .cls entry.info ::
    (entry.methods.map (fun row => .method owner row.2) ++
      (entry.properties.map (fun row => .property owner row.2) ++
        entry.signals.map (.signal owner)))

/-- **Order within an entry**: every member stands once and under its own name, and the accessors of
a property are methods of the class. -/
structure Orderly (entry : ClassEntry) : Prop where
  methods : (ClassDb.keys entry.methods).Nodup
  properties : (ClassDb.keys entry.properties).Nodup
  signals : (entry.signals.map SignalInfo.name).Nodup
  methodNames : ∀ row ∈ entry.methods, row.1 = row.2.info.name
  propertyNames : ∀ row ∈ entry.properties, row.1 = row.2.info.name
  accessors : ∀ row ∈ entry.properties, (ClassDb.find? entry.methods row.2.getter).isSome ∧
    (ClassDb.find? entry.methods row.2.setter).isSome

theorem orderly_bare (info : ClassInfo) : (bare info).Orderly where
  methods := .nil
  properties := .nil
  signals := .nil
  methodNames _ h := absurd h List.not_mem_nil
  propertyNames _ h := absurd h List.not_mem_nil
  accessors _ h := absurd h List.not_mem_nil

/-- An entry has grown by an item: it is of the same class and as orderly as before. -/
structure GrownBy (owner : ClassId) (item : RegisteredItem) (entry entry' : ClassEntry) : Prop where
  info : entry'.info = entry.info
  orderly : entry.Orderly → entry'.Orderly
  items : (entry'.items owner).Perm (item :: entry.items owner)

/-- A method with a new name. -/
theorem grownBy_method {entry : ClassEntry} {info : MethodInfo}
    (free : ClassDb.find? entry.methods info.name = none) (owner : ClassId) (body : MethodBody) :
    GrownBy owner (.method owner ⟨info, body⟩) entry
      { entry with methods := entry.methods ++ [(info.name, ⟨info, body⟩)] } where
  info := rfl
  orderly h :=
    { h with
      methods := ClassDb.nodup_keys_concat h.methods free _
      methodNames := fun row mem => by
        rcases List.mem_append.mp mem with old | new
        · exact h.methodNames row old
        · rw [List.mem_singleton.mp new]
      accessors := fun row mem => by
        obtain ⟨getter, setter⟩ := h.accessors row mem
        obtain ⟨_, getter⟩ := Option.isSome_iff_exists.mp getter
        obtain ⟨_, setter⟩ := Option.isSome_iff_exists.mp setter
        simp only [ClassDb.find?_concat_of_some getter, ClassDb.find?_concat_of_some setter,
          Option.isSome_some, and_self] }
  items := by
    simp only [items, List.map_append, List.map_cons, List.map_nil, List.append_assoc]
    exact (List.perm_middle.cons _).trans (.swap _ _ _)

/-- A property with a new name, and with accessors that are there. -/
theorem grownBy_property {entry : ClassEntry} {info : PropertyInfo}
    (free : ClassDb.find? entry.properties info.name = none) (owner : ClassId)
    {getter setter : String}
    (there : (ClassDb.find? entry.methods getter).isSome ∧
      (ClassDb.find? entry.methods setter).isSome) :
    GrownBy owner (.property owner ⟨info, getter, setter⟩) entry
      { entry with properties := entry.properties ++ [(info.name, ⟨info, getter, setter⟩)] } where
  info := rfl
  orderly h :=
    { h with
      properties := ClassDb.nodup_keys_concat h.properties free _
      propertyNames := fun row mem => by
        rcases List.mem_append.mp mem with old | new
        · exact h.propertyNames row old
        · rw [List.mem_singleton.mp new]
      accessors := fun row mem => by
        rcases List.mem_append.mp mem with old | new
        · exact h.accessors row old
        · rw [List.mem_singleton.mp new]
          exact there }
  items := by
    simp only [items, List.map_append, List.map_cons, List.map_nil, List.append_assoc]
    exact (((List.perm_middle.append_left _).trans List.perm_middle).cons _).trans (.swap _ _ _)

/-- A signal with a new name. -/
theorem grownBy_signal {entry : ClassEntry} {info : SignalInfo}
    (free : ∀ signal ∈ entry.signals, signal.name ≠ info.name) (owner : ClassId) :
    GrownBy owner (.signal owner info) entry
      { entry with signals := entry.signals ++ [info] } where
  info := rfl
  orderly h :=
    { h with
      signals := by
        rw [List.map_append]
        refine List.nodup_append.mpr ⟨h.signals, List.pairwise_singleton _ _, ?_⟩
        rintro name mem name' mem' rfl
        obtain ⟨signal, there, same⟩ := List.mem_map.mp mem
        exact free signal there (same.trans (List.mem_singleton.mp mem')) }
  items := by
    simp only [items, List.map_append, List.map_cons, List.map_nil]
    have last := List.perm_append_singleton (RegisteredItem.signal owner info)
      (entry.methods.map (fun row => .method owner row.2) ++
        (entry.properties.map (fun row => .property owner row.2) ++
          entry.signals.map (.signal owner)))
    simp only [List.append_assoc] at last
    exact (last.cons _).trans (.swap _ _ _)

end ClassEntry

namespace ClassDb

variable {db db' : ClassDb}

/-- All that is registered. -/
def items (db : ClassDb) : List RegisteredItem := db.classes.flatMap fun row => row.2.items row.1

/-- **Consistency.** -/
structure Consistent (db : ClassDb) : Prop where
  identities : (keys db.classes).Nodup
  names : (keys db.names).Nodup
  /-- A name leads to an entry whose record has that name. -/
  named : ∀ name id, find? db.names name = some id →
    ∃ entry, db.entry? id = some entry ∧ entry.info.name = name
  /-- An entry is under the identity of its record, and its name leads back to it. -/
  naming : ∀ id entry, db.entry? id = some entry →
    entry.info.id = id ∧ find? db.names entry.info.name = some id
  bases : ∀ id entry, db.entry? id = some entry → ∀ base, entry.info.base? = some base →
    (db.entry? base.id).isSome
  members : ∀ id entry, db.entry? id = some entry → entry.Orderly

/-- No identity has two records among the registered classes and their bases. -/
def OneRecordEach (db : ClassDb) : Prop :=
  ∀ id entry, db.entry? id = some entry → ∀ id' entry', db.entry? id' = some entry' →
    ∀ cls ∈ entry.info.ancestors, ∀ cls' ∈ entry'.info.ancestors, cls.id = cls'.id → cls = cls'

/-! ## What an accepted registration does -/

theorem entryFor_ok {cls : ClassInfo} {entry : ClassEntry} (h : db.entryFor cls = .ok entry) :
    db.entry? cls.id = some entry := by
  unfold entryFor at h
  split at h
  · rename_i found
    rw [found, Except.ok.inj h]
  · cases h

/-- A step after the entry was looked up. -/
theorem bind_entryFor_ok {cls : ClassInfo} {next : ClassEntry → Except RegistrationError ClassDb}
    (h : (db.entryFor cls >>= next) = .ok db') :
    ∃ entry, db.entry? cls.id = some entry ∧ next entry = .ok db' := by
  cases found : db.entryFor cls with
  | error reason => rw [found] at h; cases h
  | ok entry =>
    rw [found] at h
    exact ⟨entry, entryFor_ok found, h⟩

theorem addClass_ok {info : ClassInfo} (h : db.addClass info = .ok db') :
    db.entry? info.id = none ∧ find? db.names info.name = none ∧
      (∀ base, info.base? = some base → (db.entry? base.id).isSome) ∧
      db' = db.insertClass info := by
  unfold addClass at h
  split at h
  · cases h
  · rename_i free
    simp only [Bool.or_eq_true, not_or, Option.not_isSome_iff_eq_none] at free
    refine ⟨free.1, free.2, ?_⟩
    split at h
    · rename_i base isBase
      split at h
      · rename_i there
        refine ⟨fun base' isBase' => ?_, (Except.ok.inj h).symm⟩
        rw [← Option.some.inj (isBase.symm.trans isBase')]
        exact there
      · cases h
    · rename_i isRoot
      refine ⟨fun base' isBase' => ?_, (Except.ok.inj h).symm⟩
      rw [isRoot] at isBase'
      cases isBase'

/-- No accessor is missing where both are methods of the class. -/
theorem missingAccessor?_none {entry : ClassEntry} {getter setter : String}
    (h : missingAccessor? entry [getter, setter] = none) :
    (find? entry.methods getter).isSome ∧ (find? entry.methods setter).isSome := by
  simp only [missingAccessor?, List.find?_eq_none, List.forall_mem_cons, Option.isNone_iff_eq_none,
    ← ne_eq, Option.ne_none_iff_isSome] at h
  exact ⟨h.1, h.2.1⟩

/-- **What an accepted registration does**: it adds a class without members, with a new identity, a
new name and a registered base; or the entry of one class grows by a member. -/
theorem register_cases {part : Registration} (h : db.register part = .ok db') :
    (∃ info, part = .newClass info ∧ db.entry? info.id = none ∧ find? db.names info.name = none ∧
      (∀ base, info.base? = some base → (db.entry? base.id).isSome) ∧
      db' = db.insertClass info) ∨
    ∃ owner entry f, db.entry? owner = some entry ∧ db' = db.changeEntry owner f ∧
      ClassEntry.GrownBy owner part.item entry (f entry) := by
  cases part with
  | newClass info =>
    obtain ⟨identity, name, base, added⟩ := addClass_ok h
    exact .inl ⟨info, rfl, identity, name, base, added⟩
  | newMethod cls info body =>
    obtain ⟨entry, there, h⟩ := bind_entryFor_ok h
    split at h
    · cases h
    · rename_i free
      exact .inr ⟨cls.id, entry, _, there, (Except.ok.inj h).symm,
        ClassEntry.grownBy_method (by simpa using free) cls.id body⟩
  | newProperty cls info getter setter =>
    obtain ⟨entry, there, h⟩ := bind_entryFor_ok h
    split at h
    · cases h
    · rename_i free
      split at h
      · cases h
      · rename_i accessors
        exact .inr ⟨cls.id, entry, _, there, (Except.ok.inj h).symm,
          ClassEntry.grownBy_property (by simpa using free) cls.id
            (missingAccessor?_none accessors)⟩
  | newSignal cls info =>
    obtain ⟨entry, there, h⟩ := bind_entryFor_ok h
    split at h
    · cases h
    · rename_i free
      exact .inr ⟨cls.id, entry, _, there, (Except.ok.inj h).symm,
        ClassEntry.grownBy_signal (by simpa using free) cls.id⟩

/-! ## One registration -/

theorem entry?_insertClass_of_some {info : ClassInfo} {id : ClassId} {entry : ClassEntry}
    (h : db.entry? id = some entry) :
    ClassDb.entry? (db.insertClass info) id = some entry :=
  find?_concat_of_some h _ _

/-- With a new class an entry is that of the class or one from before. -/
theorem entry?_insertClass {info : ClassInfo} {id : ClassId} {entry : ClassEntry}
    (h : ClassDb.entry? (db.insertClass info) id = some entry) :
    db.entry? id = some entry ∨ id = info.id ∧ entry = .bare info := by
  have added : (db.entry? id).or (if info.id = id then some (.bare info) else none) = some entry :=
    (find?_concat db.classes info.id _ id).symm.trans h
  cases old : db.entry? id with
  | some entry' =>
    rw [old] at added
    exact .inl added
  | none =>
    rw [old, Option.none_or] at added
    split at added
    · rename_i here
      exact .inr ⟨here.symm, (Option.some.inj added).symm⟩
    · cases added

theorem Consistent.insertClass (c : db.Consistent) (info : ClassInfo)
    (identity : db.entry? info.id = none) (name : find? db.names info.name = none)
    (base : ∀ base, info.base? = some base → (db.entry? base.id).isSome) :
    (db.insertClass info).Consistent where
  identities := nodup_keys_concat c.identities identity _
  names := nodup_keys_concat c.names name _
  named n id h := by
    by_cases here : info.name = n
    · subst here
      have found : some info.id = some id := (find?_concat_self name info.id).symm.trans h
      rw [← Option.some.inj found]
      exact ⟨.bare info, find?_concat_self identity _, rfl⟩
    · obtain ⟨entry, there, named⟩ := c.named n id ((find?_concat_of_ne here _).symm.trans h)
      exact ⟨entry, entry?_insertClass_of_some there, named⟩
  naming id entry h := by
    rcases entry?_insertClass h with old | ⟨rfl, rfl⟩
    · obtain ⟨same, found⟩ := c.naming id entry old
      exact ⟨same, find?_concat_of_some found _ _⟩
    · exact ⟨rfl, find?_concat_self name _⟩
  bases id entry h base' isBase := by
    have before : (db.entry? base'.id).isSome := by
      rcases entry?_insertClass h with old | ⟨rfl, rfl⟩
      · exact c.bases id entry old base' isBase
      · exact base base' isBase
    obtain ⟨entry', there⟩ := Option.isSome_iff_exists.mp before
    rw [entry?_insertClass_of_some there]
    rfl
  members id entry h := by
    rcases entry?_insertClass h with old | ⟨rfl, rfl⟩
    · exact c.members id entry old
    · exact ClassEntry.orderly_bare info

/-- With an entry changed, what is found is the changed entry or one from before. -/
theorem entry?_changeEntry {owner id : ClassId} {f : ClassEntry → ClassEntry} {entry' : ClassEntry}
    (h : ClassDb.entry? (db.changeEntry owner f) id = some entry') :
    ∃ entry, db.entry? id = some entry ∧ (entry' = entry ∨ id = owner ∧ entry' = f entry) := by
  have changed : (if id = owner then (db.entry? id).map f else db.entry? id) = some entry' :=
    (find?_change db.classes owner f id).symm.trans h
  split at changed
  · rename_i here
    obtain ⟨entry, there, rfl⟩ := Option.map_eq_some_iff.mp changed
    exact ⟨entry, there, .inr ⟨here, rfl⟩⟩
  · exact ⟨entry', changed, .inl rfl⟩

/-- An entry that was there is there, of the same class. -/
theorem entry?_changeEntry_of_some {owner id : ClassId} {f : ClassEntry → ClassEntry}
    {changed entry : ClassEntry} (there : db.entry? owner = some changed)
    (info : (f changed).info = changed.info) (h : db.entry? id = some entry) :
    ∃ entry', ClassDb.entry? (db.changeEntry owner f) id = some entry' ∧
      entry'.info = entry.info := by
  have found := find?_change db.classes owner f id
  split at found
  · rename_i here
    subst here
    obtain rfl : changed = entry := Option.some.inj (there.symm.trans h)
    exact ⟨f changed, found.trans (congrArg (Option.map f) h), info⟩
  · exact ⟨entry, found.trans h, rfl⟩

theorem Consistent.changeEntry (c : db.Consistent) {owner : ClassId} {item : RegisteredItem}
    {f : ClassEntry → ClassEntry} {changed : ClassEntry} (there : db.entry? owner = some changed)
    (grown : ClassEntry.GrownBy owner item changed (f changed)) :
    (db.changeEntry owner f).Consistent := by
  -- what is found now is what was found, but for members
  have former : ∀ id entry', ClassDb.entry? (db.changeEntry owner f) id = some entry' →
      ∃ entry, db.entry? id = some entry ∧ entry'.info = entry.info ∧ entry'.Orderly := by
    intro id entry' h
    obtain ⟨entry, old, rfl | ⟨rfl, rfl⟩⟩ := entry?_changeEntry h
    · exact ⟨entry', old, rfl, c.members id entry' old⟩
    · obtain rfl : changed = entry := Option.some.inj (there.symm.trans old)
      exact ⟨changed, old, grown.info, grown.orderly (c.members id changed old)⟩
  exact
    { identities := (keys_change db.classes owner f).symm ▸ c.identities
      names := c.names
      named := fun name id h => by
        obtain ⟨entry, old, named⟩ := c.named name id h
        obtain ⟨entry', new, same⟩ := entry?_changeEntry_of_some there grown.info old
        exact ⟨entry', new, by rw [same, named]⟩
      naming := fun id entry' h => by
        obtain ⟨entry, old, same, _⟩ := former id entry' h
        rw [same]
        exact c.naming id entry old
      bases := fun id entry' h base isBase => by
        obtain ⟨entry, old, same, _⟩ := former id entry' h
        rw [same] at isBase
        obtain ⟨entry₀, old₀⟩ := Option.isSome_iff_exists.mp (c.bases id entry old base isBase)
        obtain ⟨entry₁, new₁, _⟩ := entry?_changeEntry_of_some there grown.info old₀
        rw [new₁]
        rfl
      members := fun id entry' h => by
        obtain ⟨_, _, _, orderly⟩ := former id entry' h
        exact orderly }

/-- **A registration that is accepted keeps a database consistent.** -/
theorem Consistent.register (c : db.Consistent) {part : Registration}
    (h : db.register part = .ok db') : db'.Consistent := by
  rcases register_cases h with
    ⟨info, _, identity, name, base, rfl⟩ | ⟨owner, entry, f, there, rfl, grown⟩
  · exact c.insertClass info identity name base
  · exact c.changeEntry there grown

/-- **A registration that is accepted adds its item** to those that are there, and that is all. -/
theorem Consistent.items_register (c : db.Consistent) {part : Registration}
    (h : db.register part = .ok db') : db'.items.Perm (part.item :: db.items) := by
  rcases register_cases h with
    ⟨info, rfl, _, _, _, rfl⟩ | ⟨owner, entry, f, there, rfl, grown⟩
  · have last : (db.insertClass info).items = db.items ++ [.cls info] := List.flatMap_append
    rw [last]
    exact List.perm_append_singleton _ _
  · obtain ⟨before, after, table, changed⟩ := change_eq_of_find? c.identities there f
    have changed : (db.changeEntry owner f).classes = before ++ (owner, f entry) :: after := changed
    simp only [items, table, changed, List.flatMap_append, List.flatMap_cons]
    refine .trans ?_ List.perm_middle
    exact (grown.items.append_right _).append_left _

/-! ## Bases of bases -/

/-- Where no identity has two records, all bases of a registered class are registered. -/
theorem Consistent.ancestors (c : db.Consistent) (one : db.OneRecordEach) {id : ClassId}
    {entry : ClassEntry} (h : db.entry? id = some entry) :
    ∀ ancestor ∈ entry.info.ancestors, (db.entry? ancestor.id).isSome := by
  generalize hc : entry.info = cls
  induction cls generalizing id entry with
  | root name number refcounted =>
    intro ancestor mem
    rw [List.mem_singleton.mp mem, ← hc, (c.naming id entry h).1, h]
    rfl
  | derived name number refcounted base ih =>
    intro ancestor mem
    rcases List.mem_cons.mp mem with rfl | mem
    · rw [← hc, (c.naming id entry h).1, h]
      rfl
    · obtain ⟨entry', there⟩ := Option.isSome_iff_exists.mp
        (c.bases id entry h base (by rw [hc]; rfl))
      -- the record of the registered base is the one that the class carries with it
      have same : entry'.info = base := by
        refine one base.id entry' there id entry h _ (ClassInfo.self_mem_ancestors _) base ?_
          (c.naming base.id entry' there).1
        rw [hc]
        exact List.mem_cons_of_mem _ (ClassInfo.self_mem_ancestors base)
      exact ih there same ancestor mem

/-! ## Any sequence of registrations -/

theorem consistent_new : ClassDb.new.Consistent := by
  have nothing : ClassDb.Consistent ⟨[], []⟩ :=
    { identities := .nil
      names := .nil
      named := fun _ _ h => absurd h (by simp [find?])
      naming := fun _ _ h => absurd h (by simp [ClassDb.entry?, find?])
      bases := fun _ _ h => absurd h (by simp [ClassDb.entry?, find?])
      members := fun _ _ h => absurd h (by simp [ClassDb.entry?, find?]) }
  have first := nothing.insertClass .object rfl rfl fun _ h => by cases h
  refine first.insertClass .refCounted (by decide +kernel) (by decide +kernel) ?_
  intro base h
  cases h
  decide +kernel

/-- The database after an attempt at each of the registrations in turn. One that is refused leaves
what was there, and the next one is tried. -/
def afterAttempts (db : ClassDb) (attempts : List Registration) : ClassDb :=
  attempts.foldl (fun db part => (db.registerAll [part]).db) db

/-- An attempt is accepted, or leaves what was there. -/
theorem registerAll_single (db : ClassDb) (part : Registration) :
    ((db.registerAll [part]).refusal = none ∧
        db.register part = .ok (db.registerAll [part]).db) ∨
      ∃ reason, (db.registerAll [part]).refusal = some reason ∧
        db.register part = .error reason ∧ (db.registerAll [part]).db = db := by
  unfold registerAll
  split
  · rename_i accepted
    exact .inl ⟨rfl, accepted⟩
  · rename_i reason refused
    exact .inr ⟨reason, rfl, refused, rfl⟩

theorem Consistent.afterAttempts (c : db.Consistent) (attempts : List Registration) :
    (db.afterAttempts attempts).Consistent := by
  induction attempts generalizing db with
  | nil => exact c
  | cons part rest ih =>
    rcases registerAll_single db part with ⟨_, accepted⟩ | ⟨_, _, _, same⟩
    · exact ih (c.register accepted)
    · have kept : (db.registerAll [part]).db.Consistent := same.symm ▸ c
      exact ih kept

end ClassDb

/-- **The representation of a database.** After any attempts at registering anything, accepted or
refused:

- the database is consistent, and if no identity has two records, all bases of a registered class
  are registered;
- one attempt more is either accepted, and then the items are those from before and the one that was
  registered, or refused, and then the database is what it was. -/
theorem registrations_keep_consistent (attempts : List Registration) :
    let db := ClassDb.new.afterAttempts attempts
    db.Consistent ∧
    (db.OneRecordEach → ∀ id entry, db.entry? id = some entry →
      ∀ ancestor ∈ entry.info.ancestors, (db.entry? ancestor.id).isSome) ∧
    ∀ part, ((db.registerAll [part]).refusal = none ∧
        (db.registerAll [part]).db.items.Perm (part.item :: db.items)) ∨
      ((db.registerAll [part]).refusal.isSome ∧ (db.registerAll [part]).db = db) := by
  intro db
  have c : db.Consistent := ClassDb.consistent_new.afterAttempts attempts
  refine ⟨c, fun one id entry h => c.ancestors one h, fun part => ?_⟩
  rcases db.registerAll_single part with ⟨none, accepted⟩ | ⟨reason, refused, _, same⟩
  · exact .inl ⟨none, c.items_register accepted⟩
  · exact .inr ⟨by rw [refused]; rfl, same⟩

/-- A class, the same class again, and a signal of a class that is not there. -/
def twice : List Registration :=
  [ .newClass (ClassInfo.refCounted.extend "Node" ⟨2⟩),
    .newClass (ClassInfo.refCounted.extend "Node" ⟨2⟩),
    .newSignal (.root "Nowhere" ⟨3⟩ false) ⟨"moved", []⟩ ]

/-- Of three attempts the first is accepted, and the bases of its class are registered. -/
theorem registrations_keep_consistent_twice :
    let db := ClassDb.new.afterAttempts twice
    db.OneRecordEach ∧ db.classCount = 3 ∧
      ∀ ancestor ∈ (ClassInfo.refCounted.extend "Node" ⟨2⟩).ancestors,
        (db.entry? ancestor.id).isSome := by
  intro db
  obtain ⟨_, ancestors, _⟩ := registrations_keep_consistent twice
  have rows : ∀ row ∈ db.classes, ∀ row' ∈ db.classes, ∀ cls ∈ row.2.info.ancestors,
      ∀ cls' ∈ row'.2.info.ancestors, cls.id = cls'.id → cls = cls' := by decide +kernel
  have one : db.OneRecordEach := fun id entry h id' entry' h' =>
    rows _ (ClassDb.mem_of_find? h) _ (ClassDb.mem_of_find? h')
  have node : db.entry? ⟨2⟩ = some (.bare (ClassInfo.refCounted.extend "Node" ⟨2⟩)) := rfl
  exact ⟨one, by decide +kernel, ancestors one ⟨2⟩ _ node⟩

end ArrayBridge
