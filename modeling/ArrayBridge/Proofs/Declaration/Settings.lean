import Mathlib.Data.List.Forall2
import ArrayBridge.Declaration.Attribute

/-!
# What attributes say

What the `class` attributes of an item and the `export` attributes of a field give, told without the
steps of reading them: each argument says one thing or nothing can be read, and the last of several
names or bases is the one that counts.

**Arguments** (`Grammar.Gives`). A key, an equals sign, and one text or one path, up to a comma or
the end. Everything else is refused (`Grammar.Conventional.classSettings_eq_ok_iff`,
`Grammar.Conventional.exportSettings_eq_ok_iff`).

Reading goes through lists in two places, the attributes and the arguments of each. Both are read
one by one from the left, so what is said by one is all that has to be known of an element
(`foldlM_eq_ok_iff`, `Grammar.takes_iff`).
-/

namespace ArrayBridge

section Reading

variable {ε ε' σ α β : Type}

/-- Another reason to refuse refuses nothing else. -/
@[simp] theorem mapError_eq_ok_iff {f : ε → ε'} {x : Except ε α} {a : α} :
    x.mapError f = .ok a ↔ x = .ok a := by
  cases x <;> simp [Except.mapError]

theorem bind_eq_ok_iff {x : Except ε α} {f : α → Except ε β} {b : β} :
    (x >>= f) = .ok b ↔ ∃ a, x = .ok a ∧ f a = .ok b := by
  cases x with
  | error e =>
    constructor
    · intro h
      cases h
    · rintro ⟨_, h, _⟩
      cases h
  | ok a =>
    constructor
    · exact fun h => ⟨a, rfl, h⟩
    · rintro ⟨_, same, h⟩
      cases same
      exact h

/-- Where each element adds what it says, a list adds in order what its elements say. -/
theorem foldlM_eq_ok_iff {step : σ → α → Except ε σ} {tells : α → β → Prop} {put : σ → β → σ}
    (correct : ∀ s a s', step s a = .ok s' ↔ ∃ b, tells a b ∧ s' = put s b)
    {l : List α} {s s' : σ} :
    l.foldlM step s = .ok s' ↔ ∃ said, List.Forall₂ tells l said ∧ s' = said.foldl put s := by
  induction l generalizing s with
  | nil =>
    constructor
    · intro h
      cases h
      exact ⟨[], .nil, rfl⟩
    · rintro ⟨_, h, rfl⟩
      cases h
      rfl
  | cons a rest ih =>
    rw [List.foldlM_cons, bind_eq_ok_iff]
    constructor
    · rintro ⟨_, first, others⟩
      obtain ⟨b, tells, rfl⟩ := (correct _ _ _).mp first
      obtain ⟨said, all, rfl⟩ := ih.mp others
      exact ⟨b :: said, .cons tells all, rfl⟩
    · rintro ⟨_, h, rfl⟩
      cases h with
      | cons tells all => exact ⟨_, (correct _ _ _).mpr ⟨_, tells, rfl⟩, ih.mpr ⟨_, all, rfl⟩⟩

end Reading

/-- The last of several counts, and before all of them what there was. -/
theorem getLast?_cons_or {α : Type} (a : α) (l : List α) (before : Option α) :
    (a :: l).getLast?.or before = l.getLast?.or (some a) := by
  rw [List.getLast?_cons]
  cases l.getLast? <;> rfl

namespace Grammar

variable {Path Token TypeExpr : Type} (g : Grammar Path Token TypeExpr)

/-! ## One argument -/

@[simp] theorem readable_eq_ok_iff {α : Type} {reading : Except String α} {a : α} :
    readable reading = .ok a ↔ reading = .ok a := by
  simp [readable]

@[simp] theorem isName_iff {path : Path} {name : String} :
    g.isName path name = true ↔ g.soleName? path = some name := by
  simp [isName]

/-- **The argument is the key with a value**: its path is the one name, and behind an equals sign
stands what is read as the value. The rest follows the value. -/
def Gives {α : Type} (key : String) (read : List Token → Except String (α × List Token))
    (path : Path) (ts : List Token) (value : α) (rest : List Token) : Prop :=
  g.soleName? path = some key ∧ ∃ behind, g.value ts = .ok behind ∧ read behind = .ok (value, rest)

variable {g}

theorem textValue_eq_ok_iff {ts rest : List Token} {text : String} :
    g.textValue ts = .ok (text, rest) ↔
      ∃ behind, g.value ts = .ok behind ∧ g.text behind = .ok (text, rest) := by
  simp [textValue, bind_eq_ok_iff]

theorem pathValue_eq_ok_iff {ts rest : List Token} {path : Path} :
    g.pathValue ts = .ok (path, rest) ↔
      ∃ behind, g.value ts = .ok behind ∧ g.path behind = .ok (path, rest) := by
  simp [pathValue, bind_eq_ok_iff]

/-! ## The arguments of an attribute -/

/-- **What a list of arguments says**, one by one. Of an argument it is told what it says by its
path and what stands behind it, and what follows. -/
inductive Lists {α : Type} (g : Grammar Path Token TypeExpr)
    (tells : Path → List Token → α → List Token → Prop) : List Token → List α → Prop where
  | none : Lists g tells [] []
  | last {path : Path} {ts rest : List Token} {a : α} (key : g.key ts = .ok (path, rest))
    (means : tells path rest a []) : Lists g tells ts [a]
  | more {path : Path} {comma : Token} {ts rest others : List Token} {a : α} {said : List α}
    (key : g.key ts = .ok (path, rest)) (means : tells path rest a (comma :: others))
    (separated : g.isComma comma = true) (further : Lists g tells others said) :
    Lists g tells ts (a :: said)

/-- What an attribute with arguments says. -/
def Says {α : Type} (g : Grammar Path Token TypeExpr)
    (tells : Path → List Token → α → List Token → Prop) (a : Attribute Path Token)
    (said : List α) : Prop :=
  ∃ ts, a.form = .list ts ∧ g.Lists tells ts said

section Arguments

variable {σ α : Type} {take : Taking Path Token σ} {put : σ → α → σ}
  {tells : Path → List Token → α → List Token → Prop}

/-- Where each argument adds what it says, a list adds in order what its arguments say. -/
theorem takes_iff (correct : ∀ s path ts s' rest, take s path ts = .ok (s', rest) ↔
      ∃ a, tells path ts a rest ∧ s' = put s a)
    {s s' : σ} {ts : List Token} :
    g.Takes take s ts s' ↔ ∃ said, g.Lists tells ts said ∧ s' = said.foldl put s := by
  constructor
  · intro takes
    induction takes with
    | done s => exact ⟨[], .none, rfl⟩
    | last key taken =>
      obtain ⟨a, means, rfl⟩ := (correct _ _ _ _ _).mp taken
      exact ⟨[a], .last key means, rfl⟩
    | more key taken separated _ ih =>
      obtain ⟨a, means, rfl⟩ := (correct _ _ _ _ _).mp taken
      obtain ⟨said, lists, rfl⟩ := ih
      exact ⟨a :: said, .more key means separated lists, rfl⟩
  · rintro ⟨said, lists, rfl⟩
    induction lists generalizing s with
    | none => exact .done s
    | last key means => exact .last key ((correct _ _ _ _ _).mpr ⟨_, means, rfl⟩)
    | more key means separated _ ih =>
      exact .more key ((correct _ _ _ _ _).mpr ⟨_, means, rfl⟩) separated ih

theorem Conventional.arguments_eq_ok_iff (c : g.Conventional)
    (correct : ∀ s path ts s' rest, take s path ts = .ok (s', rest) ↔
      ∃ a, tells path ts a rest ∧ s' = put s a)
    (advances : ∀ path ts a rest, tells path ts a rest → rest <:+ ts)
    (s : σ) (a : Attribute Path Token) (s' : σ) :
    g.arguments a take s = .ok s' ↔ ∃ said, g.Says tells a said ∧ s' = said.foldl put s := by
  rw [c.arguments_iff]
  · simp only [takes_iff correct]
    constructor
    · rintro ⟨ts, list, said, lists, same⟩
      exact ⟨said, ⟨ts, list, lists⟩, same⟩
    · rintro ⟨said, ⟨ts, list, lists⟩, same⟩
      exact ⟨ts, list, said, lists, same⟩
  · intro s path ts s' rest taken
    obtain ⟨a, means, _⟩ := (correct s path ts s' rest).mp taken
    exact advances path ts a rest means

/-- What follows a value is the end of what stands behind the key. -/
theorem Conventional.gives_suffix (c : g.Conventional) {key : String} {value : α} {path : Path}
    {read : List Token → Except String (α × List Token)} {ts rest : List Token}
    (suffix : ∀ {ts value rest}, read ts = .ok (value, rest) → rest <:+ ts)
    (gives : g.Gives key read path ts value rest) : rest <:+ ts := by
  obtain ⟨_, behind, equals, given⟩ := gives
  exact (suffix given).trans (c.value_suffix equals)

end Arguments

end Grammar

/-! ## Attributes of a class -/

variable {Path Token TypeExpr : Type} {g : Grammar Path Token TypeExpr}

/-- What an argument of a `class` attribute says. -/
inductive ClassArgument (Path : Type) where
  | name (text : String)
  | base (path : Path)

namespace ClassArgument

/-- An argument says a name by a text, and a base by a path. -/
inductive SaidBy (g : Grammar Path Token TypeExpr) (path : Path) (ts : List Token) :
    ClassArgument Path → List Token → Prop where
  | name {text : String} {rest : List Token} (gives : g.Gives "name" g.text path ts text rest) :
    SaidBy g path ts (.name text) rest
  | base {base : Path} {rest : List Token} (gives : g.Gives "base" g.path path ts base rest) :
    SaidBy g path ts (.base base) rest

def name? : ClassArgument Path → Option String
  | .name text => some text
  | .base _ => none

def base? : ClassArgument Path → Option Path
  | .name _ => none
  | .base path => some path

theorem SaidBy.suffix (c : g.Conventional) {path : Path} {ts rest : List Token}
    {a : ClassArgument Path} (said : SaidBy g path ts a rest) : rest <:+ ts := by
  cases said with
  | name gives => exact c.gives_suffix c.text_suffix gives
  | base gives => exact c.gives_suffix c.path_suffix gives

end ClassArgument

namespace ClassSettings

def put (settings : ClassSettings Path) : ClassArgument Path → ClassSettings Path
  | .name text => { settings with name := some text }
  | .base path => { settings with base := some path }

/-- Of several names the last one counts, and so of several bases. -/
theorem foldl_put (said : List (ClassArgument Path)) (settings : ClassSettings Path) :
    said.foldl put settings =
      ⟨(said.filterMap ClassArgument.name?).getLast?.or settings.name,
        (said.filterMap ClassArgument.base?).getLast?.or settings.base⟩ := by
  induction said generalizing settings with
  | nil => rfl
  | cons a rest ih =>
    rw [List.foldl_cons, ih]
    cases a with
    | name text =>
      simp only [put, List.filterMap_cons, ClassArgument.name?, ClassArgument.base?,
        getLast?_cons_or]
    | base path =>
      simp only [put, List.filterMap_cons, ClassArgument.name?, ClassArgument.base?,
        getLast?_cons_or]

end ClassSettings

namespace Grammar

theorem takeClassArgument_eq_ok_iff (settings : ClassSettings Path) (path : Path)
    (ts : List Token) (settings' : ClassSettings Path) (rest : List Token) :
    g.takeClassArgument settings path ts = .ok (settings', rest) ↔
      ∃ a, ClassArgument.SaidBy g path ts a rest ∧ settings' = settings.put a := by
  unfold takeClassArgument
  constructor
  · intro h
    split at h
    · rename_i named
      obtain ⟨⟨text, after⟩, read, same⟩ := bind_eq_ok_iff.mp h
      cases same
      exact ⟨.name text, .name ⟨g.isName_iff.mp named, textValue_eq_ok_iff.mp read⟩, rfl⟩
    · split at h
      · rename_i named
        obtain ⟨⟨base, after⟩, read, same⟩ := bind_eq_ok_iff.mp h
        cases same
        exact ⟨.base base, .base ⟨g.isName_iff.mp named, pathValue_eq_ok_iff.mp read⟩, rfl⟩
      · cases h
  · rintro ⟨a, said, rfl⟩
    cases said with
    | name gives =>
      obtain ⟨named, read⟩ := gives
      rw [if_pos (g.isName_iff.mpr named), bind_eq_ok_iff]
      exact ⟨_, textValue_eq_ok_iff.mpr read, rfl⟩
    | base gives =>
      obtain ⟨named, read⟩ := gives
      have other : ¬ g.isName path "name" = true := by simp [named]
      rw [if_neg other, if_pos (g.isName_iff.mpr named), bind_eq_ok_iff]
      exact ⟨_, pathValue_eq_ok_iff.mpr read, rfl⟩

/-- **What `class` attributes say**: each has arguments that say names and bases, and of all that
is said the last name counts, and the last base. -/
theorem Conventional.classSettings_eq_ok_iff (c : g.Conventional)
    {attributes : List (Attribute Path Token)} {settings : ClassSettings Path} :
    g.classSettings attributes = .ok settings ↔ ∃ said : List (List (ClassArgument Path)),
      List.Forall₂ (g.Says (ClassArgument.SaidBy g)) (g.named "class" attributes) said ∧
      settings = ⟨(said.flatten.filterMap ClassArgument.name?).getLast?,
        (said.flatten.filterMap ClassArgument.base?).getLast?⟩ := by
  have one := c.arguments_eq_ok_iff takeClassArgument_eq_ok_iff fun _ _ _ _ said => said.suffix c
  rw [classSettings, foldlM_eq_ok_iff one]
  simp only [← List.foldl_flatten, ClassSettings.foldl_put, Option.or_none]

end Grammar

/-! ## Attributes of a field -/

namespace ExportSettings

def put (settings : ExportSettings) (text : String) : ExportSettings :=
  { settings with name := some text }

theorem foldl_put (said : List String) (settings : ExportSettings) :
    said.foldl put settings = ⟨settings.exported, said.getLast?.or settings.name⟩ := by
  induction said generalizing settings with
  | nil => rfl
  | cons text rest ih =>
    rw [List.foldl_cons, ih, getLast?_cons_or]
    rfl

theorem foldl_foldl_put (said : List (List String)) (settings : ExportSettings) :
    said.foldl (fun settings one => one.foldl put { settings with exported := true }) settings =
      ⟨settings.exported || said ≠ [], said.flatten.getLast?.or settings.name⟩ := by
  induction said generalizing settings with
  | nil => simp
  | cons one rest ih =>
    rw [List.foldl_cons, ih, foldl_put, List.flatten_cons, List.getLast?_append, Option.or_assoc]
    simp

end ExportSettings

namespace Grammar

theorem takeExportArgument_eq_ok_iff (settings : ExportSettings) (path : Path) (ts : List Token)
    (settings' : ExportSettings) (rest : List Token) :
    g.takeExportArgument settings path ts = .ok (settings', rest) ↔
      ∃ text, g.Gives "name" g.text path ts text rest ∧ settings' = settings.put text := by
  unfold takeExportArgument
  constructor
  · intro h
    split at h
    · rename_i named
      obtain ⟨⟨text, after⟩, read, same⟩ := bind_eq_ok_iff.mp h
      cases same
      exact ⟨text, ⟨g.isName_iff.mp named, textValue_eq_ok_iff.mp read⟩, rfl⟩
    · cases h
  · rintro ⟨text, ⟨named, read⟩, rfl⟩
    rw [if_pos (g.isName_iff.mpr named), bind_eq_ok_iff]
    exact ⟨_, textValue_eq_ok_iff.mpr read, rfl⟩

/-- What one `export` attribute says: bare it says nothing, with arguments it says names. -/
def SaysExport (g : Grammar Path Token TypeExpr) (a : Attribute Path Token)
    (said : List String) : Prop :=
  (a.form = .bare ∧ said = []) ∨ g.Says (g.Gives "name" g.text) a said

theorem Conventional.takeExport_eq_ok_iff (c : g.Conventional) (settings : ExportSettings)
    (a : Attribute Path Token) (settings' : ExportSettings) :
    g.takeExport settings a = .ok settings' ↔ ∃ said, g.SaysExport a said ∧
      settings' = said.foldl ExportSettings.put { settings with exported := true } := by
  unfold takeExport SaysExport
  split
  · rename_i bare
    constructor
    · intro h
      cases h
      exact ⟨[], .inl ⟨bare, rfl⟩, rfl⟩
    · rintro ⟨said, ⟨_, rfl⟩ | ⟨ts, list, _⟩, rfl⟩
      · rfl
      · cases bare.symm.trans list
  · rename_i full
    rw [c.arguments_eq_ok_iff takeExportArgument_eq_ok_iff
      fun _ _ _ _ gives => c.gives_suffix c.text_suffix gives]
    constructor
    · rintro ⟨said, means, same⟩
      exact ⟨said, .inr means, same⟩
    · rintro ⟨said, ⟨bare, _⟩ | means, same⟩
      · exact absurd bare full
      · exact ⟨said, means, same⟩

/-- **What `export` attributes say**: that there is one, and the last of all names that are said. -/
theorem Conventional.exportSettings_eq_ok_iff (c : g.Conventional)
    {attributes : List (Attribute Path Token)} {settings : ExportSettings} :
    g.exportSettings attributes = .ok settings ↔ ∃ said : List (List String),
      List.Forall₂ g.SaysExport (g.named "export" attributes) said ∧
      settings = ⟨said ≠ [], said.flatten.getLast?⟩ := by
  rw [exportSettings, foldlM_eq_ok_iff c.takeExport_eq_ok_iff]
  simp only [ExportSettings.foldl_foldl_put, Bool.false_or, Option.or_none]

end Grammar

end ArrayBridge
