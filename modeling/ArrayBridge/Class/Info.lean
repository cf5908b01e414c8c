import ArrayBridge.Text.Quoted

/-!
# Classes

A class is known by its identity; its name is for people. A record of a class carries its chain of
bases with it, so "is this class the other one or derived from it" is a walk up that chain comparing
identities. Nothing forbids two records of one identity with different names or bases; the
statements about inheritance that need one record to an identity say so.
-/

namespace ArrayBridge

/-- The identity of a class, a mere token: it says nothing of the name. -/
structure ClassId where
  number : Nat
deriving DecidableEq

/-- The record of a class: its name, its identity, whether references to its instances are
counted, and the record of its base. -/
inductive ClassInfo where
  | root (name : String) (id : ClassId) (refcounted : Bool)
  | derived (name : String) (id : ClassId) (refcounted : Bool) (base : ClassInfo)
deriving DecidableEq

namespace ClassInfo

/-- The record with the given base, or a root without one. -/
def make (name : String) (id : ClassId) (refcounted : Bool) : (base : Option ClassInfo) → ClassInfo
  | none => .root name id refcounted
  | some base => .derived name id refcounted base

def name : ClassInfo → String
  | .root name _ _ => name
  | .derived name _ _ _ => name

def id : ClassInfo → ClassId
  | .root _ id _ => id
  | .derived _ id _ _ => id

/-- Whether an instance is freed when the last reference to it is given back. -/
def refcounted : ClassInfo → Bool
  | .root _ _ refcounted => refcounted
  | .derived _ _ refcounted _ => refcounted

def base? : ClassInfo → Option ClassInfo
  | .root _ _ _ => none
  | .derived _ _ _ base => some base

/-- A class derived from `base`; reference counting is inherited. -/
def extend (base : ClassInfo) (name : String) (id : ClassId) : ClassInfo :=
  .derived name id base.refcounted base

/-- The class itself and then its bases, the nearest first. -/
def ancestors : ClassInfo → List ClassInfo
  | c@(.root _ _ _) => [c]
  | c@(.derived _ _ _ base) => c :: base.ancestors

/-- Inheritance: the class is the other one or is derived from it. -/
def inherits (c other : ClassInfo) : Bool :=
  c.ancestors.any fun ancestor => ancestor.id == other.id

/-- The root of the classes whose instances are freed by hand. -/
def object : ClassInfo := .root "Object" ⟨0⟩ false

/-- The base of the classes whose instances are freed with the last reference. -/
def refCounted : ClassInfo := .derived "RefCounted" ⟨1⟩ true object

/-- The record as a developer sees it. -/
def debugText (c : ClassInfo) : String :=
  let base := match c.base? with
    | some base => "Some(" ++ Text.quote base.name ++ ")"
    | none => "None"
  "ClassInfo \x7b name: " ++ Text.quote c.name ++ ", base: " ++ base ++
    ", refcounted: " ++ (if c.refcounted then "true" else "false") ++ " \x7d"

end ClassInfo

end ArrayBridge
