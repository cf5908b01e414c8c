import ArrayBridge.Declaration.Attribute
import ArrayBridge.Registry.ArrayProperty

/-!
# Class declarations

A class can be declared by a struct with attributes: `class` on the struct gives it a name and a
base, and `export` on a field makes the field an array property. `Grammar.declare` reads such a
declaration.

**What is accepted**: a struct without generic parameters, with named fields or none; a `class`
attribute with arguments, each `name` with a string or `base` with a path; an `export` attribute
alone, or with arguments that are `name` with a string; exported fields of a type whose path ends in
`TypedArray`. Of several names or bases the last one counts. Other attributes are not looked at.

**Which error is told**: that of the first thing found in this order: generic parameters, the
attributes of the item, its shape, then field by field the attributes and the type.
-/

namespace ArrayBridge

/-- A field that is exported, and its property. -/
structure ExportedField where
  field : String
  property : String
deriving DecidableEq

/-- What a declaration says. The base is named as it is put into code. -/
structure ClassDeclaration where
  name : String
  base : String
  exports : List ExportedField
deriving DecidableEq

/-- The base of a class that names none. -/
def defaultBase : String := "::varbridge::Object"

namespace Grammar

variable {Path Token TypeExpr : Type} (g : Grammar Path Token TypeExpr)

/-- Whether the type is a path that ends in `TypedArray`. -/
def isTypedArray (type : TypeExpr) : Bool :=
  match g.typePath? type with
  | some path => (g.names path).getLast? == some "TypedArray"
  | none => false

/-- The export of a field, if it is exported. -/
def export? (field : FieldDecl Path Token TypeExpr) :
    Except DeclarationError (Option ExportedField) := do
  let settings ← g.exportSettings field.attributes
  if !settings.exported then .ok none
  else if g.isTypedArray field.type then
    .ok (some ⟨field.name, settings.name.getD field.name⟩)
  else .error .notATypedArray

/-- The exports of fields, in order. -/
def exportsOf : List (FieldDecl Path Token TypeExpr) → Except DeclarationError (List ExportedField)
  | [] => .ok []
  | field :: rest => do
    let first ← g.export? field
    let others ← exportsOf rest
    .ok (first.toList ++ others)

/-- Reads a declaration. -/
def declare (item : Item Path Token TypeExpr) : Except DeclarationError ClassDeclaration := do
  if !item.parameters.isEmpty then .error .genericParameters
  else
    let settings ← g.classSettings item.attributes
    let fields ← match item.shape with
      | .named fields => .ok fields
      | .unit => .ok []
      | .tuple => .error .unnamedFields
      | .enumeration | .union => .error .notAStruct
    let exports ← g.exportsOf fields
    let base := (settings.base.map g.written).getD defaultBase
    .ok ⟨settings.name.getD item.name, base, exports⟩

end Grammar

/-- The exports of a declaration over a payload with the named bridges. -/
def ClassDeclaration.exportsOver (declaration : ClassDeclaration)
    (bridges : List (String × ElementType)) : List Export :=
  declaration.exports.filterMap fun e =>
    (bridges.find? fun bridge => bridge.1 == e.field).map fun bridge =>
      ⟨e.field, bridge.2, e.property⟩

end ArrayBridge
