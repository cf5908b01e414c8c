/-!
# Declarations as written

A class can be declared by a struct with attributes. Here is such an item with all that is read of
it. What a path is, what the type of a field is, and what the tokens in an attribute are, is up to
the grammar of the language.
-/

namespace ArrayBridge

/-- What stands behind the path of an attribute. -/
inductive AttributeForm (Token : Type) where
  | bare
  /-- A value behind an equals sign, `#[path = value]`. -/
  | value
  /-- Arguments, `#[path(tokens)]`. -/
  | list (tokens : List Token)

/-- An attribute. -/
structure Attribute (Path Token : Type) where
  path : Path
  form : AttributeForm Token

/-- A field that has a name. -/
structure FieldDecl (Path Token TypeExpr : Type) where
  name : String
  type : TypeExpr
  attributes : List (Attribute Path Token)

/-- What sort of item is declared. -/
inductive ItemShape (Path Token TypeExpr : Type) where
  | named (fields : List (FieldDecl Path Token TypeExpr))
  | unit
  | tuple
  | enumeration
  | union

/-- A declaration as written, with its generic parameters. -/
structure Item (Path Token TypeExpr : Type) where
  name : String
  parameters : List String
  attributes : List (Attribute Path Token)
  shape : ItemShape Path Token TypeExpr

end ArrayBridge
