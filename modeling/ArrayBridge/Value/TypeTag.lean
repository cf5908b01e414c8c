import ArrayBridge.Class.Info
import ArrayBridge.Value.Kind

/-!
# Type tags

The element type that a typed array is marked with: a kind, and for objects the class. Two tags
agree when their kinds do and, for objects only, their classes are one by identity; the records they
were made from may differ.
-/

namespace ArrayBridge

/-- The mark of a typed array. `class?` names the class of object elements; the object kind
without a class stands for any object. -/
structure TypeTag where
  kind : Kind
  class? : Option ClassInfo

namespace TypeTag

/-- The tag of a kind, without a class. -/
def builtin (kind : Kind) : TypeTag := ⟨kind, none⟩

/-- The tag of instances of the class. -/
def object (cls : ClassInfo) : TypeTag := ⟨.object, some cls⟩

/-- Agreement of tags. -/
def same (a b : TypeTag) : Bool :=
  a.kind == b.kind &&
    (a.kind != .object || a.class?.map ClassInfo.id == b.class?.map ClassInfo.id)

/-- Agreement of optional tags: both absent, or both there and the same. -/
def same? : Option TypeTag → Option TypeTag → Bool
  | none, none => true
  | some a, some b => a.same b
  | _, _ => false

/-- The class name of an object tag, and nothing for other kinds. -/
def className (tag : TypeTag) : String :=
  match tag.kind, tag.class? with
  | .object, some cls => cls.name
  | _, _ => ""

/-- The name of the element type. -/
def text (tag : TypeTag) : String :=
  match tag.kind, tag.class? with
  | .object, some cls => cls.name
  | kind, _ => kind.name

/-- The name as a developer sees it. -/
def debugText (tag : TypeTag) : String := "TypeTag(" ++ tag.text ++ ")"

end TypeTag

end ArrayBridge
