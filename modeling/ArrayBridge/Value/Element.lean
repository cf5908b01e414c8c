import ArrayBridge.Class.Hash
import ArrayBridge.Number.Binary
import ArrayBridge.Value.TypeTag
import ArrayBridge.Value.Variant

/-!
# Element types

The native types that a typed array can hold. Each has a type of native values (`Carrier`), the tag
of the arrays that hold it, the name the engine shows, and a wrapping into variants that never
fails. All widths of integers look the same from the engine, and so do both widths of floats.
-/

namespace ArrayBridge

/-- The widths of native integers. -/
inductive IntWidth where
  | i8 | i16 | i32 | i64 | u8 | u16 | u32
deriving DecidableEq

namespace IntWidth

def all : List IntWidth := [.i8, .i16, .i32, .i64, .u8, .u16, .u32]

def name : IntWidth → String
  | .i8 => "i8"
  | .i16 => "i16"
  | .i32 => "i32"
  | .i64 => "i64"
  | .u8 => "u8"
  | .u16 => "u16"
  | .u32 => "u32"

/-- The width of that name. -/
def ofName? (name : String) : Option IntWidth := all.find? fun width => width.name == name

/-- The least value of the width. -/
def low : IntWidth → Int
  | .i8 => -0x80
  | .i16 => -0x8000
  | .i32 => -0x80000000
  | .i64 => -0x8000000000000000
  | .u8 | .u16 | .u32 => 0

/-- The greatest value of the width. -/
def high : IntWidth → Int
  | .i8 => 0x7f
  | .i16 => 0x7fff
  | .i32 => 0x7fffffff
  | .i64 => 0x7fffffffffffffff
  | .u8 => 0xff
  | .u16 => 0xffff
  | .u32 => 0xffffffff

/-- The integers of the width. -/
def Value (width : IntWidth) : Type := { n : Int // width.low ≤ n ∧ n ≤ width.high }

instance (width : IntWidth) : DecidableEq width.Value := inferInstanceAs (DecidableEq (Subtype _))

end IntWidth

/-- A typed handle: an object seen as an instance of the class. That the object is one is a
matter of the `World` the object lives in; every way to make a handle checks it. -/
structure Handle (cls : ClassInfo) where
  object : ObjectId
deriving DecidableEq

/-- A native element type. -/
inductive ElementType where
  | bool
  | int (width : IntWidth)
  | single
  | double
  | string
  | handle (cls : ClassInfo)
  | optionalHandle (cls : ClassInfo)
deriving DecidableEq

/-- A typed handle of some class. -/
structure AnyHandle where
  cls : ClassInfo
  handle : Handle cls

namespace ElementType

/-- The native values of an element type. -/
def Carrier : ElementType → Type
  | .bool => Bool
  | .int width => width.Value
  | .single => Binary32
  | .double => Binary64
  | .string => String
  | .handle cls => Handle cls
  | .optionalHandle cls => Option (Handle cls)

instance (T : ElementType) : DecidableEq T.Carrier :=
  match T with
  | .bool => inferInstanceAs (DecidableEq Bool)
  | .int width => inferInstanceAs (DecidableEq width.Value)
  | .single => inferInstanceAs (DecidableEq Binary32)
  | .double => inferInstanceAs (DecidableEq Binary64)
  | .string => inferInstanceAs (DecidableEq String)
  | .handle cls => inferInstanceAs (DecidableEq (Handle cls))
  | .optionalHandle cls => inferInstanceAs (DecidableEq (Option (Handle cls)))

/-- The kind of the variants that the values are wrapped into. -/
def kind : ElementType → Kind
  | .bool => .bool
  | .int _ => .int
  | .single | .double => .float
  | .string => .string
  | .handle _ | .optionalHandle _ => .object

/-- The class of the handles, for the types that are handles. -/
def class? : ElementType → Option ClassInfo
  | .handle cls | .optionalHandle cls => some cls
  | _ => none

/-- The tag of the arrays that hold the type. A handle and an optional handle share it. -/
def tag (T : ElementType) : TypeTag := ⟨T.kind, T.class?⟩

/-- The name the engine shows: the kind, or the class of a handle. -/
def name (T : ElementType) : String :=
  match T.class? with
  | some cls => cls.name
  | none => T.kind.name

/-- Wrapping a native value, which never fails. The missing handle is `nil`, and a single is
widened without loss. -/
def encode : (T : ElementType) → T.Carrier → Variant
  | .bool, (b : Bool) => .bool b
  | .int _, n => .int (Int64.ofInt n.val)
  | .single, (x : Binary32) => .float x.widen
  | .double, (x : Binary64) => .float x
  | .string, (s : String) => .string s
  | .handle _, (h : Handle _) => .object h.object
  | .optionalHandle _, none => .nil
  | .optionalHandle _, some h => .object h.object

/-- A list of native values as variants. -/
def encodeAll (T : ElementType) (values : List T.Carrier) : List Variant := values.map T.encode

/-- What tells one native type from another: a scalar is known by the hash of its engine name, a
handle by its class. -/
inductive Identity where
  | named (hash : TypeHash)
  | classed (id : ClassId)
deriving DecidableEq

def identity (T : ElementType) : Identity :=
  match T.class? with
  | some cls => .classed cls.id
  | none => .named (TypeHash.ofName T.name)

/-- Whether the type is known by the hash of the name it shows. -/
def isNamed (T : ElementType) : Bool := T.identity == .named (TypeHash.ofName T.name)

end ElementType

/-- A native list on its own: what a native read hands out, apart from any bridge. -/
structure NativeList where
  elem : ElementType
  values : List elem.Carrier

end ArrayBridge
