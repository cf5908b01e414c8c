import ArrayBridge.World.Basic

/-!
# Unwrapping variants

The way back from a variant to a native value. It is strict about kinds: an integer is never read as
a float nor a float as an integer. A narrower width is checked, and of the floats only a finite one
can be too large. A handle needs a live instance of its class; only an optional handle reads `nil`.

No reference is taken or given back here: who keeps an object decides on that.
-/

namespace ArrayBridge

namespace World

/-- The refusal of a value of another kind. -/
def mismatch (w : World) (expected : String) (v : Variant) : ConversionError :=
  .typeMismatch expected (w.typeName v)

/-- A handle of the class on an object: the object has to live, and then to be an instance. -/
def handleTo (w : World) (cls : ClassInfo) (o : ObjectId) : Except ConversionError (Handle cls) :=
  if !(w.object o).alive then .error (.freedObject (w.object o).cls.name)
  else if w.isInstance o cls then .ok ⟨o⟩
  else .error (.classMismatch cls.name (w.object o).cls.name)

/-- A handle of the class from a variant. -/
def decodeHandle (w : World) (cls : ClassInfo) : Variant → Except ConversionError (Handle cls)
  | .object o => w.handleTo cls o
  | v => .error (w.mismatch cls.name v)

/-- Unwrapping, with the reason if the variant is no value of the type. -/
def decode (w : World) : (T : ElementType) → Variant → Except ConversionError T.Carrier
  | .bool, .bool b => .ok b
  | .bool, v => .error (w.mismatch "bool" v)
  | .int width, .int n =>
    if h : width.low ≤ n.toInt ∧ n.toInt ≤ width.high then .ok ⟨n.toInt, h⟩
    else .error (.integerOverflow n width.name)
  | .int _, v => .error (w.mismatch "int" v)
  | .single, .float x =>
    if x.overflowsSingle then .error (.floatOverflow x "f32") else .ok x.narrow
  | .single, v => .error (w.mismatch "float" v)
  | .double, .float x => .ok x
  | .double, v => .error (w.mismatch "float" v)
  | .string, .string s => .ok s
  | .string, v => .error (w.mismatch "String" v)
  | .handle cls, v => w.decodeHandle cls v
  | .optionalHandle _, .nil => .ok none
  | .optionalHandle cls, v => (w.decodeHandle cls v).map some

/-- Unwrapping without the reason. -/
def decode? (w : World) (T : ElementType) (v : Variant) : Option T.Carrier :=
  (w.decode T v).toOption

/-- The lenient reading of a list: what unwraps, in order; the rest is passed over. -/
def decodeAll (w : World) (T : ElementType) (items : List Variant) : List T.Carrier :=
  items.filterMap (w.decode? T)

/-- The strict reading of a list: every element has to unwrap, and the first that does not is
reported with its index. -/
def decodeEach (w : World) (T : ElementType) (items : List Variant) :
    Except (Nat × ConversionError) (List T.Carrier) :=
  go 0 items
where
  go (index : Nat) : List Variant → Except (Nat × ConversionError) (List T.Carrier)
    | [] => .ok []
    | v :: rest =>
      match w.decode T v with
      | .ok x => (go (index + 1) rest).map (x :: ·)
      | .error e => .error (index, e)

end World

end ArrayBridge
