import ArrayBridge.Value.Error

/-!
# The journal

What a world reports of its own doings: one notice for each thing worth telling, oldest first. A
notice holds what was so when it was written, so its text needs no world.
-/

namespace ArrayBridge

/-- How loud a notice is. -/
inductive Level where
  | trace
  | debug
deriving DecidableEq

def Level.name : Level → String
  | .trace => "TRACE"
  | .debug => "DEBUG"

/-- One report. An object appears in it by its label at that moment. -/
inductive Notice where
  | allocated (object : String)
  | freeing (object : String)
  /-- The backing array was built anew from native values. -/
  | rebuilt (tag : TypeTag) (count : Nat)
  /-- The native view was derived again; `kept` of `count` elements convert. -/
  | rederived (tag : TypeTag) (kept count : Nat)
  /-- The references taken on the elements changed hands. -/
  | holding (tag : TypeTag) (held previous : Nat)
  | adopted (tag : TypeTag) (count : Nat)
  | rejectedOwnBacking (tag : TypeTag) (reason : BridgeError)
  | rejectedKeeping (tag : TypeTag) (reason : BridgeError)
  | rejectedResetting (tag : TypeTag) (reason : BridgeError)
  | registeringClass (cls : String) (base : Option String)
  | registeringMethod (cls method : String)
  | registeringProperty (cls property className : String)
  | registeringSignal (cls signal : String)
  | calling (object method : String) (arguments : Nat)

namespace Notice

/-- Registrations and decisions about an array are told aloud, bookkeeping is not. -/
def level : Notice → Level
  | .allocated .. | .freeing .. | .rebuilt .. | .rederived .. | .holding .. | .calling .. => .trace
  | .adopted .. | .rejectedOwnBacking .. | .rejectedKeeping .. | .rejectedResetting ..
  | .registeringClass .. | .registeringMethod .. | .registeringProperty ..
  | .registeringSignal .. => .debug

def text : Notice → String
  | .allocated object => "allocated " ++ object
  | .freeing object => "freeing " ++ object
  | .rebuilt tag count =>
    "Array[" ++ tag.text ++ "] rebuilt from " ++ toString count ++ " native values"
  | .rederived tag kept count =>
    "Array[" ++ tag.text ++ "] re-derived " ++ toString kept ++ " of " ++ toString count ++
      " elements"
  | .holding tag held previous =>
    "Array[" ++ tag.text ++ "] holds " ++ toString held ++ " object references (was " ++
      toString previous ++ ")"
  | .adopted tag count => "Array[" ++ tag.text ++ "] adopted " ++ toString count ++ " elements"
  | .rejectedOwnBacking tag reason =>
    "Array[" ++ tag.text ++ "] rejected its own backing array, keeping contents: " ++
      reason.message
  | .rejectedKeeping tag reason =>
    "Array[" ++ tag.text ++ "] rejected write, keeping contents: " ++ reason.message
  | .rejectedResetting tag reason =>
    "Array[" ++ tag.text ++ "] rejected write, resetting: " ++ reason.message
  | .registeringClass cls base =>
    "registering class " ++ cls ++ " (base " ++ base.getD "-" ++ ")"
  | .registeringMethod cls method => "registering method " ++ cls ++ "." ++ method
  | .registeringProperty cls property className =>
    "registering property " ++ cls ++ "." ++ property ++ " (" ++ className ++ ")"
  | .registeringSignal cls signal => "registering signal " ++ cls ++ "." ++ signal
  | .calling object method arguments =>
    "call " ++ object ++ "." ++ method ++ "(" ++ toString arguments ++ " args)"

/-- The level and the text. -/
def line (n : Notice) : String := n.level.name ++ " " ++ n.text

end Notice

end ArrayBridge
