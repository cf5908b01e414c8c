import ArrayBridge.Registry.Dispatch

/-!
# Plain method bodies

Bodies that need nothing but the arguments, and the getter and setter of the number in a payload.
The latter two take only objects of exactly the class they were made for.
-/

namespace ArrayBridge

namespace MethodBody

/-- Returns no value. -/
def silent : MethodBody := ⟨fun w _ _ => (w, .ok none), []⟩

/-- Always returns the value, and keeps it. -/
def constant (v : Variant) : MethodBody := ⟨fun w _ _ => (w, .ok (some v)), [v]⟩

/-- Returns its first argument, if there is one. -/
def echo : MethodBody := ⟨fun w _ arguments => (w, .ok arguments.head?), []⟩

/-- Returns the number of its arguments. -/
def countArguments : MethodBody :=
  ⟨fun w _ arguments => (w, .ok (some (.int (Int64.ofNat arguments.length)))), []⟩

/-- Refuses every object, as none of the class expected. -/
def refusing (expected : String) : MethodBody :=
  ⟨fun w _ _ => (w, .error (.invalidInstance expected)), []⟩

/-- Runs on objects of exactly the class, and refuses the others. -/
def onExactly (cls : ClassInfo)
    (run : World → ObjectId → List Variant → World × Option Variant) : MethodBody where
  run w o arguments :=
    if w.isExactly o cls then
      let (w, answer) := run w o arguments
      (w, .ok answer)
    else (w, .error (.invalidInstance cls.name))
  keeps := []

/-- The number in the payload as a variant, where there is one. -/
def numberOf (w : World) (o : ObjectId) : Option Variant := (w.value? o).map .int

/-- Returns the number in the payload. -/
def valueGetter (cls : ClassInfo) : MethodBody := onExactly cls fun w o _ => (w, numberOf w o)

/-- Stores an integer and returns nothing; for anything else returns the number there is. -/
def valueSetter (cls : ClassInfo) : MethodBody :=
  onExactly cls fun w o arguments =>
    match arguments.head? with
    | some (.int n) => (w.setValue o n, none)
    | _ => (w, numberOf w o)

end MethodBody

end ArrayBridge
