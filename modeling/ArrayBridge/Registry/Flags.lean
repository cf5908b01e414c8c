import ArrayBridge.Text.Hex

/-!
# Flag sets

Words of which single bits have names. Bits without a name are kept, and shown as a number.
-/

namespace ArrayBridge

/-- A family of flags: its name, and the names of its bits as they are shown in order. -/
structure FlagFamily where
  name : String
  flags : List (String × UInt32)

namespace FlagFamily

/-- All bits that have a name. -/
def known (family : FlagFamily) : UInt32 := family.flags.foldl (fun bits flag => bits ||| flag.2) 0

/-- Whether every bit set has a name. -/
def isValid (family : FlagFamily) (bits : UInt32) : Bool := bits &&& family.known == bits

/-- The bits that have a name. -/
def truncate (family : FlagFamily) (bits : UInt32) : UInt32 := bits &&& family.known

/-- The names of the bits set. -/
def names (family : FlagFamily) (bits : UInt32) : List String :=
  (family.flags.filter fun flag => flag.2 &&& bits == flag.2).map Prod.fst

/-- The names of the bits set and the number of the others, or zero if there is nothing to show. -/
def debugText (family : FlagFamily) (bits : UInt32) : String :=
  let rest := bits &&& ~~~family.known
  let number (n : UInt32) := "0x" ++ Text.hex 1 n.toNat
  let parts := family.names bits ++ (if rest == 0 then [] else [number rest])
  let shown := if parts.isEmpty then number 0 else String.intercalate " | " parts
  family.name ++ "(" ++ shown ++ ")"

end FlagFamily

/-- How the engine stores and presents a property. -/
def PropertyUsage.family : FlagFamily :=
  ⟨"PropertyUsage", [("STORAGE", 2), ("EDITOR", 4), ("INTERNAL", 8), ("READ_ONLY", 16)]⟩

/-- Stored, and shown in the editor. -/
def PropertyUsage.standard : UInt32 := 6

/-- How a method is to be called. -/
def MethodFlags.family : FlagFamily :=
  ⟨"MethodFlags",
    [("NORMAL", 1), ("EDITOR", 2), ("CONST", 4), ("VIRTUAL", 8), ("VARARG", 16), ("STATIC", 32)]⟩

/-- An ordinary method. -/
def MethodFlags.standard : UInt32 := 1

/-- Whether all bits of `flags` are set in `bits`. -/
def hasFlags (bits flags : UInt32) : Bool := bits &&& flags == flags

end ArrayBridge
