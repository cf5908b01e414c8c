import ArrayBridge.Text.Hex

/-!
# Name hashes

The sixty-four bit identity of a name that both sides of the bridge know: the XXH64 digest of the
name's UTF-8 bytes with seed zero, mixed with a marker for names. Scalar element types are
identified by it; classes are not (see `ClassId`), so that two classes of one name stay apart.
-/

namespace ArrayBridge

namespace Xxh64

def prime1 : UInt64 := 0x9E3779B185EBCA87
def prime2 : UInt64 := 0xC2B2AE3D27D4EB4F
def prime3 : UInt64 := 0x165667B19E3779F9
def prime4 : UInt64 := 0x85EBCA77C2B2AE63
def prime5 : UInt64 := 0x27D4EB2F165667C5

def rotate (x amount : UInt64) : UInt64 := (x <<< amount) ||| (x >>> (64 - amount))

/-- The number that bytes spell, least significant first. -/
def littleEndian (bytes : List UInt8) : UInt64 :=
  bytes.foldr (fun byte rest => (rest <<< 8) ||| byte.toUInt64) 0

def round (lane word : UInt64) : UInt64 := rotate (lane + word * prime2) 31 * prime1

/-- Folds one of the four lanes into the digest. -/
def merge (digest lane : UInt64) : UInt64 := (digest ^^^ round 0 lane) * prime1 + prime4

/-- The four lanes that a long input is spread over, eight bytes to each in turn. -/
structure Lanes where
  a : UInt64
  b : UInt64
  c : UInt64
  d : UInt64

def Lanes.seeded (seed : UInt64) : Lanes :=
  ⟨seed + prime1 + prime2, seed + prime2, seed, seed - prime1⟩

/-- Takes in the next thirty-two bytes. -/
def Lanes.absorb (lanes : Lanes) (bytes : List UInt8) : Lanes :=
  let word (n : Nat) := littleEndian ((bytes.drop (8 * n)).take 8)
  ⟨round lanes.a (word 0), round lanes.b (word 1), round lanes.c (word 2), round lanes.d (word 3)⟩

def Lanes.digest (lanes : Lanes) : UInt64 :=
  let sum := rotate lanes.a 1 + rotate lanes.b 7 + rotate lanes.c 12 + rotate lanes.d 18
  merge (merge (merge (merge sum lanes.a) lanes.b) lanes.c) lanes.d

/-- Takes in every whole block of thirty-two bytes. -/
def Lanes.absorbAll (lanes : Lanes) (bytes : List UInt8) : Lanes :=
  if 32 ≤ bytes.length then (lanes.absorb bytes).absorbAll (bytes.drop 32) else lanes
termination_by bytes.length
decreasing_by simp only [List.length_drop]; omega

/-- Takes in the bytes behind the last whole block: by eight, then by four, then singly. -/
def finish (digest : UInt64) (bytes : List UInt8) : UInt64 :=
  if 8 ≤ bytes.length then
    finish (rotate (digest ^^^ round 0 (littleEndian (bytes.take 8))) 27 * prime1 + prime4)
      (bytes.drop 8)
  else if 4 ≤ bytes.length then
    finish (rotate (digest ^^^ littleEndian (bytes.take 4) * prime1) 23 * prime2 + prime3)
      (bytes.drop 4)
  else
    match bytes with
    | [] => digest
    | byte :: rest => finish (rotate (digest ^^^ byte.toUInt64 * prime5) 11 * prime1) rest
termination_by bytes.length
decreasing_by
  all_goals simp only [List.length_drop, List.length_cons]; omega

/-- Spreads every bit of the digest over the whole word. -/
def avalanche (digest : UInt64) : UInt64 :=
  let digest := (digest ^^^ (digest >>> 33)) * prime2
  let digest := (digest ^^^ (digest >>> 29)) * prime3
  digest ^^^ (digest >>> 32)

/-- The digest of a byte sequence. -/
def digest (seed : UInt64) (bytes : List UInt8) : UInt64 :=
  let start :=
    if 32 ≤ bytes.length then ((Lanes.seeded seed).absorbAll bytes).digest else seed + prime5
  let whole := bytes.length / 32 * 32
  avalanche (finish (start + bytes.length.toUInt64) (bytes.drop whole))

end Xxh64

/-- A sixty-four bit identity. Zero stands for "no identity" and is the default. -/
structure TypeHash where
  value : UInt64
deriving DecidableEq

namespace TypeHash

/-- The identity of no type. -/
def empty : TypeHash := ⟨0⟩

instance : Inhabited TypeHash := ⟨empty⟩

/-- The marker mixed into the hash of a name. -/
def nameMarker : UInt64 := 0x2fac10b63a6cc57c

/-- The identity of a name. -/
def ofName (name : String) : TypeHash :=
  ⟨nameMarker ^^^ Xxh64.digest 0 name.toUTF8.toList⟩

def isEmpty (h : TypeHash) : Bool := h.value == 0

/-- Sixteen hexadecimal digits. -/
def text (h : TypeHash) : String := "0x" ++ Text.hex 16 h.value.toNat

/-- The text with the name of the type around it. -/
def debugText (h : TypeHash) : String := "TypeHash(" ++ h.text ++ ")"

end TypeHash

end ArrayBridge
