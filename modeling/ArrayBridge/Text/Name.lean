/-!
# Names

The characters that names are made of, and the blanks that part them.
-/

namespace ArrayBridge.Text

/-- The blanks: the characters of white space, and the two marks of direction. -/
def blankRanges : List (Nat × Nat) :=
  [ (0x9, 0xD), (0x20, 0x20), (0x85, 0x85), (0xA0, 0xA0), (0x1680, 0x1680), (0x2000, 0x200A),
    (0x200E, 0x200F), (0x2028, 0x2029), (0x202F, 0x202F), (0x205F, 0x205F), (0x3000, 0x3000) ]

def isBlank (c : Char) : Bool :=
  blankRanges.any fun range => decide (range.1 ≤ c.toNat ∧ c.toNat ≤ range.2)

/-- Whether a name can start with the character: a letter, an underscore, or any beyond ASCII that
is no blank. -/
def startsName (c : Char) : Bool := c.isAlpha || c == '_' || (127 < c.toNat && !isBlank c)

/-- Whether a name can go on with the character. -/
def continuesName (c : Char) : Bool := startsName c || c.isDigit

theorem length_dropWhile_le (p : Char → Bool) (cs : List Char) :
    (cs.dropWhile p).length ≤ cs.length :=
  (List.dropWhile_sublist p).length_le

/-- A text without the name that it starts with, if there is one. -/
def afterName : List Char → List Char
  | [] => []
  | c :: rest => if startsName c then rest.dropWhile continuesName else c :: rest

theorem length_afterName_le (cs : List Char) : (afterName cs).length ≤ cs.length := by
  cases cs with
  | nil => simp [afterName]
  | cons c rest =>
    rw [afterName]
    split
    · exact Nat.le_succ_of_le (length_dropWhile_le _ rest)
    · exact Nat.le_refl _

end ArrayBridge.Text
