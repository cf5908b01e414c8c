/-!
# Hexadecimal numerals

Lowercase digits, with or without a prefix; reading takes both cases.
-/

namespace ArrayBridge.Text

/-- The lowercase hexadecimal numeral of `n`, filled up with zeros to at least `width` digits. -/
def hex (width n : Nat) : String :=
  let digits := Nat.toDigits 16 n
  String.ofList (List.replicate (width - digits.length) '0' ++ digits)

/-- The value of a hexadecimal digit. -/
def hexDigit? (c : Char) : Option Nat :=
  if c.isDigit then some (c.toNat - '0'.toNat)
  else if 'a' ≤ c ∧ c ≤ 'f' then some (c.toNat - 'a'.toNat + 10)
  else if 'A' ≤ c ∧ c ≤ 'F' then some (c.toNat - 'A'.toNat + 10)
  else none

/-- The number of a numeral that starts with `0x`. -/
def hexNumber? (s : String) : Option Nat :=
  match s.toList with
  | '0' :: 'x' :: digits => digits.foldlM (fun n c => (hexDigit? c).map (16 * n + ·)) 0
  | _ => none

end ArrayBridge.Text
