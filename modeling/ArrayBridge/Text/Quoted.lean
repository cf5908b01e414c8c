import ArrayBridge.Text.Hidden
import ArrayBridge.Text.Hex

/-!
# Quoted text

A text between double quotes. A quote and a backslash inside it stand behind a backslash; four
controls have letters of their own (line feed, carriage return, tab, null); every other character
that is not shown as it is becomes `\u` and its code point in braces.
-/

namespace ArrayBridge.Text

/-- The spelling of one character inside a quoted text. -/
def spell (c : Char) : List Char :=
  match c with
  | '"' => ['\\', '"']
  | '\\' => ['\\', '\\']
  | '\n' => ['\\', 'n']
  | '\r' => ['\\', 'r']
  | '\t' => ['\\', 't']
  | '\x00' => ['\\', '0']
  | c => if isHidden c then '\\' :: 'u' :: '\x7b' :: ((hex 1 c.toNat).toList ++ ['\x7d']) else [c]

/-- The quoted form of a text. -/
def quote (s : String) : String :=
  String.ofList ('"' :: (s.toList.flatMap spell ++ ['"']))

end ArrayBridge.Text
