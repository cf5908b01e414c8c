import ArrayBridge.Text.Hex
import ArrayBridge.Text.Name

/-!
# Literals

Texts and characters in quotes, as they are written. A text stands between double quotes, a
character between single ones; a backslash takes the character behind it along, so that a quote
behind a backslash closes nothing. A **raw** text starts with `r` and any number of `#`; it ends at
a quote with as many of them behind it, and a backslash in it is a character like any. A letter in
front says that bytes are meant (`b`) or a text with a null at its end (`c`), and a name right
behind the literal belongs to it.

`afterLiteral?` finds the end of the literal that a text starts with; `literalText?` says what text
a written one stands for.
-/

namespace ArrayBridge.Text

/-- A text of which the opening quote has been read: what stands before the quote that closes it,
and what follows that. -/
def splitQuoted (quote : Char) : List Char → List Char × List Char
  | '\\' :: c :: rest =>
    let (body, after) := splitQuoted quote rest
    ('\\' :: c :: body, after)
  | c :: rest =>
    if c = quote then ([], rest)
    else
      let (body, after) := splitQuoted quote rest
      (c :: body, after)
  | [] => ([], [])

theorem length_splitQuoted_le (quote : Char) (cs : List Char) :
    (splitQuoted quote cs).2.length ≤ cs.length := by
  fun_induction splitQuoted quote cs <;> simp_all <;> omega

/-- A raw text of which the opening quote has been read. -/
def splitRawBody (marks : List Char) : List Char → List Char × List Char
  | [] => ([], [])
  | c :: rest =>
    if c = '"' ∧ marks.isPrefixOf rest then ([], rest.drop marks.length)
    else
      let (body, after) := splitRawBody marks rest
      (c :: body, after)

theorem length_splitRawBody_le (marks cs : List Char) :
    (splitRawBody marks cs).2.length ≤ cs.length := by
  fun_induction splitRawBody marks cs <;> simp_all <;> omega

/-- A raw text of which the letter has been read, if there is one. -/
def splitRaw? (cs : List Char) : Option (List Char × List Char) :=
  match cs.dropWhile (· = '#') with
  | '"' :: rest => some (splitRawBody (cs.takeWhile (· = '#')) rest)
  | _ => none

theorem length_lt_of_splitRaw? {cs : List Char} {parts : List Char × List Char}
    (h : splitRaw? cs = some parts) : parts.2.length < cs.length := by
  have bound := length_dropWhile_le (· = '#') cs
  rw [splitRaw?] at h
  split at h
  · next rest start =>
    rw [start] at bound
    have shorter := length_splitRawBody_le (cs.takeWhile (· = '#')) rest
    cases h
    simp only [List.length_cons] at bound
    omega
  · cases h

/-- What follows a character of which the opening quote has been read, if there is one. -/
def afterCharacter? : List Char → Option (List Char)
  | '\\' :: _ :: rest => some (splitQuoted '\'' rest).2
  | _ :: '\'' :: rest => some rest
  | _ => none

theorem length_lt_of_afterCharacter? {cs rest : List Char} (h : afterCharacter? cs = some rest) :
    rest.length < cs.length := by
  revert h
  fun_cases afterCharacter? cs <;> intro h
  · next body =>
    have bound := length_splitQuoted_le '\'' body
    cases h
    simp only [List.length_cons]
    omega
  · cases h
    simp only [List.length_cons]
    omega
  · cases h

/-- What follows the literal that a text starts with, without a name right behind it. -/
def afterQuotes? : List Char → Option (List Char)
  | '"' :: rest | 'b' :: '"' :: rest | 'c' :: '"' :: rest => some (splitQuoted '"' rest).2
  | 'r' :: rest | 'b' :: 'r' :: rest | 'c' :: 'r' :: rest => (splitRaw? rest).map (·.2)
  | '\'' :: rest | 'b' :: '\'' :: rest => afterCharacter? rest
  | _ => none

/-- What follows the literal that a text starts with, if it starts with one. -/
def afterLiteral? (cs : List Char) : Option (List Char) := (afterQuotes? cs).map afterName

theorem length_lt_of_afterQuotes? {cs rest : List Char} (h : afterQuotes? cs = some rest) :
    rest.length < cs.length := by
  revert h
  fun_cases afterQuotes? cs <;> intro h
  case case1 body | case2 body | case3 body =>
    have bound := length_splitQuoted_le '"' body
    cases h
    simp only [List.length_cons]
    omega
  case case4 body | case5 body | case6 body =>
    obtain ⟨parts, found, rfl⟩ := Option.map_eq_some_iff.1 h
    have bound := length_lt_of_splitRaw? found
    simp only [List.length_cons]
    omega
  case case7 body | case8 body =>
    have bound := length_lt_of_afterCharacter? h
    simp only [List.length_cons]
    omega
  case case9 => cases h

theorem length_lt_of_afterLiteral? {cs rest : List Char} (h : afterLiteral? cs = some rest) :
    rest.length < cs.length := by
  obtain ⟨after, found, rfl⟩ := Option.map_eq_some_iff.1 h
  exact Nat.lt_of_le_of_lt (length_afterName_le after) (length_lt_of_afterQuotes? found)

/-- The character that a letter behind a backslash stands for. -/
def escaped : Char → Char
  | 'n' => '\n'
  | 'r' => '\r'
  | 't' => '\t'
  | '0' => '\x00'
  | c => c

/-- The character whose number the digits spell; underscores between them do not count. -/
def numbered (digits : List Char) : Char :=
  Char.ofNat ((digits.filterMap hexDigit?).foldl (16 * · + ·) 0)

/-- What a backslash at the end of a line passes over. -/
def isLayout (c : Char) : Bool := c = ' ' ∨ c = '\t' ∨ c = '\n' ∨ c = '\r'

/-- The text that a body stands for. -/
def unescape : List Char → List Char
  | [] => []
  | '\\' :: 'x' :: high :: low :: rest => numbered [high, low] :: unescape rest
  | '\\' :: 'u' :: '\x7b' :: rest =>
    numbered (rest.takeWhile (· ≠ '\x7d')) :: unescape ((rest.dropWhile (· ≠ '\x7d')).drop 1)
  | '\\' :: c :: rest =>
    if c = '\n' ∨ c = '\r' then unescape (rest.dropWhile isLayout) else escaped c :: unescape rest
  | '\r' :: '\n' :: rest => '\n' :: unescape rest
  | c :: rest => c :: unescape rest
termination_by cs => cs.length
decreasing_by
  all_goals simp only [List.length_cons, List.length_drop]
  · omega
  · have bound := length_dropWhile_le (· ≠ '\x7d') rest
    omega
  · have bound := length_dropWhile_le isLayout rest
    omega
  · omega
  · omega
  · omega

/-- The text that a literal stands for, if it is a text. -/
def literalText? : List Char → Option String
  | '"' :: rest => some (String.ofList (unescape (splitQuoted '"' rest).1))
  | 'r' :: rest => (splitRaw? rest).map fun parts => String.ofList parts.1
  | _ => none

end ArrayBridge.Text
