import ArrayBridge.Text.Literal

/-!
# Tokens

The tokens of a declaration as it is written: names, numbers, literals, lifetimes, and the signs
between them. Blanks and comments part tokens and are otherwise passed over; a block comment may
hold others. A comment that documents what stands behind it is none of these: it is an attribute.

**Names** are as long as they can be. One that starts with `r#` is raw: it is a name even if the
rest of it is a word with a meaning of its own, and it keeps its start.
-/

namespace ArrayBridge.Text

inductive Token where
  | name (text : String)
  | number (text : String)
  /-- A text or a character in quotes, as it is written, and the text that it stands for, if it is
  a text. -/
  | literal (text : String) (value : Option String)
  /-- A name behind a single quote. -/
  | lifetime (text : String)
  /-- Two colons with nothing between them. -/
  | separator
  /-- An arrow, which closes no bracket. -/
  | arrow
  | sign (c : Char)
deriving DecidableEq

/-- A token as it is written. -/
def Token.text : Token → String
  | .name text | .number text | .literal text _ | .lifetime text => text
  | .separator => "::"
  | .arrow => "->"
  | .sign c => String.singleton c

/-- Whether a comment documents what stands behind it: it opens with an exclamation mark, or with
`mark` once more and only once. -/
def documents (mark : Char) : List Char → Bool
  | '!' :: _ => true
  | c :: rest => c = mark ∧ rest.head? ≠ some mark ∧ rest.head? ≠ some '/'
  | [] => false

/-- What a comment counts as: one that documents is the start of an attribute. -/
def commentTokens (mark : Char) (rest : List Char) : List Token :=
  if documents mark rest then [.sign '#'] else []

/-- What follows a block comment, of which the start has been read; `depth` counts the comments
open around it. -/
def afterComment : (depth : Nat) → List Char → List Char
  | depth, '/' :: '*' :: rest => afterComment (depth + 1) rest
  | 0, '*' :: '/' :: rest => rest
  | depth + 1, '*' :: '/' :: rest => afterComment depth rest
  | depth, _ :: rest => afterComment depth rest
  | _, [] => []

theorem length_afterComment_le (depth : Nat) (cs : List Char) :
    (afterComment depth cs).length ≤ cs.length := by
  fun_induction afterComment depth cs <;> simp only [List.length_cons, List.length_nil] <;> omega

/-- What follows a numeral from its exponent on. A sign belongs to the exponent if a digit follows,
and a name right behind the numeral belongs to it. -/
def afterExponent : List Char → List Char
  | e :: sign :: digit :: rest =>
    if (e = 'e' ∨ e = 'E') ∧ (sign = '+' ∨ sign = '-') ∧ digit.isDigit then
      rest.dropWhile continuesName
    else (e :: sign :: digit :: rest).dropWhile continuesName
  | rest => rest.dropWhile continuesName

/-- What follows a numeral, of which the first digit has been read. A point belongs to it unless
another point or a name follows. -/
def afterNumeral (cs : List Char) : List Char :=
  let isPart (c : Char) : Bool := c.isDigit || c == '_'
  match cs.dropWhile isPart with
  | '.' :: rest =>
    if rest.head?.any fun c => c == '.' || startsName c then '.' :: rest
    else afterExponent (rest.dropWhile isPart)
  | rest => afterExponent rest

theorem length_afterExponent_le (cs : List Char) : (afterExponent cs).length ≤ cs.length := by
  fun_cases afterExponent cs
  · next rest _ =>
    have bound := length_dropWhile_le continuesName rest
    simp only [List.length_cons]
    omega
  · exact length_dropWhile_le _ _
  · exact length_dropWhile_le _ _

theorem length_afterNumeral_le (cs : List Char) : (afterNumeral cs).length ≤ cs.length := by
  have bound := length_dropWhile_le (fun c => c.isDigit || c == '_') cs
  rw [afterNumeral]
  split
  · next rest start =>
    rw [start] at bound
    split
    · exact bound
    · have fraction := length_dropWhile_le (fun c => c.isDigit || c == '_') rest
      have rest := length_afterExponent_le (rest.dropWhile fun c => c.isDigit || c == '_')
      simp only [List.length_cons] at bound
      omega
  · exact Nat.le_trans (length_afterExponent_le _) bound

/-- What is no longer than the rest is shorter than the rest with characters before it. -/
theorem shorter {n m : Nat} (h : n ≤ m) (k : Nat) : n < m + k + 1 := by omega

/-- What stands in a text before its end `after`. -/
def before (cs after : List Char) : List Char := cs.take (cs.length - after.length)

/-- The tokens of a text, in order. -/
def tokens : List Char → List Token
  | [] => []
  | '/' :: '/' :: rest => commentTokens '/' rest ++ tokens (rest.dropWhile (· ≠ '\n'))
  | '/' :: '*' :: rest => commentTokens '*' rest ++ tokens (afterComment 0 rest)
  | ':' :: ':' :: rest => .separator :: tokens rest
  | '-' :: '>' :: rest => .arrow :: tokens rest
  | c :: rest =>
    match found : afterLiteral? (c :: rest) with
    | some after =>
      have := length_lt_of_afterLiteral? found
      let written := before (c :: rest) after
      .literal (String.ofList written) (literalText? written) :: tokens after
    | none =>
      let word := rest.takeWhile continuesName
      let after := rest.dropWhile continuesName
      if isBlank c then tokens rest
      else if c = 'r' ∧ rest.head? = some '#' then
        .name (String.ofList ('r' :: '#' :: (rest.drop 1).takeWhile continuesName)) ::
          tokens ((rest.drop 1).dropWhile continuesName)
      else if startsName c then .name (String.ofList (c :: word)) :: tokens after
      else if c.isDigit then
        .number (String.ofList (before (c :: rest) (afterNumeral rest))) ::
          tokens (afterNumeral rest)
      else if c = '\'' then .lifetime (String.ofList (c :: word)) :: tokens after
      else .sign c :: tokens rest
termination_by cs => cs.length
decreasing_by
  · exact shorter (length_dropWhile_le _ rest) 1
  · exact shorter (length_afterComment_le 0 rest) 1
  · exact shorter (Nat.le_refl _) 1
  · exact shorter (Nat.le_refl _) 1
  · assumption
  · exact shorter (Nat.le_refl _) 0
  · exact shorter (Nat.le_trans (length_dropWhile_le _ _) (List.length_drop ▸ Nat.sub_le ..)) 0
  · exact shorter (length_dropWhile_le _ rest) 0
  · exact shorter (length_afterNumeral_le rest) 0
  · exact shorter (length_dropWhile_le _ rest) 0
  · exact shorter (Nat.le_refl _) 0

end ArrayBridge.Text
