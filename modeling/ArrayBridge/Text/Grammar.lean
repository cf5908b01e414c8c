import ArrayBridge.Text.Path

/-!
# The grammar of paths

Where a path has to stand, `afterPath?` reads it and gives what follows, or says what is wrong. The
first thing that does not fit is told.

**Arguments** of a name are types, lifetimes and constants. A type is a path, a group, or one of
these behind a sign or a word that says what is made of it; a sum of bounds can be a type. A name
among the arguments may be given a value (`Item = T`) or bounds (`Item: Bound`).

**Reading.** What stands at a place is decided by the first tree there. Expressions are the
constants in curly brackets and the lengths of arrays; only their start is looked at. The number
`fuel` bounds the steps, and `afterPath?` gives enough of it for every list.
-/

namespace ArrayBridge.Text

/-- What has to stand at a place. -/
inductive Expectation where
  | name
  | type
  /-- What a pointer says of its target. -/
  | pointee
  | function
  | parentheses
  /-- A group behind the name of a macro. -/
  | delimiter
  | expression
  | comma
  | plus
  | equals
  | closingAngle
  | openingAngle
  | separator
  /-- A text in quotes. -/
  | quoted
  /-- The key of an argument. -/
  | key
  /-- A name that goes on with a key. -/
  | keyName
deriving DecidableEq

def Expectation.text : Expectation → String
  | .name => "identifier"
  | .type =>
    "one of: `for`, parentheses, `fn`, `unsafe`, `extern`, identifier, `::`, `<`, `dyn`, " ++
      "square brackets, `*`, `&`, `!`, `impl`, `_`, lifetime"
  | .pointee => "`const` or `mut`"
  | .function => "`fn`"
  | .parentheses => "parentheses"
  | .delimiter => "delimiter"
  | .expression => "an expression"
  | .comma => "`,`"
  | .plus => "`+`"
  | .equals => "`=`"
  | .closingAngle => "`>`"
  | .openingAngle => "`<`"
  | .separator => "`::`"
  | .quoted => "string literal"
  | .key => "nested attribute"
  | .keyName => "ident"

/-- Why a list cannot be read. -/
inductive ReadError where
  /-- Something else stands where this should. -/
  | expected (what : Expectation)
  /-- The list ends where this should stand. -/
  | ended (what : Expectation)
  /-- The word stands where a name should, and cannot be one. -/
  | reserved (word : String)
  /-- Something is left over in a group. -/
  | leftOver (bracket : Bracket)
  | unsupportedExpression
  | literalForKey
  | signForKey
deriving DecidableEq

def ReadError.message : ReadError → String
  | .expected what => "expected " ++ what.text
  | .ended what => "unexpected end of input, expected " ++ what.text
  | .reserved word => "expected identifier, found keyword `" ++ word ++ "`"
  | .leftOver bracket => "unexpected token, expected `" ++ String.singleton bracket.closing ++ "`"
  | .unsupportedExpression => "unsupported expression; enable syn's features=[\"full\"]"
  | .literalForKey => "unexpected literal in nested attribute, expected ident"
  | .signForKey => "unexpected token in nested attribute, expected ident"

/-- Something is missing at the start of a list. -/
def missing (what : Expectation) : List Tree → Except ReadError α
  | [] => .error (.ended what)
  | _ :: _ => .error (.expected what)

/-! ## Parts without types -/

/-- What follows a constant without brackets, if there is one. -/
def afterConstant? : List Tree → Option (List Tree)
  | .token (.literal ..) :: rest | .token (.number _) :: rest
  | .sign '-' :: .token (.number _) :: rest | .word "true" :: rest | .word "false" :: rest =>
    some rest
  | _ => none

/-- Looks at the start of an expression. -/
def checkExpression : List Tree → Except ReadError Unit
  | [] => .error (.ended .expression)
  | .sign '&' :: .word "mut" :: rest => checkExpression rest
  | .sign c :: rest =>
    if c = '&' ∨ c = '*' ∨ c = '!' ∨ c = '-' then checkExpression rest
    else if c = '<' then .ok ()
    else .error .unsupportedExpression
  | .word word :: _ =>
    if word = "true" ∨ word = "false" ∨ !reservedWords.contains word then .ok ()
    else .error .unsupportedExpression
  | .group .square _ :: _ | .token (.lifetime _) :: _ | .token .arrow :: _ =>
    .error .unsupportedExpression
  | .group _ _ :: _ | .token _ :: _ => .ok ()

/-- What follows the lifetimes that a type is made for, of which the first word has been read. -/
def afterBinder : List Tree → Except ReadError (List Tree)
  | .group .angle _ :: rest => .ok rest
  | _ => .error (.expected .openingAngle)

/-- A function type without what stands before its first word. -/
def withoutQualifiers : List Tree → List Tree
  | .word "unsafe" :: .word "extern" :: .token (.literal ..) :: rest
  | .word "unsafe" :: .word "extern" :: rest | .word "unsafe" :: rest
  | .word "extern" :: .token (.literal ..) :: rest | .word "extern" :: rest => rest
  | ts => ts

/-- What follows the lifetime of a reference, and the word that lets its target change. -/
def afterReference : List Tree → List Tree
  | .token (.lifetime _) :: .word "mut" :: rest | .token (.lifetime _) :: rest
  | .word "mut" :: rest | rest => rest

/-- Whether a bound can start here. -/
def startsBound : List Tree → Bool
  | .word _ :: _ | .separator :: _ | .sign '?' :: _ | .token (.lifetime _) :: _
  | .group .round _ :: _ => true
  | _ => false

/-- Whether an optional bound starts here. -/
def startsOptional : List Tree → Bool
  | .sign '?' :: _ => true
  | _ => false

/-- Whether a function type starts with the word. -/
def isFunctionWord (word : String) : Bool := word = "fn" ∨ word = "unsafe" ∨ word = "extern"

/-- Whether a type, with what follows it, is one name and its arguments. -/
def isOneName (type rest : List Tree) : Bool :=
  match type with
  | .word name :: .separator :: .group .angle _ :: after
  | .word name :: .group .angle _ :: after
  | .word name :: after => !reservedWords.contains name && after.length = rest.length
  | _ => false

/-! ## Types and paths -/

/-- What follows the part that has been read, or what is wrong with it. -/
abbrev Reading := Except ReadError (List Tree)

mutual

/-- What follows a type. If `sum` holds, a sum of bounds is a type too. -/
def afterType : (fuel : Nat) → (sum : Bool) → List Tree → Reading
  | fuel + 1, sum, .group .round inner :: rest => do
    checkParentheses fuel inner
    if sum then afterSum fuel rest else .ok rest
  | fuel + 1, _, .group .square inner :: rest => do
    match ← afterType fuel true inner with
    | [] => .ok rest
    | .sign ';' :: length => do
      checkExpression length
      .ok rest
    | _ => .error (.leftOver .square)
  | fuel + 1, _, .sign '*' :: .word "const" :: rest
  | fuel + 1, _, .sign '*' :: .word "mut" :: rest => afterType fuel false rest
  | _, _, .sign '*' :: rest => missing .pointee rest
  | fuel + 1, _, .sign '&' :: rest => afterType fuel false (afterReference rest)
  | _, _, .sign '!' :: rest | _, _, .word "_" :: rest => .ok rest
  | fuel + 1, sum, .word "for" :: rest => do afterType fuel sum (← afterBinder rest)
  | fuel + 1, sum, .word "dyn" :: rest
  | fuel + 1, sum, .word "impl" :: rest => afterBounds fuel sum rest
  | fuel + 1, _, .token (.lifetime name) :: rest =>
    afterBounds fuel true (.token (.lifetime name) :: rest)
  | fuel + 1, _, .group .angle inner :: .separator :: rest => do
    checkSelf fuel inner
    afterCall fuel (← afterNames fuel rest)
  | fuel + 1, _, .group .angle inner :: _ => do
    checkSelf fuel inner
    .error (.expected .separator)
  | fuel + 1, sum, .separator :: rest => do afterPathType fuel sum (← afterNames fuel rest)
  | fuel + 1, sum, .word word :: rest =>
    if isFunctionWord word then afterFunction fuel (withoutQualifiers (.word word :: rest))
    else if reservedWords.contains word then .error (.expected .type)
    else do afterPathType fuel sum (← afterNames fuel (.word word :: rest))
  | _, _, ts => missing .type ts

/-- What follows a function type. -/
def afterFunction : Nat → List Tree → Reading
  | fuel + 1, .word "fn" :: .group .round _ :: rest => afterResult fuel rest
  | _, .word "fn" :: rest => missing .parentheses rest
  | _, ts => missing .function ts

/-- What follows the result of a function, if there is one. -/
def afterResult : Nat → List Tree → Reading
  | fuel + 1, .token .arrow :: rest => afterType fuel false rest
  | _, ts => .ok ts

/-- What follows a type that starts with a path, which has been read. -/
def afterPathType : Nat → Bool → List Tree → Reading
  | fuel + 1, sum, ts => do
    match ← afterCall fuel ts with
    | .sign '!' :: .group _ _ :: rest => .ok rest
    | .sign '!' :: rest => missing .delimiter rest
    | rest => if sum then afterSum fuel rest else .ok rest
  | _, _, ts => .ok ts

/-- What follows the parentheses behind a path and the result behind these, if there are any. -/
def afterCall : Nat → List Tree → Reading
  | fuel + 1, .group .round inner :: rest
  | fuel + 1, .separator :: .group .round inner :: rest => do
    checkTypes fuel inner
    afterResult fuel rest
  | _, ts => .ok ts

/-- Reads the type that a path starts inside of, and the path that it is taken as. -/
def checkSelf : Nat → List Tree → Except ReadError Unit
  | fuel + 1, inner => do
    match ← afterType fuel true (inner ++ [.sign '>']) with
    | .word "as" :: path =>
      match ← afterPath fuel path with
      | [.sign '>'] => .ok ()
      | _ => .error (.expected .closingAngle)
    | [.sign '>'] => .ok ()
    | _ => .error (.expected .closingAngle)
  | _, _ => .error (.expected .type)

/-- Reads types with commas between them. -/
def checkTypes : Nat → List Tree → Except ReadError Unit
  | _, [] => .ok ()
  | fuel + 1, ts => do
    match ← afterType fuel true ts with
    | [] => .ok ()
    | .sign ',' :: rest => checkTypes fuel rest
    | _ => .error (.expected .comma)
  | _, ts => missing .type ts

/-- Reads a type in parentheses, or a tuple of types. -/
def checkParentheses : Nat → List Tree → Except ReadError Unit
  | _, [] => .ok ()
  | fuel + 1, ts => do
    match ← if startsOptional ts then afterBound fuel ts else afterType fuel true ts with
    | [] => .ok ()
    | .sign ',' :: others => checkTypes fuel others
    | _ => .error (.leftOver .round)
  | _, ts => missing .type ts

/-- What follows the bounds that are added to a bound or a type. The last plus may stand alone. -/
def afterSum : Nat → List Tree → Reading
  | fuel + 1, .sign '+' :: rest =>
    if startsBound rest then do afterSum fuel (← afterBound fuel rest) else .ok rest
  | _, ts => .ok ts

/-- What follows a bound and, if `sum` holds, those that are added to it. -/
def afterBounds : Nat → (sum : Bool) → List Tree → Reading
  | fuel + 1, sum, ts => do
    let rest ← afterBound fuel ts
    if sum then afterSum fuel rest else .ok rest
  | _, _, ts => missing .name ts

/-- What follows a bound: a lifetime, or a trait that may stand in parentheses. -/
def afterBound : Nat → List Tree → Reading
  | _, .token (.lifetime _) :: rest => .ok rest
  | fuel + 1, .group .round inner :: rest => do
    match ← afterTrait fuel inner with
    | [] => .ok rest
    | _ => .error (.leftOver .round)
  | fuel + 1, ts => afterTrait fuel ts
  | _, ts => missing .name ts

/-- What follows a trait: a path, which may be optional, and may be made for lifetimes. -/
def afterTrait : Nat → List Tree → Reading
  | fuel + 1, .word "for" :: rest => do afterTrait fuel (← afterBinder rest)
  | fuel + 1, .sign '?' :: rest => afterTrait fuel rest
  | fuel + 1, ts => do afterCall fuel (← afterPath fuel ts)
  | _, ts => missing .name ts

/-- What follows a path. -/
def afterPath : Nat → List Tree → Reading
  | fuel + 1, .separator :: rest => afterNames fuel rest
  | fuel + 1, ts => afterNames fuel ts
  | _, ts => missing .name ts

/-- What follows names with separators between them. A separator before a group in parentheses is
no part of these. -/
def afterNames : Nat → List Tree → Reading
  | fuel + 1, .word word :: rest => do
    match ← afterOptionalArguments fuel word rest with
    | .separator :: .group .round inner :: others =>
      .ok (.separator :: .group .round inner :: others)
    | .separator :: others => afterNames fuel others
    | others => .ok others
  | _, ts => missing .name ts

/-- What follows a name that has been read, and its arguments, if it has any. A list of arguments
that does not end is read to the end, for what is wrong in it. -/
def afterOptionalArguments : Nat → (name : String) → List Tree → Reading
  | fuel + 1, name, rest =>
    if placeWords.contains name then .ok rest
    else if reservedWords.contains name then .error (.reserved name)
    else
      match rest with
      | .group .angle inner :: others | .separator :: .group .angle inner :: others => do
        checkArguments fuel (inner ++ [.sign '>'])
        .ok others
      | .sign '<' :: others | .separator :: .sign '<' :: others => do
        checkArguments fuel others
        .error (.expected .comma)
      | _ => .ok rest
  | _, _, rest => .ok rest

/-- Reads arguments and the bracket that closes them. -/
def checkArguments : Nat → List Tree → Except ReadError Unit
  | _, .sign '>' :: _ => .ok ()
  | fuel + 1, ts => do
    match ← afterArgument fuel ts with
    | .sign '>' :: _ => .ok ()
    | .sign ',' :: others => checkArguments fuel others
    | _ => .error (.expected .comma)
  | _, ts => missing .type ts

/-- What follows an argument. -/
def afterArgument : Nat → List Tree → Reading
  | fuel + 1, .token (.lifetime name) :: .sign '+' :: rest =>
    afterType fuel true (.token (.lifetime name) :: .sign '+' :: rest)
  | _, .token (.lifetime _) :: rest => .ok rest
  | fuel + 1, ts => do
    match ← afterValue fuel ts with
    | .sign '=' :: value =>
      if isOneName ts (.sign '=' :: value) then afterValue fuel value else .ok (.sign '=' :: value)
    | .sign ':' :: bounds =>
      if isOneName ts (.sign ':' :: bounds) then afterConstraint fuel bounds
      else .ok (.sign ':' :: bounds)
    | rest => .ok rest
  | _, ts => missing .type ts

/-- What follows a constant or a type. -/
def afterValue : Nat → List Tree → Reading
  | _, .group .curly inner :: rest => do
    checkExpression inner
    .ok rest
  | fuel + 1, ts =>
    match afterConstant? ts with
    | some rest => .ok rest
    | none => afterType fuel true ts
  | _, ts => missing .type ts

/-- What follows the bounds that a name is given. -/
def afterConstraint : Nat → List Tree → Reading
  | _, .sign ',' :: rest => .ok (.sign ',' :: rest)
  | _, .sign '>' :: rest => .ok (.sign '>' :: rest)
  | fuel + 1, ts => do
    match ← afterBound fuel ts with
    | .sign ',' :: rest => .ok (.sign ',' :: rest)
    | .sign '>' :: rest => .ok (.sign '>' :: rest)
    | .sign '+' :: rest => afterConstraint fuel rest
    | _ => .error (.expected .plus)
  | _, ts => missing .name ts

end

/-- What follows the path that a list starts with. No token takes more than eight steps. -/
def afterPath? (ts : List Tree) : Except ReadError (List Tree) :=
  afterPath (8 * sizeOfEach ts + 8) ts

end ArrayBridge.Text
