import ArrayBridge.Declaration
import ArrayBridge.Text.Grammar
import ArrayBridge.Text.Quoted

/-!
# Declarations as text

A grammar by which declarations that are given as text are read when the program is run. Paths,
types and the tokens in attributes are trees of tokens.

What is written counts by its tokens: blanks and comments between them make no difference. Of
expressions, of what is said of functions, and of the lifetimes that something is made for, only as
much is looked at as tells where they end. Nothing that is said of declarations depends on that:
it is said of all grammars.
-/

namespace ArrayBridge.Written

open Text

/-! ## The grammar -/

/-- A path without its end, which is what follows it. -/
def pathBefore (ts after : List Tree) : List Tree := ts.take (ts.length - after.length)

/-- What follows the names that go on with a key. -/
def afterKeyNames : List Tree → Except ReadError (List Tree)
  | .separator :: .word _ :: rest => afterKeyNames rest
  | .separator :: rest => missing .keyName rest
  | rest => .ok rest

/-- What follows the key that an argument starts with. -/
def afterKey : List Tree → Except ReadError (List Tree)
  | .word _ :: rest | .separator :: .word _ :: rest => afterKeyNames rest
  | [.separator] => .error (.ended .key)
  | .separator :: rest | rest =>
    .error (if (afterConstant? rest).isSome then .literalForKey else .signForKey)

/-- What follows the equals sign behind a key. -/
def afterEquals : List Tree → Except ReadError (List Tree)
  | .sign '=' :: rest => .ok rest
  | _ => .error (.expected .equals)

/-- The text that a literal stands for, and what follows. -/
def readText : List Tree → Except ReadError (String × List Tree)
  | .token (.literal _ (some value)) :: rest => .ok (value, rest)
  | ts => missing .quoted ts

/-- What was read, with the reason told if it was not. -/
def told {α : Type} (reading : Except ReadError α) : Except String α :=
  reading.mapError ReadError.message

/-- A path of which it was read where it ends. -/
def pathUpTo (ts : List Tree) (reading : Except ReadError (List Tree)) :
    Except String (List Tree × List Tree) :=
  told (reading.map fun after => (pathBefore ts after, after))

/-- The name of a path that is one name and nothing else. -/
def soleName? : List Tree → Option String
  | [.word name] => some name
  | _ => none

/-- Takes arguments up to the end. Behind each but the last stands a comma, so there are no more
arguments than tokens, and as much `fuel` is enough. -/
def takeArguments {σ : Type} (take : Taking (List Tree) Tree σ) :
    (fuel : Nat) → σ → List Tree → Except DeclarationError σ
  | _, s, [] => .ok s
  | 0, _, _ => .error (.unreadable (ReadError.expected .comma).message)
  | fuel + 1, s, ts => do
    let (path, rest) ← Grammar.readable (pathUpTo ts (afterKey ts))
    match ← take s path rest with
    | (s', []) => .ok s'
    | (s', .sign ',' :: others) => takeArguments take fuel s' others
    | _ => .error (.unreadable (ReadError.expected .comma).message)

/-- Why an attribute has no arguments to take. -/
def noArguments (path : List Tree) : AttributeForm Tree → String
  | .value => "expected parentheses: #[" ++ String.join (textOfEach path) ++ "(...)]"
  | _ => "expected attribute arguments in parentheses: #[" ++ String.join (textOfEach path) ++
    "(...)]"

/-- The grammar of trees of tokens. -/
def grammar : Grammar (List Tree) Tree (List Tree) where
  soleName? := soleName?
  names path := (namesOf path).1
  written path := String.join (textOfEach path)
  typePath? type := if isPath type then some type else none
  key ts := pathUpTo ts (afterKey ts)
  value ts := told (afterEquals ts)
  text ts := told (readText ts)
  path ts := pathUpTo ts (afterPath? ts)
  isComma := Tree.isComma
  arguments a take s :=
    match a.form with
    | .list ts => takeArguments take ts.length s ts
    | form => .error (.unreadable (noArguments a.path form))

/-! ## What is written -/

/-- What stands behind the key of an argument. -/
inductive ArgumentForm where
  | bare
  /-- A key and a text, `key = "text"`. -/
  | text (value : String)
  /-- A key and something else, `key = value`, as it is written. -/
  | written (value : String)
  /-- A key and a group, `key(...)`. -/
  | parenthesized

/-- An argument of an attribute. -/
structure Argument where
  key : String
  form : ArgumentForm

/-- What stands behind the path of an attribute. -/
inductive Form where
  | bare
  /-- A path and a text, `#[path = "text"]`. -/
  | value (text : String)
  /-- A path and its arguments, `#[path(argument, ...)]`. -/
  | list (arguments : List Argument)

/-- An attribute. -/
structure Attribute where
  path : String
  form : Form

/-- The type of a field. -/
inductive TypeExpr where
  | path (path : String) (arguments : List TypeExpr)
  | reference (target : TypeExpr)
  | slice (element : TypeExpr)
  | tuple (parts : List TypeExpr)

structure Field where
  name : String
  type : TypeExpr
  attributes : List Attribute

inductive Shape where
  | named (fields : List Field)
  | unit
  | tuple
  | enumeration
  | union

/-- A declaration. The text `generics` stands behind the name. -/
structure Item where
  name : String
  generics : String
  attributes : List Attribute
  shape : Shape

/-! ## What is read of it -/

/-- The tokens of an argument. -/
def Argument.tokens (a : Argument) : List Token :=
  Text.tokens a.key.toList ++
    match a.form with
    | .bare => []
    | .text value => [.sign '=', .literal (Text.quote value) (some value)]
    | .written value => .sign '=' :: Text.tokens value.toList
    | .parenthesized => [.sign '(', .sign ')']

mutual

/-- The tokens of a type. -/
def TypeExpr.tokens : TypeExpr → List Token
  | .path written [] => Text.tokens written.toList
  | .path written (first :: others) =>
    Text.tokens written.toList ++
      .sign '<' :: (first.tokens ++ TypeExpr.furtherTokens others ++ [.sign '>'])
  | .reference target => .sign '&' :: .lifetime "'static" :: target.tokens
  | .slice element => .sign '[' :: (element.tokens ++ [.sign ']'])
  | .tuple [] => [.sign '(', .sign ')']
  | .tuple (first :: others) =>
    .sign '(' :: (first.tokens ++ TypeExpr.furtherTokens others ++ [.sign ')'])

/-- The tokens of types behind another, with a comma before each. -/
def TypeExpr.furtherTokens : List TypeExpr → List Token
  | [] => []
  | type :: others => .sign ',' :: (type.tokens ++ TypeExpr.furtherTokens others)

end

/-- A name as it is declared. It is the last token; what may stand before it, like `pub`, is no part
of it. -/
def declaredName (written : String) : String :=
  match (Text.tokens written.toList).getLast? with
  | some (.name name) => name
  | _ => written

/-- The generic parameters in the text behind a name: what stands between angle brackets, if
anything does. -/
def parameters (generics : String) : List String :=
  match Text.tokens generics.toList with
  | .sign '<' :: first :: _ => if first = .sign '>' then [] else [generics]
  | _ => []

def Attribute.parsed (a : Attribute) : ArrayBridge.Attribute (List Tree) Tree where
  path := trees (Text.tokens a.path.toList)
  form := match a.form with
    | .bare => .bare
    | .value _ => .value
    | .list arguments => .list (trees ([.sign ','].intercalate (arguments.map Argument.tokens)))

def Field.parsed (field : Field) : FieldDecl (List Tree) Tree (List Tree) where
  name := declaredName field.name
  type := trees field.type.tokens
  attributes := field.attributes.map Attribute.parsed

def Shape.parsed : Shape → ItemShape (List Tree) Tree (List Tree)
  | .named fields => .named (fields.map Field.parsed)
  | .unit => .unit
  | .tuple => .tuple
  | .enumeration => .enumeration
  | .union => .union

def Item.parsed (item : Item) : ArrayBridge.Item (List Tree) Tree (List Tree) where
  name := declaredName item.name
  parameters := parameters item.generics
  attributes := item.attributes.map Attribute.parsed
  shape := item.shape.parsed

/-- Reads a declaration that is given as text. -/
def Item.declare (item : Item) : Except DeclarationError ClassDeclaration :=
  grammar.declare item.parsed

end ArrayBridge.Written
