import ArrayBridge.Text.Tree

/-!
# Paths

A path is names with separators between them, and maybe one in front. A name may have arguments in
angle brackets, once, and a separator may stand before these. The path of a type may also start
inside of another type, which is given in angle brackets.
-/

namespace ArrayBridge.Text

/-- The words that are no names. -/
def reservedWords : List String :=
  [ "_", "abstract", "as", "async", "await", "become", "box", "break", "const", "continue", "do",
    "dyn", "else", "enum", "extern", "false", "final", "fn", "for", "if", "impl", "in", "let",
    "loop", "macro", "match", "mod", "move", "mut", "override", "priv", "pub", "ref", "return",
    "static", "struct", "trait", "true", "try", "type", "typeof", "unsafe", "unsized", "use",
    "virtual", "where", "while", "yield" ]

/-- The words that stand for a place to start from. These have no arguments. -/
def placeWords : List String := ["crate", "self", "super"]

/-- Trees without arguments in angle brackets, and without the separators before these. -/
def withoutArguments : List Tree → List Tree
  | [] => []
  | .separator :: .group .angle _ :: rest => withoutArguments rest
  | .group .angle _ :: rest => withoutArguments rest
  | t :: rest => t :: withoutArguments rest

/-- The names that trees start with, with separators between them, and what follows. -/
def pathNames : List Tree → List String × List Tree
  | .word name :: .separator :: .word next :: rest =>
    let (names, after) := pathNames (.word next :: rest)
    (name :: names, after)
  | .word name :: rest => ([name], rest)
  | rest => ([], rest)

/-- The names of a path or of a type that may be one, and what follows. A separator may stand in
front. -/
def namesOf (ts : List Tree) : List String × List Tree :=
  match withoutArguments ts with
  | .separator :: rest => pathNames rest
  | all => pathNames all

/-- Whether a type is a path. Arguments in parentheses may follow the names, and a result behind
these; a sum of bounds is no path. -/
def isPath (type : List Tree) : Bool :=
  match namesOf type with
  | ([], _) => false
  | (_, []) => true
  | (_, .group .round _ :: rest) | (_, .separator :: .group .round _ :: rest) => !rest.any isPlus
  | _ => false
where
  isPlus : Tree → Bool
    | .sign '+' => true
    | _ => false

end ArrayBridge.Text
