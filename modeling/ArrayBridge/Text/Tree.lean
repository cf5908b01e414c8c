import ArrayBridge.Text.Token

/-!
# Trees of tokens

Tokens with their brackets matched. Round, square and curly brackets always form a group. Angle
brackets are also signs of their own: an opening one forms a group only with a closing one inside of
the same group, so that `{ 2 > 1 }` and `[T; A < B]` hold no group in angle brackets.
-/

namespace ArrayBridge.Text

inductive Bracket where
  | round
  | square
  | curly
  | angle
deriving DecidableEq

namespace Bracket

def opening : Bracket → Char
  | .round => '('
  | .square => '['
  | .curly => '\x7b'
  | .angle => '<'

def closing : Bracket → Char
  | .round => ')'
  | .square => ']'
  | .curly => '\x7d'
  | .angle => '>'

def all : List Bracket := [.round, .square, .curly, .angle]

/-- The bracket that a token opens. -/
def opened? : Token → Option Bracket
  | .sign c => all.find? fun b => b.opening = c
  | _ => none

/-- The bracket that a token closes. -/
def closed? : Token → Option Bracket
  | .sign c => all.find? fun b => b.closing = c
  | _ => none

end Bracket

inductive Tree where
  | token (t : Token)
  | group (bracket : Bracket) (inner : List Tree)

namespace Tree

@[match_pattern] abbrev sign (c : Char) : Tree := .token (.sign c)

@[match_pattern] abbrev word (text : String) : Tree := .token (.name text)

@[match_pattern] abbrev separator : Tree := .token .separator

end Tree

/-! ## Matching brackets -/

/-- A bracket that is open, and what stands behind it so far. -/
structure OpenGroup where
  bracket : Bracket
  inner : List Tree

/-- What has been read: the trees outside of all brackets, and the brackets that are open, the
innermost first. -/
structure Matching where
  outside : List Tree
  groups : List OpenGroup

namespace Matching

/-- Puts trees behind what has been read. -/
def add (ts : List Tree) : Matching → Matching
  | ⟨outside, []⟩ => ⟨outside ++ ts, []⟩
  | ⟨outside, g :: groups⟩ => ⟨outside, ⟨g.bracket, g.inner ++ ts⟩ :: groups⟩

/-- The angle brackets that are open inside of the innermost other bracket become signs; `behind`
stands behind them. -/
def spreadAngles (outside behind : List Tree) : List OpenGroup → Matching
  | ⟨.angle, inner⟩ :: groups => spreadAngles outside (.sign '<' :: (inner ++ behind)) groups
  | groups => add behind ⟨outside, groups⟩

/-- Closes a bracket, if the innermost one is of its kind. -/
def close (b : Bracket) (m : Matching) : Matching :=
  match m.groups with
  | ⟨bracket, inner⟩ :: groups =>
    if bracket = b then add [.group b inner] ⟨m.outside, groups⟩ else add [.sign b.closing] m
  | [] => add [.sign b.closing] m

/-- Reads one more token. -/
def step (m : Matching) (t : Token) : Matching :=
  match Bracket.opened? t, Bracket.closed? t with
  | some b, _ => ⟨m.outside, ⟨b, []⟩ :: m.groups⟩
  | none, some .angle => close .angle m
  | none, some b => close b (spreadAngles m.outside [] m.groups)
  | none, none => add [.token t] m

/-- The trees, if the text ends here. A bracket that is still open is a sign. -/
def finish (m : Matching) : List Tree :=
  m.outside ++ m.groups.reverse.flatMap fun g => .sign g.bracket.opening :: g.inner

end Matching

/-- The trees of tokens. -/
def trees (ts : List Token) : List Tree := (ts.foldl Matching.step ⟨[], []⟩).finish

mutual

/-- How many tokens a tree has. -/
def Tree.size : Tree → Nat
  | .token _ => 1
  | .group _ inner => sizeOfEach inner + 2

/-- How many tokens trees have. -/
def sizeOfEach : List Tree → Nat
  | [] => 0
  | t :: ts => t.size + sizeOfEach ts

end

/-! ## Showing -/

/-- Parts of a list that commas end, each with the comma behind it. -/
def partsByCommas (isComma : α → Bool) : List α → List (List α)
  | [] => [[]]
  | a :: rest =>
    if isComma a then [a] :: partsByCommas isComma rest
    else
      match partsByCommas isComma rest with
      | part :: parts => (a :: part) :: parts
      | [] => [[a]]

def Tree.isComma : Tree → Bool
  | .sign ',' => true
  | _ => false

/-- Whether trees are a lifetime, as an argument. -/
def isLifetime : List Tree → Bool
  | .token (.lifetime _) :: .sign '+' :: _ => false
  | .token (.lifetime _) :: _ => true
  | _ => false

/-- The order in which arguments are shown. The lifetimes come first, a comma stands between any
two, and the last one keeps its own. Each tree comes with its text. -/
def shownArguments (inner : List (Tree × String)) : List String :=
  let written := (partsByCommas (·.1.isComma) inner).filter (!·.isEmpty)
  let (lifetimes, others) := written.partition fun part => isLifetime (part.map (·.1))
  let ordered := lifetimes ++ others
  let texts (part : List (Tree × String)) := (part.filter (!·.1.isComma)).map (·.2)
  (ordered.dropLast.flatMap fun part => texts part ++ [","]) ++
    (ordered.getLast?.getD []).map (·.2)

mutual

/-- A tree without blanks. The lifetimes in angle brackets come first. -/
def Tree.text : Tree → String
  | .token t => t.text
  | .group bracket inner =>
    let texts := textOfEach inner
    let shown := if bracket = .angle then shownArguments (inner.zip texts) else texts
    String.singleton bracket.opening ++ String.join shown ++ String.singleton bracket.closing

/-- The text of each tree. -/
def textOfEach : List Tree → List String
  | [] => []
  | t :: ts => t.text :: textOfEach ts

end

end ArrayBridge.Text
