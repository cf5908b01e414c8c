import ArrayBridge.Declaration.Error
import ArrayBridge.Declaration.Item

/-!
# What is asked of a grammar

How tokens become paths, texts and arguments is not decided here. A `Grammar` is whatever decides
it, and a declaration is read by any grammar.

**What is relied on** (`Grammar.Conventional`). The arguments of an attribute are read in the
conventional way: each starts with a path, whoever asked for them takes what stands behind it, and
commas stand between them. Of a text or a path nothing is relied on but that what follows it is the
end of the tokens that were read.
-/

namespace ArrayBridge

/-- What takes an argument of an attribute: of the path that it starts with and the tokens behind
it, some are used, and the others are given back. -/
abbrev Taking (Path Token σ : Type) :=
  σ → Path → List Token → Except DeclarationError (σ × List Token)

/-- The grammar of a language, as far as attributes and types are concerned. -/
structure Grammar (Path Token TypeExpr : Type) where
  /-- The name of a path that is one name and nothing else. -/
  soleName? : Path → Option String
  /-- The names of a path, in order, without their arguments. -/
  names : Path → List String
  /-- A path as it is put into code. -/
  written : Path → String
  /-- The path that a type is, if it is one. -/
  typePath? : TypeExpr → Option Path
  /-- The path that an argument starts with, and what follows it. -/
  key : List Token → Except String (Path × List Token)
  /-- What follows the equals sign behind the key of an argument. -/
  value : List Token → Except String (List Token)
  /-- The text that a string literal stands for, and what follows the literal. -/
  text : List Token → Except String (String × List Token)
  /-- A path, and what follows it. -/
  path : List Token → Except String (Path × List Token)
  isComma : Token → Bool
  /-- Takes the arguments of an attribute, one after the other. -/
  arguments {σ : Type} : Attribute Path Token → Taking Path Token σ → σ → Except DeclarationError σ

namespace Grammar

variable {Path Token TypeExpr σ : Type} (g : Grammar Path Token TypeExpr)

/-- **Arguments in the conventional way**: a path and what is taken behind it, a comma between any
two, and maybe one behind the last. -/
inductive Takes (take : Taking Path Token σ) : σ → List Token → σ → Prop where
  | done (s : σ) : Takes take s [] s
  | last {s s' : σ} {path : Path} {ts rest : List Token} (key : g.key ts = .ok (path, rest))
    (taken : take s path rest = .ok (s', [])) : Takes take s ts s'
  | more {s s' s'' : σ} {path : Path} {comma : Token} {ts rest others : List Token}
    (key : g.key ts = .ok (path, rest)) (taken : take s path rest = .ok (s', comma :: others))
    (separated : g.isComma comma = true) (further : Takes take s' others s'') : Takes take s ts s''

/-- **What is relied on.** -/
structure Conventional : Prop where
  /-- Behind an equals sign stands the end of what was read. -/
  value_suffix {ts rest : List Token} : g.value ts = .ok rest → rest <:+ ts
  /-- And so behind a text. -/
  text_suffix {ts rest : List Token} {text : String} : g.text ts = .ok (text, rest) → rest <:+ ts
  /-- And so behind a path. -/
  path_suffix {ts rest : List Token} {path : Path} : g.path ts = .ok (path, rest) → rest <:+ ts
  /-- An attribute has arguments to take if it has a list of them, and they are taken in the
  conventional way. What takes them gives back the end of what it was given. -/
  arguments_iff {σ : Type} {a : Attribute Path Token} {take : Taking Path Token σ} {s s' : σ} :
    (∀ s path ts s' rest, take s path ts = .ok (s', rest) → rest <:+ ts) →
      (g.arguments a take s = .ok s' ↔ ∃ ts, a.form = .list ts ∧ g.Takes take s ts s')

end Grammar

end ArrayBridge
