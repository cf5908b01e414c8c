import ArrayBridge.Declaration.Grammar

/-!
# Attributes of declarations

What the `class` attributes of an item and the `export` attributes of a field say. Of several values
for a key the last one counts.
-/

namespace ArrayBridge

variable {Path Token TypeExpr : Type}

/-- What `class` attributes say so far. -/
structure ClassSettings (Path : Type) where
  name : Option String
  base : Option Path

/-- What `export` attributes say so far: whether there is one, and the name of the property. -/
structure ExportSettings where
  exported : Bool
  name : Option String

namespace Grammar

variable (g : Grammar Path Token TypeExpr)

/-- Whether a path is the name and nothing else. -/
def isName (path : Path) (name : String) : Bool := g.soleName? path == some name

/-- The attributes of the name. -/
def named (name : String) (attributes : List (Attribute Path Token)) :
    List (Attribute Path Token) := attributes.filter fun a => g.isName a.path name

/-- Tells why something cannot be read. -/
def readable {α : Type} (reading : Except String α) : Except DeclarationError α :=
  reading.mapError .unreadable

/-- The text behind the key of an argument, and what follows. -/
def textValue (ts : List Token) : Except DeclarationError (String × List Token) := do
  readable (g.text (← readable (g.value ts)))

/-- The path behind the key of an argument, and what follows. -/
def pathValue (ts : List Token) : Except DeclarationError (Path × List Token) := do
  readable (g.path (← readable (g.value ts)))

/-- An argument that the attributes of the owner do not have. -/
def unknownArgument {α : Type} (owner : String) (path : Path) : Except DeclarationError α :=
  .error (.unknownArgument owner ((g.soleName? path).getD ""))

/-- What one argument of a `class` attribute adds. -/
def takeClassArgument : Taking Path Token (ClassSettings Path) := fun settings path ts =>
  if g.isName path "name" then do
    let (text, rest) ← g.textValue ts
    .ok ({ settings with name := some text }, rest)
  else if g.isName path "base" then do
    let (base, rest) ← g.pathValue ts
    .ok ({ settings with base := some base }, rest)
  else g.unknownArgument "class" path

/-- What all `class` attributes say. -/
def classSettings (attributes : List (Attribute Path Token)) :
    Except DeclarationError (ClassSettings Path) :=
  (g.named "class" attributes).foldlM
    (fun settings a => g.arguments a g.takeClassArgument settings) ⟨none, none⟩

/-- What one argument of an `export` attribute adds. -/
def takeExportArgument : Taking Path Token ExportSettings := fun settings path ts =>
  if g.isName path "name" then do
    let (text, rest) ← g.textValue ts
    .ok ({ settings with name := some text }, rest)
  else g.unknownArgument "export" path

/-- What one `export` attribute says. Without arguments it stands for itself. -/
def takeExport (settings : ExportSettings) (a : Attribute Path Token) :
    Except DeclarationError ExportSettings :=
  match a.form with
  | .bare => .ok { settings with exported := true }
  | _ => g.arguments a g.takeExportArgument { settings with exported := true }

/-- What all `export` attributes say. -/
def exportSettings (attributes : List (Attribute Path Token)) :
    Except DeclarationError ExportSettings :=
  (g.named "export" attributes).foldlM g.takeExport ⟨false, none⟩

end Grammar

end ArrayBridge
