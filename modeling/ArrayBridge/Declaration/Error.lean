/-!
# Errors of declarations

Why a declaration is refused, and how that is told.
-/

namespace ArrayBridge

/-- Why a declaration is refused. -/
inductive DeclarationError where
  | genericParameters
  | unnamedFields
  | notAStruct
  | notATypedArray
  | unknownArgument (owner key : String)
  /-- The grammar does not allow what stands in an attribute, and says why. -/
  | unreadable (reason : String)
deriving DecidableEq

def DeclarationError.message : DeclarationError → String
  | .genericParameters => "#[derive(Class)] does not support generic types"
  | .unnamedFields => "#[derive(Class)] requires named fields"
  | .notAStruct => "#[derive(Class)] can only be used on structs"
  | .notATypedArray => "#[export] fields must be TypedArray<T>"
  | .unknownArgument owner key => "unknown " ++ owner ++ " attribute: " ++ key
  | .unreadable reason => reason

end ArrayBridge
