import Interop.Value

/-!
# Interop.Result — what a function returns.
-/

namespace Interop

/-- The result of a function: its type, and whether it is declared `const`. -/
structure Result where
  type : CType
  isConst : Bool := false
  deriving DecidableEq

namespace Result

/-- The result of a function that returns nothing. -/
def nothing : Result := ⟨.nothing, false⟩

/-- Nothing is returned. -/
def isVoid (r : Result) : Bool := r.type.isVoid

/-- Two results are interchangeable when their types are equal; `const` does not count. -/
def sameType (r s : Result) : Bool := r.type == s.type

/-- The result as a value. It has no qualifiers. -/
def toValue (r : Result) : Value := ⟨r.type, .result, r.isConst, ∅⟩

end Result

end Interop
