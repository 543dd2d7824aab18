import Interop.Parameter
import Interop.Result

/-!
# Interop.Signature.Basic — a function under construction.

A signature lists the parameters of a function in order. Nothing keeps two of them from having the
same name, nor a qualifier from mentioning a parameter that is not there; both are checked when
the signature is frozen.
-/

namespace Interop

/-- A function: its name, its result, its parameters in order and its documentation. -/
structure Signature where
  name : String
  result : Result := .nothing
  params : List Parameter := []
  doc : Option String := none
  deriving DecidableEq

namespace Signature

/-! ## Reading -/

/-- The names of the parameters, in order. -/
def names (s : Signature) : List String := s.params.map Parameter.name

/-- The first parameter of a name. -/
def find? (s : Signature) (name : String) : Option Parameter := s.params.find? (·.name = name)

/-- How many outputs have a length that is worked out for the caller. -/
def sizedResults (s : Signature) : Nat := s.params.countP Parameter.isSizedResult

/-- The caller passes an array for the parameter. -/
def takesArray (s : Signature) (p : Parameter) : Bool := p.isArray s.sizedResults

/-- For which parameters the caller passes an array. -/
def arrays (s : Signature) : List Bool := s.params.map s.takesArray

/-- The result or some parameter cannot be passed straight through. -/
def isSpecial (s : Signature) : Bool :=
  s.result.toValue.isSpecial || s.params.any (·.toValue.isSpecial)

/-! ## Edits -/

/-- The signature with other parameters. -/
def withParams (s : Signature) (ps : List Parameter) : Signature := { s with params := ps }

/-- The signature with one more parameter at the end. -/
def push (s : Signature) (p : Parameter) : Signature := s.withParams (s.params ++ [p])

/-- The signature with `p` at place `i`, if there is such a place. -/
def set (s : Signature) (i : Nat) (p : Parameter) : Signature := s.withParams (s.params.set i p)

/-- A replacement together with the parameter it displaced. -/
def exchange (s : Signature) (i : Nat) (p : Parameter) : Option Parameter × Signature :=
  (s.params[i]?, s.set i p)

/-- The signature with every parameter edited. -/
def mapParams (s : Signature) (f : Parameter → Parameter) : Signature :=
  s.withParams (s.params.map f)

/-- The signature with the first parameter of a name edited, if there is one. -/
def modifyNamed (s : Signature) (name : String) (f : Parameter → Parameter) : Signature :=
  match s.params.findIdx? (·.name = name) with
  | some i => s.withParams (s.params.modify i f)
  | none => s

end Signature

end Interop
