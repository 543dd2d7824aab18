import Interop.CType.Basic
import Interop.Qualifier.Kind
import Interop.Qualifier.Scale

/-!
# Interop.Qualifier.Basic — what the kinds of qualifiers carry.

Each kind has a payload of its own type, and a qualifier is a kind with such a payload. Some
payloads mention other parameters of the same function by name; `references` lists them.
-/

namespace Interop

namespace Qualifier

/-! ## Payloads -/

/-- The address may be null; an optional parameter may be left out altogether. -/
structure Nullable where
  optional : Bool
  deriving DecidableEq, Repr

/-- The value is the length of the buffer `reference`; the buffers in `dependents` are at least as
long. -/
structure AutoSize where
  reference : String
  dependents : List String
  scale : Option Scale
  deriving DecidableEq, Repr

/-- The value has to pass the check `expression`, or passes it only when debugging. -/
structure Check where
  expression : String
  debugOnly : Bool
  deriving DecidableEq, Repr

/-- The buffer holds addresses of elements, and `length` names the parameter with their lengths. -/
structure PointerArray where
  element : CType
  length : Option String
  deriving DecidableEq, Repr

/-- The buffer carries the result; `length` names the parameter that receives its length and
`maxLength` is the expression for the space it needs. -/
structure ReturnCarrier where
  length : Option String
  maxLength : Option String
  deriving DecidableEq, Repr

/-- The buffer may be passed as one value, under the name `name`. -/
structure SingleValue where
  name : String
  deriving DecidableEq, Repr

/-- The buffer may be passed in any of the listed forms. -/
structure MultiType where
  forms : List Pointee
  deriving DecidableEq, Repr

/-- The value is computed from the expression `value`, and the parameter kept or left out. -/
structure Expression where
  value : String
  keepParameter : Bool
  deriving DecidableEq, Repr

/-- The names a length is tied to: the buffer it is the length of, then its dependents. -/
def AutoSize.names (a : AutoSize) : List String := a.reference :: a.dependents

/-- The length is tied to the parameter of that name. -/
def AutoSize.mentions (a : AutoSize) (name : String) : Bool := a.names.contains name

/-- What a qualifier of each kind carries. -/
abbrev Payload : Kind → Type
  | .const => Unit
  | .nullable => Nullable
  | .autoSize => AutoSize
  | .autoSizeResult => Unit
  | .check => Check
  | .pointerArray => PointerArray
  | .returnCarrier => ReturnCarrier
  | .singleValue => SingleValue
  | .multiType => MultiType
  | .expression => Expression

instance instDecidableEqPayload : (k : Kind) → DecidableEq (Payload k)
  | .const => inferInstanceAs (DecidableEq Unit)
  | .nullable => inferInstanceAs (DecidableEq Nullable)
  | .autoSize => inferInstanceAs (DecidableEq AutoSize)
  | .autoSizeResult => inferInstanceAs (DecidableEq Unit)
  | .check => inferInstanceAs (DecidableEq Check)
  | .pointerArray => inferInstanceAs (DecidableEq PointerArray)
  | .returnCarrier => inferInstanceAs (DecidableEq ReturnCarrier)
  | .singleValue => inferInstanceAs (DecidableEq SingleValue)
  | .multiType => inferInstanceAs (DecidableEq MultiType)
  | .expression => inferInstanceAs (DecidableEq Expression)

end Qualifier

/-! ## Qualifiers -/

/-- One fact about a parameter: a kind and what goes with it. -/
structure Qualifier where
  kind : Qualifier.Kind
  payload : Qualifier.Payload kind
  deriving DecidableEq

namespace Qualifier

/-- The payload, if the qualifier is of the kind asked for. -/
def payload? (q : Qualifier) (k : Kind) : Option (Payload k) :=
  if h : q.kind = k then some (h ▸ q.payload) else none

/-- The names of the parameters that the qualifier mentions. -/
def references : Qualifier → List String
  | ⟨.autoSize, a⟩ => a.names
  | ⟨.pointerArray, a⟩ => a.length.toList
  | ⟨.returnCarrier, r⟩ => r.length.toList
  | ⟨.const, _⟩ | ⟨.nullable, _⟩ | ⟨.autoSizeResult, _⟩ | ⟨.check, _⟩ | ⟨.singleValue, _⟩
  | ⟨.multiType, _⟩ | ⟨.expression, _⟩ => []

/-- A plain call cannot honour the qualifier. -/
def isSpecial (q : Qualifier) : Bool := q.kind.isSpecial

@[simp] theorem payload?_mk (k : Kind) (p : Payload k) : payload? ⟨k, p⟩ k = some p := by
  simp [payload?]

/-- A payload is found only in a qualifier made of it. -/
theorem payload?_eq_some_iff {q : Qualifier} {k : Kind} {p : Payload k} :
    q.payload? k = some p ↔ q = ⟨k, p⟩ := by
  constructor
  · intro h
    obtain ⟨l, p'⟩ := q
    by_cases hl : l = k
    · subst hl; simpa using h
    · simp [payload?, hl] at h
  · rintro rfl; simp

end Qualifier

end Interop
