import Interop.CType.Declaration
import Interop.Qualifier.Set

/-!
# Interop.Value — a value that crosses the boundary, as a parameter or as a result.

A value has a type, a role in its function, and qualifiers. From these follow whether it can be
passed straight through, and how it is written in the prototype: in full for the library itself,
or reduced to the type that carries it when a binding is written.
-/

namespace Interop

/-! ## Roles and bindings -/

/-- What a value is in its function. -/
inductive Role where
  | result
  | parameter
  /-- The parameter that hands in the environment of the host. -/
  | environment
  deriving DecidableEq, Repr

/-- The values that are handed in. -/
def Role.isParameter : Role → Bool
  | result => false
  | parameter | environment => true

/-- A binding: its name, and the integer type that addresses are passed as. -/
structure Binding where
  name : String
  addressType : String := "intptr_t"
  deriving DecidableEq, Repr

/-- The declaration of a type, a struct being written as a pointer to it if that is asked for. -/
def CType.declarationAs (t : CType) (structAsPointer : Bool) : String :=
  if structAsPointer && t.isStruct then addMarker t.name else t.declaration

/-- What carries a value of the type under a binding. -/
def Binding.carrier (b : Binding) (t : CType) : String :=
  if t.crossing.isAddressSized then b.addressType else t.carrier

/-! ## Values -/

/-- A type together with what its place in a function says of it. -/
structure Value where
  type : CType
  role : Role
  isConst : Bool
  qualifiers : QualifierSet
  deriving DecidableEq

namespace Value

/-- The host has to reach into memory for the value: behind a pointer that is no handle, into a
callback, or into a struct. -/
def isUnsafe (v : Value) : Bool :=
  (v.type.isPointer && (!v.type.isHandle || v.type.isCallback)) || v.type.isStruct

/-- An address of a buffer whose bounds can be checked: no handle, and no pointer to a struct. -/
def isBuffer (v : Value) : Bool :=
  v.type.isPointer && !v.type.isHandle && !(v.type.element?.any CType.isStruct)

/-- A struct passed by value. -/
def isStruct (v : Value) : Bool := v.type.isStruct

/-- What the type and the role alone demand of a parameter: a handle has to be unwrapped unless it
is the environment or a bare address that may be null, and a wide boolean has to be converted. -/
def needsConversion (v : Value) : Bool :=
  match v.type.crossing with
  | .pointer .handle =>
    (v.type.isObject || !v.qualifiers.has .nullable) && v.role != .environment
  | .scalar .wideBoolean => true
  | _ => false

/-- The value cannot be passed straight through. -/
def isSpecial (v : Value) : Bool :=
  (v.isUnsafe && !v.type.isArray) || v.qualifiers.isSpecial
    || (v.role.isParameter && v.needsConversion)

/-! ## The text of a value in a prototype -/

/-- The value is written in full even under a binding. -/
def keepsType (v : Value) : Bool := v.role == .environment || v.isStruct

/-- The type of the value as it is written. Under a binding it is the type that carries the value,
unless the value keeps its own. -/
def typeText (v : Value) (binding : Option Binding) (structAsPointer : Bool) : String :=
  match binding with
  | some b => if v.keepsType then v.type.declarationAs structAsPointer else b.carrier v.type
  | none => v.type.declarationAs structAsPointer

/-- The qualifier `const` is written for every const value, save for results under a binding,
where it would mean nothing. -/
def writesConst (v : Value) (binding : Option Binding) : Bool :=
  v.isConst && (binding.isNone || v.role.isParameter)

/-- The value as it is written in a prototype. -/
def render (v : Value) (binding : Option Binding) (structAsPointer : Bool) : String :=
  (if v.writesConst binding then "const " else "") ++ v.typeText binding structAsPointer

/-! ## Laws -/

/-- A declaration that asks for nothing special is the plain one. -/
@[simp] theorem declarationAs_false (t : CType) : t.declarationAs false = t.declaration := rfl

/-- An address is carried by the integer type of the binding. -/
theorem carrier_of_isPointer (b : Binding) {t : CType} (h : t.isPointer = true) :
    b.carrier t = b.addressType := by
  obtain ⟨p, hp⟩ := CType.isPointer_iff.mp h
  simp [Binding.carrier, hp, Crossing.isAddressSized]

end Value

end Interop
