import Interop.Signature.Basic

/-!
# Interop.Overload — the overloads of a function.

A function with a buffer that may be passed in several forms, or as one value, stands for several
functions. The generic one takes the buffer as it is declared; each other one fixes the form of one
parameter and brings the lengths that are tied to it into line.
-/

namespace Interop

/-! ## Variants -/

/-- Which overload of a function it is. -/
inductive Variant where
  /-- The function as declared. -/
  | generic
  /-- The parameter is a buffer of the given form. -/
  | multiType (parameter : String) (form : Pointee)
  /-- The parameter is one value. -/
  | singleValue (parameter : String)
  deriving DecidableEq, Repr

namespace Variant

def isGeneric : Variant → Bool
  | generic => true
  | multiType .. | singleValue _ => false

/-- The name of the variant for a reader. -/
def text : Variant → String
  | generic => "generic"
  | multiType parameter form => "multi-type(" ++ parameter ++ ": " ++ form.name ++ ")"
  | singleValue parameter => "single-value(" ++ parameter ++ ")"

end Variant

/-- One overload: which it is, and its signature. -/
structure Overload where
  variant : Variant
  signature : Signature
  deriving DecidableEq

/-! ## What happens to a parameter -/

namespace Parameter

/-- The forms a buffer may be passed in. -/
def forms (p : Parameter) : List Pointee :=
  ((p.qualifiers.get? .multiType).map (·.forms)).getD []

/-- The buffer in one form, under its own name. Only pointers and arrays have forms. -/
def inForm? (p : Parameter) (form : Pointee) : Option Parameter :=
  (p.type.retarget? form).map fun t => (p.retype t p.name).dropArrayKinds

/-- What the buffer becomes as one value: an input of the type of its element, under the name meant
for it. A handle has no value behind it. -/
def asValue? (p : Parameter) : Option Parameter :=
  match p.qualifiers.get? .singleValue, p.type.element? with
  | some single, some element =>
    if p.type.isHandle then none
    else some (((p.retypeAs element single.name .input).dropArrayKinds).remove .nullable)
  | _, _ => none

/-- If the parameter is the length of the buffer and has no scale of its own, it is shifted. -/
def scaleLength (p : Parameter) (buffer : String) (shift : Nat) : Parameter :=
  p.modify .autoSize fun a =>
    if a.reference = buffer ∧ a.scale = none then { a with scale := some (.shiftLeft shift) } else a

/-- If the parameter is a length tied to the buffer, it becomes the constant one. -/
def fixLength (p : Parameter) (buffer : String) : Parameter :=
  match p.qualifiers.get? .autoSize with
  | some a =>
    if a.mentions buffer then (p.remove .autoSize).add ⟨.expression, ⟨"1", false⟩⟩ else p
  | none => p

end Parameter

/-! ## The overloads -/

namespace Signature

/-- The signature with the buffer `old` at place `i` in one form, `new`. The lengths of the buffer
count its elements, so they are shifted where the elements have a fixed width above one byte. -/
def withForm (s : Signature) (i : Nat) (old new : Parameter) (form : Pointee) : Signature :=
  match form.shift? with
  | some (shift + 1) => (s.set i new).mapParams (·.scaleLength old.name (shift + 1))
  | some 0 | none => s.set i new

/-- The signature with the buffer `old` at place `i` as one value, `new`. The lengths tied to the
buffer become one. -/
def withValue (s : Signature) (i : Nat) (old new : Parameter) : Signature :=
  (s.set i new).mapParams (·.fixLength old.name)

/-- The overload for one form of the parameter at place `i`. -/
def formOverload? (s : Signature) (i : Nat) (p : Parameter) (form : Pointee) : Option Overload :=
  (p.inForm? form).map fun q => ⟨.multiType p.name form, s.withForm i p q form⟩

/-- The overload for one value of the parameter at place `i`. -/
def valueOverload? (s : Signature) (i : Nat) (p : Parameter) : Option Overload :=
  p.asValue?.map fun q => ⟨.singleValue p.name, s.withValue i p q⟩

/-- The overloads that the parameter at place `i` gives rise to: its forms in the order of their
list, then the single value. -/
def overloadsOf (s : Signature) (i : Nat) (p : Parameter) : List Overload :=
  p.forms.filterMap (s.formOverload? i p) ++ (s.valueOverload? i p).toList

/-- The overloads other than the generic one, parameter by parameter. -/
def concreteOverloads (s : Signature) : List Overload :=
  s.params.zipIdx.flatMap fun (p, i) => s.overloadsOf i p

/-- All overloads, the generic one first. -/
def overloads (s : Signature) : List Overload := ⟨.generic, s⟩ :: s.concreteOverloads

end Signature

end Interop
