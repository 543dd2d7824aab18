import Interop.Overload
import Interop.Signature.Prototype

/-!
# Interop.Generation — from signatures to the functions that are generated.

Each signature is expanded to its overloads and each overload is frozen. One overload that cannot be
frozen fails its function; one function that fails does not keep the others from being looked at,
so that all faults are reported together.
-/

namespace Interop

/-- What to generate, and for which binding. -/
structure Options where
  binding : Option Binding := none
  /-- Expand signatures to their overloads. -/
  expand : Bool := true
  /-- Refuse qualifiers that mention parameters that are not there. -/
  checkReferences : Bool := true
  /-- Keep the overload that is not specialised. -/
  keepGeneric : Bool := true
  deriving DecidableEq, Repr

/-- A function that is generated: which overload it is, and its prototype. -/
structure Generated where
  variant : Variant
  prototype : Prototype
  deriving DecidableEq

namespace Generation

/-- Why a function cannot be generated. -/
inductive Fault where
  /-- An overload cannot be frozen. -/
  | signature (fault : Signature.Fault)
  /-- No overload is left to generate. -/
  | noVariants (function : String)
  deriving DecidableEq, Repr

/-- The message of a fault. -/
def Fault.message : Fault → String
  | signature fault => fault.message
  | noVariants function => function ++ ": no variants to generate"

/-- What a run has collected so far. -/
structure Progress where
  generated : List Generated := []
  faults : List Fault := []
  deriving DecidableEq

/-- What a run comes to: its functions, or its faults if it has any. -/
def Progress.outcome (p : Progress) : Except (List Fault) (List Generated) :=
  if p.faults.isEmpty then .ok p.generated else .error p.faults

end Generation

namespace Options

/-- The overloads of a signature that are wanted. -/
def wanted (o : Options) (s : Signature) : List Overload :=
  let all := if o.expand then s.overloads else [⟨.generic, s⟩]
  if o.keepGeneric then all else all.filter (!·.variant.isGeneric)

/-- One overload, frozen. -/
def generateOverload (o : Options) (v : Overload) : Except Generation.Fault Generated :=
  match v.signature.freeze o.checkReferences with
  | .ok f => .ok ⟨v.variant, f⟩
  | .error e => .error (.signature e)

/-- The functions generated for one signature, or the fault of the first overload that has one. -/
def generate (o : Options) (s : Signature) : Except Generation.Fault (List Generated) :=
  match o.wanted s with
  | [] => .error (.noVariants s.name)
  | vs => vs.mapM o.generateOverload

/-- A run one signature further. A fault is noted and does not end the run. -/
def step (o : Options) (p : Generation.Progress) (s : Signature) : Generation.Progress :=
  match o.generate s with
  | .ok gs => { p with generated := p.generated ++ gs }
  | .error e => { p with faults := p.faults ++ [e] }

/-- The functions generated for all signatures in order, or the faults of all signatures that have
one. -/
def generateAll (o : Options) (ss : List Signature) :
    Except (List Generation.Fault) (List Generated) :=
  (ss.foldl o.step {}).outcome

/-- The declaration of a generated function for the binding of the options. -/
def declaration (o : Options) (f : Prototype) : String := f.declaration o.binding

end Options

end Interop
