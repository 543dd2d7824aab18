import Interop.Doc
import Interop.Value

/-!
# Interop.Parameter — the parameters of a function.

A parameter is known by its name; it has a type, a direction, qualifiers and perhaps a
documentation. The edits below each change one thing and leave the rest alone.
-/

namespace Interop

open Qualifier (Kind KindSet Payload)

/-! ## Directions -/

/-- Which way data flows through a parameter. -/
inductive Direction where
  | input
  | output
  | both
  deriving DecidableEq, Repr

namespace Direction

def text : Direction → String
  | input => "in"
  | output => "out"
  | both => "inout"

/-- Data flows into the function. -/
def isInput : Direction → Bool
  | input | both => true
  | output => false

/-- Data flows out of the function. -/
def isOutput : Direction → Bool
  | output | both => true
  | input => false

end Direction

/-! ## Parameters -/

/-- A parameter of a function. -/
structure Parameter where
  name : String
  type : CType
  direction : Direction := .input
  /-- The parameter hands in the environment of the host. -/
  isEnvironment : Bool := false
  qualifiers : QualifierSet := ∅
  doc : Option String := none
  deriving DecidableEq

namespace Parameter

/-- The parameter that hands in the environment of the host, an input. -/
def environment (name : String) (type : CType) : Parameter :=
  { name, type, isEnvironment := true }

def role (p : Parameter) : Role := if p.isEnvironment then .environment else .parameter

/-- The parameter as a value. It is const when a qualifier says so. -/
def toValue (p : Parameter) : Value := ⟨p.type, p.role, p.qualifiers.has .const, p.qualifiers⟩

/-- The address may be null. -/
def isNullable (p : Parameter) : Bool := p.qualifiers.has .nullable

/-- The address may be null, and the parameter left out. -/
def isOptional (p : Parameter) : Bool := (p.qualifiers.get? .nullable).any (·.optional)

/-- An output whose length is worked out for the caller. -/
def isSizedResult (p : Parameter) : Bool :=
  p.direction == .output && p.qualifiers.has .autoSizeResult

/-- The caller passes an array for the parameter. In a function with `sizedResults` outputs of
worked-out length, an only one is returned instead. -/
def isArray (p : Parameter) (sizedResults : Nat) : Bool :=
  p.type.crossing.isArray && !(p.isSizedResult && sizedResults == 1)

/-- Two parameters go by the same name. -/
def sameName (p q : Parameter) : Bool := p.name == q.name

/-! ## Edits -/

/-- The parameter with other qualifiers. -/
def withQualifiers (p : Parameter) (qs : QualifierSet) : Parameter := { p with qualifiers := qs }

/-- The parameter with `q` instead of any qualifier of its kind. -/
def add (p : Parameter) (q : Qualifier) : Parameter := p.withQualifiers (p.qualifiers.insert q)

/-- The parameter without the qualifier of the kind. -/
def remove (p : Parameter) (k : Kind) : Parameter := p.withQualifiers (p.qualifiers.erase k)

/-- A removal together with the qualifier it took out. -/
def extract (p : Parameter) (k : Kind) : Option Qualifier × Parameter :=
  let (q, qs) := p.qualifiers.extract k
  (q, p.withQualifiers qs)

/-- The parameter with the payload of a kind changed, if it has one. -/
def modify (p : Parameter) (k : Kind) (f : Payload k → Payload k) : Parameter :=
  p.withQualifiers (p.qualifiers.modify k f)

/-- The parameter with another scale for the length it stands for. -/
def setScale (p : Parameter) (s : Qualifier.Scale) : Parameter :=
  p.modify .autoSize fun a => { a with scale := some s }

/-- The parameter as one that is no buffer in several forms any more: it loses the qualifiers that
describe how a buffer is passed. If it could be left out among several forms, it may not be null
either, since a concrete form requires the buffer. -/
def dropArrayKinds (p : Parameter) : Parameter :=
  let qs := if p.isOptional && p.qualifiers.has .multiType then p.qualifiers.erase .nullable
    else p.qualifiers
  p.withQualifiers (qs.eraseAll .arrayKinds)

/-- The parameter with another type and name. -/
def retype (p : Parameter) (type : CType) (name : String) : Parameter :=
  { p with type := type, name := name }

/-- The parameter with another type, name and direction. -/
def retypeAs (p : Parameter) (type : CType) (name : String) (direction : Direction) : Parameter :=
  { p.retype type name with direction := direction }

/-- The parameter with this documentation. -/
def withDoc (p : Parameter) (doc : Option String) : Parameter := { p with doc := doc }

/-- The parameter documented by a text and links, or not at all if both are empty. -/
def document (p : Parameter) (mode : LinkMode) (text links : String) : Parameter :=
  p.withDoc (Doc.withLinks mode text links)

/-! ## Frozen parameters -/

/-- A parameter that is ready for use. It is read like any other, but has no edits of its own. -/
structure Frozen where
  parameter : Parameter
  deriving DecidableEq

def freeze (p : Parameter) : Frozen := ⟨p⟩

/-- A copy of a frozen parameter that can be edited again. -/
def Frozen.thaw (f : Frozen) : Parameter := f.parameter

/-- Freezing changes nothing in a parameter. -/
@[simp] theorem thaw_freeze (p : Parameter) : p.freeze.thaw = p := rfl

@[simp] theorem freeze_thaw (f : Frozen) : f.thaw.freeze = f := rfl

@[simp] theorem map_thaw_map_freeze (ps : List Parameter) :
    (ps.map freeze).map Frozen.thaw = ps := by
  simp [Function.comp_def]

@[simp] theorem map_freeze_map_thaw (fs : List Frozen) :
    (fs.map Frozen.thaw).map freeze = fs := by
  simp [Function.comp_def]

theorem Frozen.thaw_inj {f g : Frozen} : f.thaw = g.thaw ↔ f = g := by
  cases f
  cases g
  simp [thaw]

end Parameter

end Interop
