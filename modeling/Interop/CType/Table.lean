import Interop.CType.Fingerprint
import Interop.CType.Standard

/-!
# Interop.CType.Table — the declared types of a library.

A table finds a type by its fingerprint and by its declaration. A type whose fingerprint or whose
declaration is already taken is refused, so that neither index ever changes an answer it has given.
Registering is a program that reads a table and writes it in two places; that a refused type leaves
the table as it was is a matter of where it stops.
-/

namespace Interop

/-- The types declared so far: each under its fingerprint, and each fingerprint under the
declaration of its type. -/
structure TypeTable where
  types : List (Fingerprint × CType)
  names : List (String × Fingerprint)
  deriving DecidableEq, Repr

namespace TypeTable

/-! ## Faults -/

/-- Why a table refuses a type, or has none to give. -/
inductive Fault where
  /-- The declaration, or the fingerprint that goes with it, is taken. -/
  | taken (declaration : String)
  /-- No type is declared like that. -/
  | unknown (declaration : String)
  deriving DecidableEq, Repr

/-- The message of a fault. -/
def Fault.message : Fault → String
  | taken d => "native type '" ++ d ++ "' is already registered"
  | unknown d => "unknown native type '" ++ d ++ "'"

/-! ## Reading -/

/-- The table without types. -/
def empty : TypeTable := ⟨[], []⟩

def size (t : TypeTable) : Nat := t.types.length

def isEmpty (t : TypeTable) : Bool := t.types.isEmpty

/-- The type of a fingerprint. -/
def get? (t : TypeTable) (f : Fingerprint) : Option CType := t.types.lookup f

/-- The type of a declaration. -/
def find? (t : TypeTable) (declaration : String) : Option CType :=
  (t.names.lookup declaration).bind t.get?

/-- Some type is declared like that. -/
def declares (t : TypeTable) (declaration : String) : Bool :=
  (t.names.lookup declaration).isSome

/-- The type of a declaration, or the fault that there is none. -/
def resolve (t : TypeTable) (declaration : String) : Except Fault CType :=
  match t.find? declaration with
  | some type => .ok type
  | none => .error (.unknown declaration)

/-- The types in the order of their fingerprints. -/
def toList (t : TypeTable) : List (Fingerprint × CType) :=
  t.types.mergeSort fun a b => a.1.bits ≤ b.1.bits

/-! ## Declaring -/

/-- The entries with a value under the key, in place of any that was there. -/
def assign {α β : Type} [DecidableEq α] (entries : List (α × β)) (key : α) (value : β) :
    List (α × β) :=
  (key, value) :: entries.filter (·.1 ≠ key)

/-- The table with one more type, whatever was there under its fingerprint or its declaration. -/
def put (t : TypeTable) (type : CType) : TypeTable :=
  ⟨assign t.types type.fingerprint type, assign t.names type.declaration type.fingerprint⟩

/-- An attempt to register a type. Both of its keys are looked up, and if they are free, the two
indexes are written one after the other. The attempt leaves a table behind whatever it comes to. -/
def attempt (type : CType) : EStateM Fault TypeTable Fingerprint := do
  let t ← get
  if (t.get? type.fingerprint).isSome || t.declares type.declaration then
    throw (.taken type.declaration)
  modify fun t => { t with names := assign t.names type.declaration type.fingerprint }
  modify fun t => { t with types := assign t.types type.fingerprint type }
  return type.fingerprint

/-- The table that an attempt leaves behind, be it answered or refused. -/
def insert (t : TypeTable) (type : CType) : TypeTable :=
  match (attempt type).run t with
  | .ok _ t' => t'
  | .error _ t' => t'

/-- The answer to an attempt: the fingerprint the type is found under and the table left behind, or
the fault. -/
def register (t : TypeTable) (type : CType) : Except Fault (Fingerprint × TypeTable) :=
  match (attempt type).run t with
  | .ok f t' => .ok (f, t')
  | .error e _ => .error e

/-- The table of the standard types, put in one after the other. -/
def standard : TypeTable := CType.standard.foldl put empty

end TypeTable

end Interop
