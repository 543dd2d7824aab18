import Interop.Crossing

/-!
# Interop.CType.Basic — the types of a native library.

A type has the name under which a C header declares it and one of seven forms. A pointer or an
array keeps the type of its element, so the chain from a type to what it finally leads to can be
walked. A pointer form is *complete* when its name is a typedef that already stands for the
pointer; otherwise a declaration has to write the pointer marker behind the name.
-/

namespace Interop

/-! ## The seven forms -/

/-- A native type. -/
inductive CType where
  /-- No value. -/
  | void (name : String)
  /-- A number passed by value. -/
  | scalar (name : String) (scalar : Scalar)
  /-- An address of elements. -/
  | pointer (name : String) (element : CType) (target : Pointee) (complete : Bool)
  /-- A fixed number of elements, passed by the address of the first. -/
  | array (name : String) (element : CType) (target : Pointee) (size : UInt64)
  /-- A pointer to a function. -/
  | callback (name : String) (complete : Bool)
  /-- A handle that the host wraps in a class of its own. -/
  | object (name : String) (complete : Bool)
  /-- A struct passed by value. -/
  | struct (name : String)
  deriving DecidableEq, Repr

namespace CType

/-! ## Reading a type -/

/-- The name under which the type is declared. -/
def name : CType → String
  | void n => n
  | scalar n _ => n
  | pointer n _ _ _ => n
  | array n _ _ _ => n
  | callback n _ => n
  | object n _ => n
  | struct n => n

/-- What a pointer or an array leads to. -/
def element? : CType → Option CType
  | pointer _ e _ _ => some e
  | array _ e _ _ => some e
  | _ => none

/-- The type, its element, the element of that, and so on to a type without an element. -/
def chain : CType → List CType
  | t@(pointer _ e _ _) => t :: e.chain
  | t@(array _ e _ _) => t :: e.chain
  | t => [t]

/-- How a value of the type crosses the boundary. Function pointers and objects cross as handles. -/
def crossing : CType → Crossing
  | void _ => .void
  | scalar _ s => .scalar s
  | pointer _ _ p _ => .pointer p
  | array _ _ p _ => .pointer p
  | callback _ _ => .pointer .handle
  | object _ _ => .pointer .handle
  | struct _ => .struct

/-- A value of the type crosses as an address. -/
def isPointer : CType → Bool
  | pointer .. | array .. | callback .. | object .. => true
  | void _ | scalar .. | struct _ => false

def isVoid : CType → Bool
  | void _ => true
  | _ => false

def isArray : CType → Bool
  | array .. => true
  | _ => false

def isCallback : CType → Bool
  | callback .. => true
  | _ => false

def isObject : CType → Bool
  | object .. => true
  | _ => false

def isStruct : CType → Bool
  | struct _ => true
  | _ => false

/-- An address that the host must not look behind. -/
def isHandle (t : CType) : Bool := t.crossing.isHandle

/-- The name alone declares the pointer. Forms that are no pointers have nothing to complete, and
an array always takes the marker. -/
def isComplete : CType → Bool
  | pointer _ _ _ c => c
  | callback _ c => c
  | object _ c => c
  | void _ | scalar .. | array .. | struct _ => false

/-- The buffer that holds values of the type: numbers go to the buffer of their type, addresses to
a buffer of addresses, and what has no fixed width to raw bytes. -/
def buffer : CType → Pointee
  | void _ | struct _ => .raw
  | scalar _ s => s.buffer
  | pointer .. | array .. | callback .. | object .. => .address

/-! ## The plain types -/

/-- The type of a function without a result. -/
def nothing : CType := void "void"

/-- A handle known by a typedef, with nothing said of what is behind it. -/
def handle (name : String) : CType := pointer name nothing .handle true

/-- A handle declared as a pointer to a struct of the given name. -/
def handleTo (name : String) : CType := pointer name (struct name) .handle false

/-- A function pointer known by a typedef. -/
def functionPointer (name : String) : CType := callback name true

/-! ## Laws -/

/-- The pointers are exactly the types that cross as an address. -/
theorem isPointer_iff {t : CType} : t.isPointer = true ↔ ∃ p, t.crossing = .pointer p := by
  cases t <;> simp [isPointer, crossing]

/-- A type crosses as nothing exactly when it is void. -/
theorem crossing_eq_void_iff {t : CType} : t.crossing = .void ↔ t.isVoid = true := by
  cases t <;> simp [isVoid, crossing]

/-- A type crosses as a struct exactly when it is one. -/
theorem crossing_eq_struct_iff {t : CType} : t.crossing = .struct ↔ t.isStruct = true := by
  cases t <;> simp [isStruct, crossing]

end CType

end Interop
