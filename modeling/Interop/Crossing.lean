/-!
# Interop.Crossing — how a value crosses the boundary between host and native code.

A native value crosses as nothing, as a scalar, as an address or as a struct. `Scalar` fixes the
width and the C type of a number, `Pointee` says what the host finds behind an address, and
`Crossing` is the choice between the four.
-/

namespace Interop

/-! ## What an address leads to -/

/-- What the host finds behind an address: a handle it must not look into, raw bytes, or a buffer
of addresses or of numbers of one type. -/
inductive Pointee where
  | handle
  | raw
  | address
  | byte
  | short
  | int
  | long
  | float
  | double
  | boolean
  deriving DecidableEq, Repr

/-! ## Numbers -/

/-- The numbers that cross by value. `boolean` is one byte wide and `wideBoolean` four;
`platformLong` and `address` have the width of the platform's `long` and of its addresses. -/
inductive Scalar where
  | boolean
  | wideBoolean
  | byte
  | short
  | int
  | long
  | platformLong
  | address
  | float
  | double
  deriving DecidableEq, Repr

namespace Scalar

/-- The C type that carries the number. -/
def carrier : Scalar → String
  | boolean => "uint8_t"
  | wideBoolean => "int32_t"
  | byte => "int8_t"
  | short => "int16_t"
  | int => "int32_t"
  | long => "int64_t"
  | platformLong => "long"
  | address => "intptr_t"
  | float => "float"
  | double => "double"

/-- The width in bytes, where it is the same on every platform. -/
def byteSize? : Scalar → Option Nat
  | boolean | byte => some 1
  | short => some 2
  | wideBoolean | int | float => some 4
  | long | double => some 8
  | platformLong | address => none

/-- The buffer that holds numbers of this type; a number of the platform's width is reached as an
address. -/
def buffer : Scalar → Pointee
  | boolean => .boolean
  | byte => .byte
  | short => .short
  | wideBoolean | int => .int
  | long => .long
  | float => .float
  | double => .double
  | platformLong | address => .address

end Scalar

namespace Pointee

/-- Everything but a handle is data; this is the order in which the data forms are listed. -/
def dataForms : List Pointee :=
  [raw, address, byte, short, int, long, float, double, boolean]

/-- The word for the form in messages and in the names of overloads. -/
def name : Pointee → String
  | handle => "opaque"
  | raw => "data"
  | address => "pointer"
  | byte => "byte"
  | short => "short"
  | int => "int"
  | long => "long"
  | float => "float"
  | double => "double"
  | boolean => "boolean"

/-- A buffer that the host can pass as an array of numbers wider than a byte. -/
def isArray : Pointee → Bool
  | short | int | long | float | double => true
  | handle | raw | address | byte | boolean => false

/-- The power of two that takes a count of elements to a count of bytes; unknown for addresses,
whose width depends on the platform. -/
def shift? : Pointee → Option Nat
  | handle | raw | byte | boolean => some 0
  | short => some 1
  | int | float => some 2
  | long | double => some 3
  | address => none

/-- The number that one element is, if the elements have a type. -/
def scalar? : Pointee → Option Scalar
  | handle | raw => none
  | address => some .address
  | byte => some .byte
  | short => some .short
  | int => some .int
  | long => some .long
  | float => some .float
  | double => some .double
  | boolean => some .boolean

/-- Different forms have different words. -/
theorem name_inj : ∀ p q : Pointee, p.name = q.name → p = q := by
  intro p q; cases p <;> cases q <;> simp [name]

/-- A form is listed exactly when it is data. -/
theorem mem_dataForms {p : Pointee} : p ∈ dataForms ↔ p ≠ handle := by
  cases p <;> decide

end Pointee

/-! ## The crossing -/

/-- How a value crosses: not at all, as a number, as an address, or as a struct by value. -/
inductive Crossing where
  | void
  | scalar (scalar : Scalar)
  | pointer (target : Pointee)
  | struct
  deriving DecidableEq, Repr

namespace Crossing

def isVoid : Crossing → Bool
  | void => true
  | _ => false

/-- An address of a buffer that the host can pass as an array. -/
def isArray : Crossing → Bool
  | pointer target => target.isArray
  | _ => false

/-- An address that the host must not look behind. -/
def isHandle : Crossing → Bool
  | pointer .handle => true
  | _ => false

/-- A value as wide as an address. -/
def isAddressSized : Crossing → Bool
  | pointer _ => true
  | scalar .address => true
  | _ => false

end Crossing

end Interop
