import Interop.CType.Basic

/-!
# Interop.CType.Standard — the types that every C header shares.
-/

namespace Interop.CType

/-- `void` and the numbers under the names of the C standard headers. -/
def standard : List CType :=
  [nothing,
    scalar "bool" .boolean,
    scalar "char" .byte,
    scalar "int8_t" .byte,
    scalar "uint8_t" .byte,
    scalar "int16_t" .short,
    scalar "uint16_t" .short,
    scalar "int32_t" .int,
    scalar "uint32_t" .int,
    scalar "int64_t" .long,
    scalar "uint64_t" .long,
    scalar "long" .platformLong,
    scalar "size_t" .address,
    scalar "intptr_t" .address,
    scalar "float" .float,
    scalar "double" .double]

/-- The standard type of a name. -/
def standard? (name : String) : Option CType := standard.find? (·.name = name)

end Interop.CType
