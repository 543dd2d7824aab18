import Interop.CType.Declaration
import Interop.Digest.Xxh64
import Interop.Text.Hex

/-!
# Interop.CType.Fingerprint — the 64-bit identity of a type.

A fingerprint is computed from the name of a type, so it does not depend on the order in which
types are met. The fingerprint of a pointer that has no name of its own is computed from that of
its element.
-/

namespace Interop

/-! ## Fingerprints -/

/-- A 64-bit identity. -/
structure Fingerprint where
  bits : UInt64
  deriving DecidableEq, Repr

namespace Fingerprint

/-- The constant that keeps the fingerprints of types apart from other digests of the same text. -/
def domain : UInt64 := 0x2fac10b63a6cc57c

/-- The odd factor of the step from a type to the pointer to it. -/
def pointerFactor : UInt64 := 0x7d3c8b4a92e15f6d

/-- The fingerprint that stands for no type. -/
def empty : Fingerprint := ⟨0⟩

def isEmpty (f : Fingerprint) : Bool := f.bits == 0

/-- The fingerprint of a name. -/
def ofName (name : String) : Fingerprint :=
  ⟨domain ^^^ Digest.Xxh64.digest 0 name.toUTF8.data.toList⟩

/-- The fingerprint of the unnamed pointer to a type with this fingerprint. -/
def pointerTo (f : Fingerprint) : Fingerprint :=
  ⟨Digest.rotl f.bits 7 * pointerFactor ^^^ domain⟩

/-- The written form: sixteen hexadecimal digits behind `0x`. -/
def text (f : Fingerprint) : String :=
  "0x" ++ String.ofList (Text.Hex.fixed 16 f.bits.toNat)

end Fingerprint

/-! ## The fingerprint of a type -/

namespace CType

/-- A pointer without a name of its own is identified by its element, an array by its spelling and
every other type by its name. -/
def fingerprint : CType → Fingerprint
  | pointer _ e _ false => e.fingerprint.pointerTo
  | t@(array ..) => .ofName t.spelling
  | t => .ofName t.name

/-- A pointer made from a type is identified by the step from that type. -/
@[simp] theorem fingerprint_pointerAs (t : CType) (p : Pointee) :
    (t.pointerAs p).fingerprint = t.fingerprint.pointerTo := rfl

/-- Changing what is behind an address leaves the identity alone. -/
theorem fingerprint_retarget? {t u : CType} {p : Pointee} (h : t.retarget? p = some u) :
    u.fingerprint = t.fingerprint := by
  cases t with
  | pointer n e q c => cases h; cases c <;> rfl
  | array n e q size => cases h; rfl
  | _ => cases h

end CType

end Interop
