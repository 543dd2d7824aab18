import Interop.CType.Basic

/-!
# Interop.CType.Declaration — how a type is written in C.

The declaration of a type is its name, with a pointer marker behind it when the name does not
already stand for the pointer. Types derived from others take their names from these declarations,
so a pointer to `a` is named `a`, declared `a *`, and a pointer to that is named `a *` and declared
`a **`.
-/

namespace Interop

namespace CType

/-! ## The pointer marker -/

/-- The text with one more pointer marker. The first marker is set off by a space and further ones
follow it directly. -/
def addMarker (text : String) : String :=
  if text.toList.getLast? = some '*' then text ++ "*" else text ++ " *"

/-- A marked text ends in the marker. -/
theorem getLast?_addMarker (text : String) : (addMarker text).toList.getLast? = some '*' := by
  unfold addMarker; split <;> simp

/-! ## Declarations -/

/-- The type as it stands in front of a declared name. -/
def declaration (t : CType) : String :=
  if t.isPointer && !t.isComplete then addMarker t.name else t.name

/-- The type as it is shown to a reader: an array shows its size, everything else its
declaration. -/
def spelling : CType → String
  | array n _ _ size => n ++ "[" ++ toString size.toNat ++ "]"
  | t => t.declaration

/-- The C type that carries a value of this type across the boundary. -/
def carrier : CType → String
  | void _ => "void"
  | scalar _ s => s.carrier
  | pointer .. | array .. | callback .. | object .. => "intptr_t"
  | struct n => n

/-! ## Derived types -/

/-- A pointer to `t` that crosses as `target`. -/
def pointerAs (t : CType) (target : Pointee) : CType := pointer t.declaration t target false

/-- A pointer to `t`, crossing as the buffer that holds values of `t`. -/
def pointerTo (t : CType) : CType := t.pointerAs t.buffer

/-- A typedef that stands for a pointer to `t`. -/
def typedefPointer (name : String) (t : CType) (target : Pointee) : CType :=
  pointer name t target true

/-- An array of `size` elements of type `t`, which keeps the name of its element. -/
def arrayOf (t : CType) (size : UInt64) : CType := array t.name t t.buffer size

/-- The same pointer or array, crossing as `target`. -/
def retarget? (t : CType) (target : Pointee) : Option CType :=
  match t with
  | pointer n e _ c => some (pointer n e target c)
  | array n e _ size => some (array n e target size)
  | _ => none

/-! ## Laws -/

@[simp] theorem declaration_pointerAs (t : CType) (p : Pointee) :
    (t.pointerAs p).declaration = addMarker t.declaration := rfl

/-- **Changing the target keeps the text.** The declaration shows nothing of what the host finds
behind the address. -/
theorem declaration_retarget? {t u : CType} {p : Pointee} (h : t.retarget? p = some u) :
    u.declaration = t.declaration := by
  cases t <;> cases h <;> rfl

/-- Changing the target changes how the value crosses, and to what was asked for. -/
theorem crossing_retarget? {t u : CType} {p : Pointee} (h : t.retarget? p = some u) :
    u.crossing = .pointer p := by
  cases t <;> cases h <;> rfl

/-- The target of exactly those types can be changed that have an element. -/
theorem isSome_retarget? (t : CType) (p : Pointee) :
    (t.retarget? p).isSome = t.element?.isSome := by
  cases t <;> rfl

end CType

end Interop
