import Interop.CType.Fingerprint
import Interop.Proofs.CType.Derivation
import Mathlib.Logic.Function.Iterate

/-!
# Interop.Proofs.CType.Identity — what a declaration says of a fingerprint.

The fingerprint of a type is meant to be that of its native name, whatever way the type was made. A
pointer without a name of its own takes its fingerprint from its element and shows one marker behind
the declaration of its element. So both can be read as so many steps from a *root*, a type that is
known by a name: the fingerprint of the root is stepped on once for every pointer, and the
declaration of the root gets a marker for every pointer.

Declarations do not tell everything about the root. An array is declared like a pointer, and without
its size, but its fingerprint keeps the size; a handle whose name lacks the marker is declared like
a pointer too. A typedef may have a name that reads like a marked one, and a pointer that is made by
hand may carry any name at all. Apart from such confusions, what is declared alike has the same
fingerprint.

## Main statements

* **`fingerprint_eq_of_declaration_eq`** — types that are declared alike have the same fingerprint,
  if their roots are of one form and their pointers are named after their elements.
* **`not_fingerprint_eq_arrays`** — types that are declared alike and have different fingerprints.
-/

namespace Interop

/-! ## §1 Markers can be counted -/

namespace CType

/-- A marker hides nothing of the text it is put behind. -/
theorem addMarker_injective : Function.Injective addMarker := by
  intro a b h
  have hlist := congrArg String.toList h
  apply String.toList_inj.mp
  unfold addMarker at hlist
  -- one text with a marker and one without would differ in the space in front of the new one
  have hspace {x y : String} (hx : x.toList.getLast? = some '*') :
      (x ++ "*").toList ≠ (y ++ " *").toList := by
    intro heq
    have htexts : x.toList ++ ['*'] = (y.toList ++ [' ']) ++ ['*'] := by simpa using heq
    have hdrop : x.toList = y.toList ++ [' '] := List.append_cancel_right htexts
    rw [hdrop, List.getLast?_append] at hx
    cases hx
  split at hlist
  · rename_i ha
    split at hlist
    · simpa using hlist
    · exact absurd hlist (hspace ha)
  · split at hlist
    · rename_i hb
      exact absurd hlist.symm (hspace hb)
    · simpa using hlist

/-- Behind a text that does not end in a marker, the markers can be counted. -/
theorem iterate_addMarker_inj {a b : String} (ha : a.toList.getLast? ≠ some '*')
    (hb : b.toList.getLast? ≠ some '*') {m n : Nat} (h : addMarker^[m] a = addMarker^[n] b) :
    a = b ∧ m = n := by
  induction m generalizing n with
  | zero =>
    cases n with
    | zero => exact ⟨h, rfl⟩
    | succ n =>
      rw [Function.iterate_zero_apply, Function.iterate_succ_apply'] at h
      rw [h] at ha
      exact absurd (getLast?_addMarker _) ha
  | succ m ih =>
    cases n with
    | zero =>
      rw [Function.iterate_zero_apply, Function.iterate_succ_apply'] at h
      rw [← h] at hb
      exact absurd (getLast?_addMarker _) hb
    | succ n =>
      rw [Function.iterate_succ_apply', Function.iterate_succ_apply'] at h
      obtain ⟨hab, hmn⟩ := ih (addMarker_injective h)
      exact ⟨hab, congrArg (· + 1) hmn⟩

/-! ## §2 The root of a type -/

/-- How many pointers without a name of their own lead from the type to its root. -/
def pointers : CType → Nat
  | pointer _ e _ false => e.pointers + 1
  | _ => 0

/-- The first type on the way along such pointers that is none itself. -/
def root : CType → CType
  | pointer _ e _ false => e.root
  | t => t

/-- Every such pointer is named by the declaration of its element. -/
def WellNamed : CType → Prop
  | pointer n e _ false => n = e.declaration ∧ e.WellNamed
  | _ => True

/-- How a root is known: by its name alone, as a handle whose name lacks the marker, or as an array
of so many elements. -/
inductive RootForm where
  | named
  | handle
  | array (size : UInt64)
  deriving DecidableEq, Repr

namespace RootForm

/-- The markers in the declaration of a root. -/
def markers : RootForm → Nat
  | named => 0
  | handle | array _ => 1

/-- The fingerprint of a root of this form. -/
def fingerprint : RootForm → String → Fingerprint
  | named, n | handle, n => .ofName n
  | array size, n => .ofName (n ++ "[" ++ toString size.toNat ++ "]")

end RootForm

/-- The form of a root. -/
def rootForm : CType → RootForm
  | array _ _ _ size => .array size
  | callback _ false | object _ false => .handle
  | _ => .named

variable {t u : CType}

/-- A pointer made from a type is named after it. -/
theorem wellNamed_pointerAs {p : Pointee} : (t.pointerAs p).WellNamed ↔ t.WellNamed := by
  rw [pointerAs, WellNamed]
  exact and_iff_right rfl

/-- A handle declared as a pointer to a struct is named after the struct. -/
theorem wellNamed_handleTo (name : String) : (handleTo name).WellNamed := ⟨rfl, trivial⟩

/-- Changing what is behind an address leaves the names alone. -/
theorem wellNamed_retarget? {p : Pointee} (h : t.retarget? p = some u) :
    u.WellNamed ↔ t.WellNamed := by
  cases t with
  | pointer n e q c =>
    cases h
    cases c <;> rfl
  | array n e q size =>
    cases h
    rfl
  | _ => cases h

/-- **The fingerprint is stepped on** from that of the root, once for every pointer. -/
theorem fingerprint_eq_iterate (t : CType) :
    t.fingerprint
      = Fingerprint.pointerTo^[t.pointers] (t.root.rootForm.fingerprint t.root.name) := by
  induction t with
  | pointer n e p c ih =>
    cases c with
    | true => rfl
    | false =>
      show e.fingerprint.pointerTo = _
      rw [pointers, Function.iterate_succ_apply']
      exact congrArg Fingerprint.pointerTo ih
  | callback n c => cases c <;> rfl
  | object n c => cases c <;> rfl
  | _ => rfl

/-- **The declaration is marked** behind the name of the root, once for every pointer and once more
where the root takes a marker itself. -/
theorem declaration_eq_iterate (h : t.WellNamed) :
    t.declaration = addMarker^[t.pointers + t.root.rootForm.markers] t.root.name := by
  induction t with
  | pointer n e p c ih =>
    cases c with
    | true => rfl
    | false =>
      obtain ⟨rfl, he⟩ := h
      show addMarker e.declaration = _
      rw [pointers, Nat.add_right_comm, Function.iterate_succ_apply', ih he]
      rfl
  | callback n c => cases c <;> rfl
  | object n c => cases c <;> rfl
  | _ => rfl

/-! ## §3 Declared alike -/

/-- **Declared alike, identified alike.** Take two types whose pointers are named after their
elements and whose roots are of one form: both known by their names, both handles without a marker,
or both arrays of one size. Let there be as many pointers on the way to the one root as to the
other, or let neither root have a name that ends in a marker. If the types are declared alike, they
have the same fingerprint. -/
theorem fingerprint_eq_of_declaration_eq (ht : t.WellNamed) (hu : u.WellNamed)
    (hform : t.root.rootForm = u.root.rootForm)
    (hroot : t.pointers = u.pointers ∨
      t.root.name.toList.getLast? ≠ some '*' ∧ u.root.name.toList.getLast? ≠ some '*')
    (h : t.declaration = u.declaration) : t.fingerprint = u.fingerprint := by
  rw [declaration_eq_iterate ht, declaration_eq_iterate hu, hform] at h
  have hsame : t.root.name = u.root.name ∧ t.pointers = u.pointers := by
    rcases hroot with hcount | ⟨htlast, hulast⟩
    · rw [hcount] at h
      exact ⟨addMarker_injective.iterate _ h, hcount⟩
    · obtain ⟨hname, hmarkers⟩ := iterate_addMarker_inj htlast hulast h
      exact ⟨hname, Nat.add_right_cancel hmarkers⟩
  rw [fingerprint_eq_iterate, fingerprint_eq_iterate, hform, hsame.1, hsame.2]

/-- A pointer to a handle and a pointer to a buffer of structs of that name are declared alike. -/
theorem fingerprint_eq_of_declaration_eq_monitor :
    (handleTo "monitor").pointerTo ≠ ((struct "monitor").pointerAs .byte).pointerTo ∧
      (handleTo "monitor").pointerTo.declaration = "monitor **" ∧
      (handleTo "monitor").pointerTo.fingerprint
        = ((struct "monitor").pointerAs .byte).pointerTo.fingerprint := by
  have hhandle : (handleTo "monitor").pointerTo.WellNamed :=
    wellNamed_pointerAs.mpr (wellNamed_handleTo "monitor")
  have hbytes : (struct "monitor").pointerTo.retarget? .byte
      = some ((struct "monitor").pointerAs .byte) := rfl
  have hbuffer : ((struct "monitor").pointerAs .byte).pointerTo.WellNamed :=
    wellNamed_pointerAs.mpr ((wellNamed_retarget? hbytes).mpr (wellNamed_pointerAs.mpr trivial))
  exact ⟨by decide +kernel, by decide +kernel,
    fingerprint_eq_of_declaration_eq hhandle hbuffer rfl (.inr (by decide +kernel)) rfl⟩

/-- **Declared alike, identified apart.** Two arrays of different sizes, an array and the pointer it
is passed as, a typedef whose name reads like a pointer and that pointer, and a pointer that does
not have the name of its element. -/
theorem not_fingerprint_eq_arrays :
    (((scalar "float" .float).arrayOf 4).declaration
        = ((scalar "float" .float).arrayOf 16).declaration ∧
      ((scalar "float" .float).arrayOf 4).fingerprint
        ≠ ((scalar "float" .float).arrayOf 16).fingerprint) ∧
    (((scalar "float" .float).arrayOf 4).declaration
        = (scalar "float" .float).pointerTo.declaration ∧
      ((scalar "float" .float).arrayOf 4).fingerprint
        ≠ (scalar "float" .float).pointerTo.fingerprint) ∧
    ((typedefPointer "char *" (scalar "char" .byte) .byte).declaration
        = (scalar "char" .byte).pointerTo.declaration ∧
      (typedefPointer "char *" (scalar "char" .byte) .byte).fingerprint
        ≠ (scalar "char" .byte).pointerTo.fingerprint) ∧
    ((pointer "char" nothing .raw false).declaration
        = (scalar "char" .byte).pointerTo.declaration ∧
      (pointer "char" nothing .raw false).fingerprint
        ≠ (scalar "char" .byte).pointerTo.fingerprint) := by
  decide +kernel

end CType

end Interop
