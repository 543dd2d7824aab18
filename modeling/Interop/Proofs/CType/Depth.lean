import Interop.CType.Fingerprint
import Interop.Proofs.CType.Derivation
import Mathlib.Logic.Function.Iterate

/-!
# Interop.Proofs.CType.Depth — the fingerprints of pointers to pointers.

The fingerprint of a pointer is computed from that of its element by a rotation, a multiplication
and an exclusive or. Each of the three can be undone on words: the rotation by the one that
completes the turn, the multiplication by an inverse of its odd factor modulo `2 ^ 64`, and the
exclusive or by itself. So the fingerprint of the element can be computed back from that of the
pointer, at any depth, and pointers collide only where the types they lead to did.

## Main statements

* **`pointerTo_bijective`** — the step from a fingerprint to that of the pointer can be undone.
* **`fingerprint_derive_eq_iff`** — pointers of one depth have the same fingerprint exactly when the
  types they lead to have.
-/

namespace Interop

/-! ## §1 Undoing the step -/

/-- Two rotations that make a full turn together change nothing. -/
theorem Digest.rotl_rotl {j k : Nat} (h : j + k = 64) (w : UInt64) :
    rotl (rotl w j) k = w := by
  apply UInt64.toBitVec_inj.mp
  show (w.toBitVec.rotateLeft j).rotateLeft k = w.toBitVec
  apply BitVec.eq_of_getLsbD_eq
  intro i hi
  simp only [BitVec.getLsbD_rotateLeft, cond_eq_ite, decide_eq_true_eq]
  split
  · -- below `k`, the second rotation brings the bit round the end
    rw [if_neg (by omega), decide_eq_true (by omega), Bool.true_and]
    congr 1
    omega
  · by_cases hturn : j % 64 = 0
    · rw [if_neg (by omega), decide_eq_true hi, decide_eq_true (by omega), Bool.true_and,
        Bool.true_and]
      congr 1
      omega
    · -- elsewhere, the first rotation does
      rw [if_pos (by omega), decide_eq_true hi, Bool.true_and]
      congr 1
      omega

namespace Fingerprint

/-- The inverse of the factor of the pointer step modulo `2 ^ 64`. -/
def elementFactor : UInt64 := 0x05057c9341208265

theorem pointerFactor_mul_elementFactor : pointerFactor * elementFactor = 1 := by decide

/-- The step back, from the fingerprint of an unnamed pointer to that of its element. -/
def element (f : Fingerprint) : Fingerprint :=
  ⟨Digest.rotl ((f.bits ^^^ domain) * elementFactor) 57⟩

theorem xor_domain_xor_domain (w : UInt64) : w ^^^ domain ^^^ domain = w := by
  rw [UInt64.xor_assoc, UInt64.xor_self, UInt64.xor_zero]

/-- From a type to the pointer and back again. -/
theorem element_pointerTo (f : Fingerprint) : f.pointerTo.element = f := by
  rw [element, pointerTo, xor_domain_xor_domain, UInt64.mul_assoc,
    pointerFactor_mul_elementFactor, UInt64.mul_one, Digest.rotl_rotl rfl]

/-- From a pointer to the element and back again. -/
theorem pointerTo_element (f : Fingerprint) : f.element.pointerTo = f := by
  rw [element, pointerTo, Digest.rotl_rotl rfl, UInt64.mul_assoc,
    UInt64.mul_comm elementFactor, pointerFactor_mul_elementFactor, UInt64.mul_one,
    xor_domain_xor_domain]

/-- **The step can be undone.** Each fingerprint is that of the pointer to exactly one other. -/
theorem pointerTo_bijective : Function.Bijective pointerTo :=
  ⟨Function.LeftInverse.injective element_pointerTo,
    Function.RightInverse.surjective pointerTo_element⟩

end Fingerprint

/-! ## §2 Pointers of any depth -/

namespace CType

/-- One step that makes a pointer, whatever it crosses as. -/
theorem Step.fingerprint_apply {d : Step} (h : d.isArray = false) (t : CType) :
    (d.apply t).fingerprint = t.fingerprint.pointerTo := by
  cases d with
  | pointer => exact fingerprint_pointerAs t t.buffer
  | pointerAs target => exact fingerprint_pointerAs t target
  | array size => cases h

/-- Many such steps. -/
theorem fingerprint_derive {ds : List Step} (h : ∀ d ∈ ds, d.isArray = false) (t : CType) :
    (t.derive ds).fingerprint = Fingerprint.pointerTo^[ds.length] t.fingerprint := by
  induction ds generalizing t with
  | nil => rfl
  | cons d ds ih =>
    obtain ⟨hd, hds⟩ := List.forall_mem_cons.mp h
    show ((d.apply t).derive ds).fingerprint = _
    rw [ih hds, Step.fingerprint_apply hd, List.length_cons, Function.iterate_succ_apply]

/-- **Pointers add no collision.** The step from a fingerprint to that of the pointer is injective,
and so are any number of such steps. Take any two types, and as many pointers to the one as to the
other, each with a target of its own or with the one its element asks for. The outermost pointers
have the same fingerprint exactly when the two types have. -/
theorem fingerprint_derive_eq_iff :
    Function.Injective Fingerprint.pointerTo ∧
    (∀ n, Function.Injective Fingerprint.pointerTo^[n]) ∧
    ∀ ds es : List Step, (∀ d ∈ ds, d.isArray = false) → (∀ e ∈ es, e.isArray = false) →
      ds.length = es.length → ∀ t u : CType,
        (t.derive ds).fingerprint = (u.derive es).fingerprint ↔ t.fingerprint = u.fingerprint := by
  have hstep : Function.Injective Fingerprint.pointerTo := Fingerprint.pointerTo_bijective.injective
  refine ⟨hstep, hstep.iterate, fun ds es hds hes hdepth t u => ?_⟩
  rw [fingerprint_derive hds, fingerprint_derive hes, hdepth]
  exact (hstep.iterate es.length).eq_iff

/-- Two pointers deep, a byte and a struct of other names are told apart, although the targets are
swapped on the way. -/
theorem fingerprint_derive_eq_iff_texture :
    (∀ d ∈ [Step.pointer, .pointerAs .raw], d.isArray = false) ∧
    (∀ e ∈ [Step.pointerAs .raw, .pointer], e.isArray = false) ∧
    ((scalar "char" .byte).derive [.pointer, .pointerAs .raw]).fingerprint
      ≠ ((struct "texture").derive [.pointerAs .raw, .pointer]).fingerprint := by
  have hds : ∀ d ∈ [Step.pointer, .pointerAs .raw], d.isArray = false := by decide
  have hes : ∀ e ∈ [Step.pointerAs .raw, .pointer], e.isArray = false := by decide
  have hroots : (scalar "char" .byte).fingerprint ≠ (struct "texture").fingerprint := by
    decide +kernel
  obtain ⟨-, -, hiff⟩ := fingerprint_derive_eq_iff
  exact ⟨hds, hes, fun h => hroots ((hiff _ _ hds hes rfl _ _).mp h)⟩

end CType

end Interop
