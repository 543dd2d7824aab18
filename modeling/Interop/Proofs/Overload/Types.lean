import Interop.Proofs.Generation.Lookup
import Interop.Proofs.Overload.Edits

/-!
# Interop.Proofs.Overload.Types — the types an overload gives to its parameters.

No parameter of a C function can have the type `void`. One form of a buffer is again a buffer, so it
does no harm. A single value has the type of the elements of the buffer. Handles are left out, since
nothing is known of what is behind them; but an untyped buffer, a `void *`, is no handle, and the
single value it becomes is a parameter of type `void`.

## Main statements

* **`voidFree_overloads_iff`** — which signatures without void parameters have overloads with one.
* **`not_voidFree_fill`** — an untyped buffer as a single value.
-/

namespace Interop

open Qualifier (Kind)

/-! ## §1 The type of a rebuilt parameter -/

namespace Parameter

variable {p q : Parameter}

theorem type_fitLength (p : Parameter) (buffer : String) (form : Pointee) :
    (p.fitLength buffer form).type = p.type := by
  rw [fitLength_eq]
  rfl

theorem type_fixLength (p : Parameter) (buffer : String) : (p.fixLength buffer).type = p.type := by
  rw [fixLength_eq]
  rfl

/-- A buffer in one form is an address still. -/
theorem isVoid_inForm? {form : Pointee} (h : p.inForm? form = some q) : q.type.isVoid = false := by
  obtain ⟨t, ht, rfl⟩ := inForm?_eq_some_iff.mp h
  have hcrossing : t.crossing ≠ .void := by
    rw [CType.crossing_retarget? ht]
    exact nofun
  rw [Ne, CType.crossing_eq_void_iff, Bool.not_eq_true] at hcrossing
  exact hcrossing

/-- A single value has the type of the elements. -/
theorem element?_of_asValue? (h : p.asValue? = some q) : p.type.element? = some q.type := by
  obtain ⟨single, element, -, helement, -, rfl⟩ := asValue?_eq_some_iff.mp h
  exact helement

/-- A parameter has a single value exactly when it is asked for, and the parameter is a buffer and
no handle. -/
theorem exists_asValue?_iff {t : CType} :
    (∃ q, p.asValue? = some q ∧ q.type = t) ↔
      p.qualifiers.has .singleValue = true ∧ p.type.isHandle = false ∧
        p.type.element? = some t := by
  rw [QualifierSet.has_eq_isSome_get?, Option.isSome_iff_exists]
  refine ⟨?_, ?_⟩
  · intro h
    obtain ⟨q, hq, rfl⟩ := h
    obtain ⟨single, element, hsingle, -, hhandle, -⟩ := asValue?_eq_some_iff.mp hq
    exact ⟨⟨single, hsingle⟩, hhandle, element?_of_asValue? hq⟩
  · intro h
    obtain ⟨⟨single, hsingle⟩, hhandle, helement⟩ := h
    exact ⟨_, asValue?_eq_some_iff.mpr ⟨single, t, hsingle, helement, hhandle, rfl⟩, rfl⟩

end Parameter

/-! ## §2 Void parameters -/

namespace Signature

/-- No parameter has the type `void`. -/
def VoidFree (s : Signature) : Prop := ∀ p ∈ s.params, p.type.isVoid = false

instance (s : Signature) : Decidable s.VoidFree :=
  inferInstanceAs (Decidable (∀ p ∈ s.params, p.type.isVoid = false))

/-- **One parameter is replaced.** If no parameter was void and the edits keep all types, none is
void exactly when the new one is not. -/
theorem isVoid_map_set_iff {ps : List Parameter} {i : Nat} {p new : Parameter}
    {f : Parameter → Parameter} (hps : ∀ r ∈ ps, r.type.isVoid = false) (hp : ps[i]? = some p)
    (hf : ∀ r, (f r).type = r.type) :
    (∀ r' ∈ (ps.set i new).map f, r'.type.isVoid = false) ↔ new.type.isVoid = false := by
  refine ⟨?_, ?_⟩
  · intro h
    rw [← hf new]
    exact h (f new) ((mem_map_set_iff hp).mpr (.inl rfl))
  · intro hnew r' hr'
    rcases (mem_map_set_iff hp).mp hr' with rfl | ⟨j, r, -, hr, rfl⟩
    · rw [hf new]
      exact hnew
    · rw [hf r]
      exact hps r (List.mem_of_getElem? hr)

variable {s : Signature} {i : Nat} {p q : Parameter}

/-- One form brings in no void parameter. -/
theorem voidFree_withForm {form : Pointee} (hs : s.VoidFree) (hp : s.params[i]? = some p)
    (hq : p.inForm? form = some q) : (s.withForm i p q form).VoidFree := by
  rw [withForm_eq]
  exact (isVoid_map_set_iff hs hp (·.type_fitLength p.name form)).mpr (Parameter.isVoid_inForm? hq)

/-- A single value brings in a void parameter exactly when it is one. -/
theorem voidFree_withValue_iff (hs : s.VoidFree) (hp : s.params[i]? = some p) :
    (s.withValue i p q).VoidFree ↔ q.type.isVoid = false :=
  isVoid_map_set_iff hs hp (·.type_fixLength p.name)

/-- **Which overloads have a void parameter.** Take a signature without one. The generic overload
has none, nor has the overload for one form of a parameter. No overload has one at all exactly when
no buffer that may be passed as one value, and is no handle, has elements of type `void`. -/
theorem voidFree_overloads_iff (hs : s.VoidFree) :
    (∀ v ∈ s.overloads, (∀ n, v.variant ≠ .singleValue n) → v.signature.VoidFree) ∧
    ((∀ v ∈ s.overloads, v.signature.VoidFree) ↔
      ∀ p ∈ s.params, p.qualifiers.has .singleValue = true → p.type.isHandle = false →
        ∀ e, p.type.element? = some e → e.isVoid = false) := by
  have hforms {v : Overload} (hv : v ∈ s.overloads) (hn : ∀ n, v.variant ≠ .singleValue n) :
      v.signature.VoidFree := by
    rcases mem_overloads_iff.mp hv with rfl | ⟨i, p, hp, ⟨form, -, hform⟩ | hvalue⟩
    · exact hs
    · obtain ⟨q, hq, rfl⟩ := formOverload?_eq_some_iff.mp hform
      exact voidFree_withForm hs hp hq
    · obtain ⟨q, -, rfl⟩ := valueOverload?_eq_some_iff.mp hvalue
      exact absurd rfl (hn p.name)
  refine ⟨fun v hv hn => hforms hv hn, ?_, ?_⟩
  · intro h p hmem hsingle hhandle e he
    obtain ⟨i, hp⟩ := List.mem_iff_getElem?.mp hmem
    obtain ⟨q, hq, rfl⟩ := Parameter.exists_asValue?_iff.mpr ⟨hsingle, hhandle, he⟩
    have hv : ⟨.singleValue p.name, s.withValue i p q⟩ ∈ s.overloads :=
      mem_overloads_iff.mpr (.inr ⟨i, p, hp, .inr (valueOverload?_eq_some_iff.mpr ⟨q, hq, rfl⟩)⟩)
    exact (voidFree_withValue_iff hs hp).mp (h _ hv)
  · intro h v hv
    by_cases hn : ∃ n, v.variant = .singleValue n
    · obtain ⟨n, hn⟩ := hn
      obtain ⟨i, p, q, hp, -, hq, hsig⟩ := exists_asValue?_of_mem_overloads hv hn
      obtain ⟨hsingle, hhandle, helement⟩ := Parameter.exists_asValue?_iff.mp ⟨q, hq, rfl⟩
      rw [hsig, voidFree_withValue_iff hs hp]
      exact h p (List.mem_of_getElem? hp) hsingle hhandle q.type helement
    · exact hforms hv fun n h => hn ⟨n, h⟩

/-- An upload of floats has no void parameter as a single value either. -/
theorem voidFree_overloads_iff_upload :
    upload.VoidFree ∧ ∃ v ∈ upload.overloads, v.variant = .singleValue "data" ∧
      v.signature.VoidFree := by
  have hs : upload.VoidFree := by decide +kernel
  have helements : ∀ p ∈ upload.params, p.qualifiers.has .singleValue = true →
      p.type.isHandle = false → ∀ e, p.type.element? = some e → e.isVoid = false := by
    decide +kernel
  obtain ⟨v, hv, hvariant⟩ : ∃ v ∈ upload.overloads, v.variant = .singleValue "data" := by
    decide +kernel
  exact ⟨hs, v, hv, hvariant, (voidFree_overloads_iff hs).2.mpr helements v hv⟩

/-- A function that fills a buffer of any type, or one datum. -/
def fill : Signature where
  name := "fill"
  params :=
    [{ name := "data", type := .pointerTo .nothing,
       qualifiers := .ofList [⟨.singleValue, ⟨"datum"⟩⟩] }]

/-- **An untyped buffer as a single value.** The function has no void parameter, its overload for
one datum is accepted and declares one. -/
theorem not_voidFree_fill :
    fill.VoidFree ∧ ∃ v ∈ fill.overloads, v.variant = .singleValue "data" ∧
      ¬ v.signature.VoidFree ∧
      ∃ f, v.signature.freeze true = .ok f ∧ f.declaration none = "void fill(void datum)" := by
  have hvoid : ∃ v ∈ fill.overloads, v.variant = .singleValue "data" ∧ ¬ v.signature.VoidFree ∧
      v.signature.fault? true = none ∧ ∃ h : v.signature.names.Nodup,
        (v.signature.prototype h).declaration none = "void fill(void datum)" := by
    decide +kernel
  obtain ⟨v, hv, hvariant, hfree, hfault, hnodup, htext⟩ := hvoid
  exact ⟨by decide +kernel, v, hv, hvariant, hfree, v.signature.prototype hnodup,
    freeze_eq_ok_iff.mpr ⟨hfault, Prototype.signature_prototype hnodup⟩, htext⟩

end Signature

end Interop
