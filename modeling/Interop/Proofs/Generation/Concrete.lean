import Interop.Proofs.Generation.Variants
import Interop.Proofs.Overload.Forms

/-!
# Interop.Proofs.Generation.Concrete — what concrete overloads say of the declared function.

Where the generic overload is left out, a function is generated from its concrete overloads alone,
and only these have been frozen. They are edited copies of the declared signature, and an edit can
take a fault away: a buffer in one form takes no lengths from other parameters, a single value drops
whatever its lengths were tied to, and its new name may settle a repeat or give a parameter to a
reference that led nowhere. This module goes back from an overload that is accepted to the signature
it was made from, and says what is left to ask of that signature.

## Main statements

* **`freeze_iff_of_generate_concrete`** — for a function that is generated from its concrete
  overloads, the exact condition under which the declared signature is accepted as well.
* **`not_freeze_swap`** — functions that are generated although their declared signatures are
  refused.
-/

namespace Interop

/-! ## §1 Back from a single value -/

namespace Signature

variable {s : Signature} {i : Nat} {p q : Parameter}

/-- No other parameter has the name of the one at place `i`. -/
def AloneAt (s : Signature) (i : Nat) (p : Parameter) : Prop :=
  ∀ j r, j ≠ i → s.params[j]? = some r → r.name ≠ p.name

/-- Where the overload has distinct names, a name of the signature can repeat only if it is that of
the parameter that was renamed. -/
theorem nodup_names_iff_aloneAt (hp : s.params[i]? = some p)
    (hv : (s.withValue i p q).names.Nodup) : s.names.Nodup ↔ s.AloneAt i p := by
  refine ⟨?_, ?_⟩
  · intro hd j r hji hr hname
    exact hji (place_unique hd hr hp hname)
  · intro halone
    have hi : s.names[i]? = some p.name := getElem?_names hp
    have hother {j : Nat} (hji : j ≠ i) : s.names[j]? ≠ some p.name := by
      intro hj
      rw [names, List.getElem?_map, Option.map_eq_some_iff] at hj
      obtain ⟨r, hr, hname⟩ := hj
      exact halone j r hji hr hname
    rw [names_withValue] at hv
    rw [List.nodup_iff_getElem?_ne_getElem?] at hv ⊢
    intro a b hab hb
    by_cases ha : a = i
    · subst ha
      rw [hi]
      exact (hother (Nat.ne_of_gt hab)).symm
    · by_cases hbi : b = i
      · subst hbi
        rw [hi]
        exact hother ha
      · -- away from the renamed parameter the names are those of the overload
        have hne := hv a b hab (by rwa [List.length_set])
        rwa [List.getElem?_set_ne (Ne.symm ha), List.getElem?_set_ne (Ne.symm hbi)] at hne

/-- The overload that passes `p` as one value under the name `name` hides the reference to `t`: it
was a length that `p` took from another parameter, it stands in a length that is tied to `p` and so
is fixed, or it finds the value that is called `t` now. -/
def Hides (s : Signature) (p : Parameter) (name t : String) : Prop :=
  p.LengthFrom t ∨ (∃ r ∈ s.params, r.SizeOf p.name ∧ r.SizeOf t) ∨
    t = name ∧ ∃ r ∈ s.params, r.Mentions t

/-- **What one value hides.** Let the references of the overload resolve. Those of the signature
resolve exactly when all that are hidden do. -/
theorem referencesResolve_iff_hides (hd : s.names.Nodup) (hp : s.params[i]? = some p)
    (hq : p.asValue? = some q) (hv : (s.withValue i p q).ReferencesResolve) :
    s.ReferencesResolve ↔ ∀ t, s.Hides p q.name t → t ∈ s.names := by
  have hmem : p ∈ s.params := List.mem_of_getElem? hp
  rw [referencesResolve_iff] at hv ⊢
  refine ⟨?_, ?_⟩
  · intro h t ht
    rcases ht with hlength | ⟨r, hr, -, hsize⟩ | ⟨-, r, hr, hmention⟩
    · exact (h p hmem).2 t hlength
    · exact (h r hr).1 t hsize
    · rcases Parameter.mentions_iff.mp hmention with hsize | hlength
      · exact (h r hr).1 t hsize
      · exact (h r hr).2 t hlength
  · intro hhidden r hr
    -- a reference that is found in the overload leads to an old name, or to the new one
    have hfound {t : String} (hmention : r.Mentions t) (ht : t ∈ (s.withValue i p q).names) :
        t ∈ s.names := by
      rcases (mem_names_withValue_iff hd hp).mp ht with rfl | ⟨ht, -⟩
      · exact hhidden q.name (.inr (.inr ⟨rfl, r, hr, hmention⟩))
      · exact ht
    obtain ⟨j, hj⟩ := List.mem_iff_getElem?.mp hr
    refine ⟨fun t ht => ?_, fun t ht => ?_⟩
    · by_cases hbuffer : r.SizeOf p.name
      · exact hhidden t (.inr (.inl ⟨r, hr, hbuffer, ht⟩))
      · refine hfound (Parameter.mentions_iff.mpr (.inl ht)) ?_
        by_cases hji : j = i
        · subst hji
          obtain rfl : r = p := Option.some.inj (hj.symm.trans hp)
          refine (hv _ ((mem_params_withValue_iff hp).mpr (.inl rfl))).1 t ?_
          rw [Parameter.sizeOf_fixLength, Parameter.sizeOf_asValue? hq,
            Parameter.sizeOf_asValue? hq]
          exact ⟨ht, hbuffer⟩
        · refine (hv _ ((mem_params_withValue_iff hp).mpr (.inr ⟨j, r, hji, hj, rfl⟩))).1 t ?_
          exact Parameter.sizeOf_fixLength.mpr ⟨ht, hbuffer⟩
    · by_cases hji : j = i
      · subst hji
        obtain rfl : r = p := Option.some.inj (hj.symm.trans hp)
        exact hhidden t (.inl ht)
      · refine hfound (Parameter.mentions_iff.mpr (.inr ht)) ?_
        obtain ⟨r', hr', ht'⟩ := (lengthFrom_withValue_iff hp hq).mpr ⟨j, r, hji, hj, ht⟩
        exact (hv r' hr').2 t ht'

/-- **Back from one value.** If the overload is accepted, the signature is accepted exactly when no
other parameter has the name of the buffer and, where references are checked, all hidden ones
resolve. -/
theorem freeze_iff_of_withValue {references : Bool} (hp : s.params[i]? = some p)
    (hq : p.asValue? = some q) (hv : ∃ f, (s.withValue i p q).freeze references = .ok f) :
    (∃ f, s.freeze references = .ok f) ↔
      s.AloneAt i p ∧ (references = true → ∀ t, s.Hides p q.name t → t ∈ s.names) := by
  obtain ⟨hnodup, hresolve⟩ := exists_freeze_iff.mp hv
  rw [exists_freeze_iff, nodup_names_iff_aloneAt hp hnodup]
  refine and_congr_right fun halone => imp_congr_right fun hcheck => ?_
  exact referencesResolve_iff_hides ((nodup_names_iff_aloneAt hp hnodup).mpr halone) hp hq
    (hresolve hcheck)

/-- **Back from one form.** If the overload is accepted, the signature is accepted exactly when,
where references are checked, the buffer takes its lengths from parameters that are there. -/
theorem freeze_iff_of_withForm {references : Bool} {form : Pointee} (hp : s.params[i]? = some p)
    (hq : p.inForm? form = some q)
    (hv : ∃ f, (s.withForm i p q form).freeze references = .ok f) :
    (∃ f, s.freeze references = .ok f) ↔
      (references = true → ∀ t, p.LengthFrom t → t ∈ s.names) := by
  obtain ⟨hnodup, hresolve⟩ := exists_freeze_iff.mp hv
  rw [names_withForm hp hq] at hnodup
  rw [exists_freeze_iff, and_iff_right hnodup]
  refine imp_congr_right fun hcheck => ?_
  rw [referencesResolve_iff_withForm hp hq]
  exact and_iff_right (hresolve hcheck)

end Signature

/-! ## §2 Functions without their generic overload -/

namespace Options

variable {o : Options} {s : Signature} {gs : List Generated}

/-- **What concrete overloads say of the declared function.** Let a function be generated from its
concrete overloads alone. Then it has one, and whichever it is, it tells whether the declared
signature is accepted under the same check. If it is one form of a buffer, the names are distinct
anyway, and all that is left to ask is whether the buffer takes its lengths from parameters that
are there. If it is the one value of a buffer, no other parameter may have the name of the buffer,
and the references that the value hides have to resolve. -/
theorem freeze_iff_of_generate_concrete (hexpand : o.expand = true)
    (hgeneric : o.keepGeneric = false) (h : o.generate s = .ok gs) :
    s.concreteOverloads ≠ [] ∧
    (∀ (i : Nat) (p q : Parameter) (form : Pointee),
      s.params[i]? = some p → form ∈ p.forms → p.inForm? form = some q →
      s.names.Nodup ∧
        ((∃ f, s.freeze o.checkReferences = .ok f) ↔
          (o.checkReferences = true → ∀ t, p.LengthFrom t → t ∈ s.names))) ∧
    (∀ (i : Nat) (p q : Parameter), s.params[i]? = some p → p.asValue? = some q →
      ((∃ f, s.freeze o.checkReferences = .ok f) ↔
        s.AloneAt i p ∧
          (o.checkReferences = true → ∀ t, s.Hides p q.name t → t ∈ s.names))) := by
  have hfrozen {v : Overload} (hv : v ∈ s.concreteOverloads) :
      ∃ f, v.signature.freeze o.checkReferences = .ok f :=
    exists_freeze_of_mem_wanted h (mem_wanted_of_mem_concreteOverloads hexpand hv)
  refine ⟨?_, fun i p q form hp hform hq => ?_, fun i p q hp hq => ?_⟩
  · have hwanted : o.wanted s = s.concreteOverloads := by
      rw [wanted_of_expand hexpand, hgeneric]
      rfl
    rw [← hwanted]
    exact (generate_eq_ok_iff.mp h).1
  · have hv : s.formOverload? i p form = some ⟨.multiType p.name form, s.withForm i p q form⟩ :=
      Signature.formOverload?_eq_some_iff.mpr ⟨q, hq, rfl⟩
    have hfreeze : ∃ f, (s.withForm i p q form).freeze o.checkReferences = .ok f :=
      hfrozen (Signature.mem_concreteOverloads_iff.mpr ⟨i, p, hp, .inl ⟨form, hform, hv⟩⟩)
    have hnodup := (Signature.exists_freeze_iff.mp hfreeze).1
    rw [Signature.names_withForm hp hq] at hnodup
    exact ⟨hnodup, Signature.freeze_iff_of_withForm hp hq hfreeze⟩
  · have hv : s.valueOverload? i p = some ⟨.singleValue p.name, s.withValue i p q⟩ :=
      Signature.valueOverload?_eq_some_iff.mpr ⟨q, hq, rfl⟩
    exact Signature.freeze_iff_of_withValue hp hq
      (hfrozen (Signature.mem_concreteOverloads_iff.mpr ⟨i, p, hp, .inr hv⟩))

/-- Concrete overloads only, with or without the check of references. -/
def concreteOnly (references : Bool) : Options :=
  { keepGeneric := false, checkReferences := references }

/-- An upload without its generic function: its form as floats tells that the names are distinct,
and its one value tells that the upload itself is accepted, since its length mentions nothing but
the buffer. -/
theorem freeze_iff_of_generate_concrete_upload :
    ∃ gs, (concreteOnly true).generate Signature.upload = .ok gs ∧
      Signature.upload.concreteOverloads ≠ [] ∧
      ∃ p q, Signature.upload.params[1]? = some p ∧ p.asValue? = some q ∧ q.name = "datum" ∧
        Signature.upload.names.Nodup ∧
        ((∃ f, Signature.upload.freeze (concreteOnly true).checkReferences = .ok f) ↔
          Signature.upload.AloneAt 1 p ∧
            ((concreteOnly true).checkReferences = true →
              ∀ t, Signature.upload.Hides p q.name t → t ∈ Signature.upload.names)) := by
  obtain ⟨gs, hgs⟩ : ∃ gs, (concreteOnly true).generate Signature.upload = .ok gs :=
    Generation.exists_ok_of_isSome (by decide +kernel)
  have hbuffer : ∃ p ∈ Signature.upload.params[1]?, .float ∈ p.forms ∧
      (p.inForm? .float).isSome = true ∧ ∃ q ∈ p.asValue?, q.name = "datum" := by
    decide +kernel
  obtain ⟨p, hp, hfloat, hfloats, q, hq, hname⟩ := hbuffer
  obtain ⟨r, hr⟩ := Option.isSome_iff_exists.mp hfloats
  obtain ⟨hsome, hform, hone⟩ := freeze_iff_of_generate_concrete rfl rfl hgs
  exact ⟨gs, hgs, hsome, p, q, hp, hq, hname, (hform 1 p r .float hp hfloat hr).1, hone 1 p q hp hq⟩

end Options

namespace Signature

/-- Rows whose lengths are meant to come from a parameter that is not there. -/
def scatter : Signature := { gather with name := "scatter", params := [height, rows] }

/-- **Concrete overloads may hide a fault.** Two buffers of one name are each renamed by their
single value, and rows in one block need no lengths; so both functions are generated when the
generic overload is left out, and both signatures are refused. -/
theorem not_freeze_swap :
    (∀ references : Bool,
      (∃ gs, (Options.concreteOnly references).generate swap = .ok gs) ∧
        swap.freeze references = .error (.duplicate "swap" "data")) ∧
    (∃ gs, (Options.concreteOnly true).generate scatter = .ok gs) ∧
    scatter.freeze true = .error (.unresolved "scatter" ⟨"rows", .pointerArray, "widths"⟩) := by
  refine ⟨fun references => ⟨?_, ?_⟩, ?_, ?_⟩
  · cases references <;> exact Generation.exists_ok_of_isSome (by decide +kernel)
  · rw [freeze_eq_error_iff]
    cases references <;> decide +kernel
  · exact Generation.exists_ok_of_isSome (by decide +kernel)
  · rw [freeze_eq_error_iff]
    decide +kernel

end Signature

end Interop
