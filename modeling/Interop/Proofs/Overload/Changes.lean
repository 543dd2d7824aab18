import Interop.CType.Fingerprint
import Interop.Proofs.Overload.Edits
import Interop.Proofs.Qualifier.History
import Mathlib.Algebra.Order.Ring.Nat

/-!
# Interop.Proofs.Overload.Changes — all that one form of a buffer changes.

An overload is made by editing its signature, and a caller of the overload has to know what it has
still in common with the signature. What an edit changes is said here without the edit: place by
place, field by field and kind by kind, and so that nothing is left open. A description of this
kind holds of one signature only, and the overload for one form of a buffer is shown to be that
signature.

## Main statements

* **`changes_iff`** — if it is settled what becomes of one parameter and of every other one, a
  single signature is left.
* **`changes_iff_of_mem_forms`** — the overload for one form of a buffer is the signature that is
  described by `TakesForm` for the buffer and by `FollowsForm` for all other parameters.
-/

namespace Interop

open Qualifier (Kind KindSet AutoSize)

/-! ## §1 A change at one place -/

namespace Signature

/-- `s'` is `s` with the parameter at place `i` changed as `here` says, every other parameter as
`there` says, and nothing else. -/
structure Changes (s : Signature) (i : Nat) (here there : Parameter → Parameter → Prop)
    (s' : Signature) : Prop where
  name_eq : s'.name = s.name
  result_eq : s'.result = s.result
  doc_eq : s'.doc = s.doc
  length_eq : s'.params.length = s.params.length
  at_place : ∀ p, s.params[i]? = some p → ∃ q, s'.params[i]? = some q ∧ here p q
  elsewhere : ∀ j r, j ≠ i → s.params[j]? = some r → ∃ r', s'.params[j]? = some r' ∧ there r r'

variable {s s' : Signature} {i : Nat} {p new : Parameter} {f : Parameter → Parameter}
  {here there : Parameter → Parameter → Prop}

/-- The parameters of a changed signature are settled if it is settled what becomes of each. -/
theorem Changes.params_eq (h : s.Changes i here there s') (hp : s.params[i]? = some p)
    (hhere : ∀ q, here p q → q = f new) (hthere : ∀ r r', there r r' → r' = f r) :
    s'.params = (s.params.set i new).map f := by
  refine List.ext_getElem? fun j => ?_
  rw [getElem?_map_set hp]
  split
  · rename_i hj
    obtain ⟨q, hq, hpq⟩ := h.at_place p hp
    rw [hj, hq, hhere q hpq]
  · rename_i hj
    cases hr : s.params[j]? with
    | none =>
      -- behind the last parameter there is none in the changed signature either
      have hlen : s'.params.length ≤ j := h.length_eq ▸ List.getElem?_eq_none_iff.mp hr
      rw [List.getElem?_eq_none hlen, Option.map_none]
    | some r =>
      obtain ⟨r', hr', hrr⟩ := h.elsewhere j r hj hr
      rw [hr', hthere r r' hrr, Option.map_some]

/-- **A change leaves nothing open.** If one parameter is what becomes of the parameter at the
place, and one parameter is what becomes of any other, then one signature fits the description. -/
theorem changes_iff (hp : s.params[i]? = some p) (hhere : ∀ q, here p q ↔ q = f new)
    (hthere : ∀ r r', there r r' ↔ r' = f r) :
    s.Changes i here there s' ↔ s' = s.withParams ((s.params.set i new).map f) := by
  refine ⟨?_, ?_⟩
  · intro h
    have hparams := h.params_eq hp (fun q => (hhere q).mp) fun r r' => (hthere r r').mp
    obtain ⟨n, result, ps, doc⟩ := s'
    obtain ⟨hname, hresult, hdoc, -, -, -⟩ := h
    cases hname
    cases hresult
    cases hdoc
    cases hparams
    rfl
  · rintro rfl
    refine ⟨rfl, rfl, rfl, ?_, fun q hq => ?_, fun j r hj hr => ?_⟩
    · rw [withParams, List.length_map, List.length_set]
    · obtain rfl : q = p := Option.some.inj (hq.symm.trans hp)
      refine ⟨f new, ?_, (hhere (f new)).mpr rfl⟩
      rw [withParams, getElem?_map_set hp, if_pos rfl]
    · refine ⟨f r, ?_, (hthere r (f r)).mpr rfl⟩
      rw [withParams, getElem?_map_set hp, if_neg hj, hr, Option.map_some]

/-- The overloads of one parameter are its forms and its single value. -/
theorem mem_overloadsOf_iff {v : Overload} :
    v ∈ s.overloadsOf i p ↔
      (∃ form ∈ p.forms, s.formOverload? i p form = some v) ∨ s.valueOverload? i p = some v := by
  rw [overloadsOf, List.mem_append, List.mem_filterMap, Option.mem_toList]

/-- Among the overloads of one parameter the variant tells which it is. -/
theorem eq_of_variant_eq {v w : Overload} (hv : v ∈ s.overloadsOf i p) (hw : w ∈ s.overloadsOf i p)
    (h : w.variant = v.variant) : w = v := by
  rcases mem_overloadsOf_iff.mp hv with ⟨form, -, hv⟩ | hv
  · obtain ⟨q, hq, rfl⟩ := formOverload?_eq_some_iff.mp hv
    rcases mem_overloadsOf_iff.mp hw with ⟨form', -, hw⟩ | hw
    · obtain ⟨q', hq', rfl⟩ := formOverload?_eq_some_iff.mp hw
      cases h
      rw [Option.some.inj (hq'.symm.trans hq)]
    · obtain ⟨q', -, rfl⟩ := valueOverload?_eq_some_iff.mp hw
      cases h
  · rcases mem_overloadsOf_iff.mp hw with ⟨form', -, hw⟩ | hw
    · obtain ⟨q', -, rfl⟩ := formOverload?_eq_some_iff.mp hw
      obtain ⟨q, -, rfl⟩ := valueOverload?_eq_some_iff.mp hv
      cases h
    · exact Option.some.inj (hw.symm.trans hv)

end Signature

/-! ## §2 The type of a buffer in another form -/

namespace CType

/-- The number of elements of an array. -/
def size? : CType → Option UInt64
  | array _ _ _ n => some n
  | _ => none

/-- `u` is the pointer or array `t` as it leads to `target`: name, element, size and the pointer in
the name are those of `t`. -/
structure LeadsTo (t : CType) (target : Pointee) (u : CType) : Prop where
  name_eq : u.name = t.name
  element_eq : u.element? = t.element?
  size_eq : u.size? = t.size?
  complete_eq : u.isComplete = t.isComplete
  crossing_eq : u.crossing = .pointer target

/-- For a pointer and for an array that leaves one type. -/
theorem retarget?_eq_some_iff {t u : CType} {target : Pointee} (h : t.element?.isSome = true) :
    t.retarget? target = some u ↔ t.LeadsTo target u := by
  -- an array has a size and a pointer has none, so neither is taken for the other
  refine ⟨?_, ?_⟩
  · intro hu
    cases t with
    | pointer n e q c =>
      cases hu
      exact ⟨rfl, rfl, rfl, rfl, rfl⟩
    | array n e q size =>
      cases hu
      exact ⟨rfl, rfl, rfl, rfl, rfl⟩
    | _ => cases hu
  · rintro ⟨hname, helement, hsize, hcomplete, hcrossing⟩
    cases t with
    | pointer n e q c =>
      cases u with
      | pointer n' e' q' c' =>
        cases hname
        cases helement
        cases hcomplete
        cases hcrossing
        rfl
      | array => cases hsize
      | _ => cases helement
    | array n e q size =>
      cases u with
      | array n' e' q' size' =>
        cases hname
        cases helement
        cases hsize
        cases hcrossing
        rfl
      | pointer => cases hsize
      | _ => cases helement
    | _ => cases h

end CType

/-! ## §3 A length that follows a form -/

namespace Pointee

/-- The size in bytes of an element, where the elements have a type of the same size on every
platform. -/
def elementSize? (form : Pointee) : Option Nat := form.scalar?.bind Scalar.byteSize?

/-- Elements with a type have a power of two for their size, if they have one at all. -/
theorem elementSize?_eq (form : Pointee) :
    form.elementSize? =
      if form = .handle ∨ form = .raw then none else form.shift?.map (2 ^ ·) := by
  cases form <;> rfl

/-- The shift of a form is the logarithm of the size of its elements, as soon as they are wider than
a byte. -/
theorem shift?_eq_some_iff {form : Pointee} {k : Nat} (hk : 1 < 2 ^ k) :
    form.shift? = some k ↔ form.elementSize? = some (2 ^ k) := by
  have hpos : k ≠ 0 := by
    rintro rfl
    omega
  rw [elementSize?_eq]
  split
  · rename_i huntyped
    rcases huntyped with rfl | rfl
    · simpa [shift?] using hpos.symm
    · simpa [shift?] using hpos.symm
  · rw [Option.map_eq_some_iff]
    refine ⟨fun h => ⟨k, h, rfl⟩, ?_⟩
    rintro ⟨j, hj, hpow⟩
    rw [hj, Nat.pow_right_injective (Nat.le_refl 2) hpow]

end Pointee

namespace Qualifier.AutoSize

/-- The length `b` is the length `a` after the buffer of that name took a form. It is tied to the
same parameters. If it is the length of the buffer and had no scale, it is shifted to count bytes
where the elements of the form are wider than one; otherwise its scale stays as it was. -/
structure Follows (buffer : String) (form : Pointee) (a b : AutoSize) : Prop where
  reference_eq : b.reference = a.reference
  dependents_eq : b.dependents = a.dependents
  shifted : a.reference = buffer → a.scale = none → ∀ k, 1 < 2 ^ k →
    form.elementSize? = some (2 ^ k) → b.scale = some (.shiftLeft k)
  unshifted : a.reference = buffer → a.scale = none →
    (∀ k, 1 < 2 ^ k → form.elementSize? ≠ some (2 ^ k)) → b.scale = none
  kept : a.reference ≠ buffer ∨ a.scale ≠ none → b.scale = a.scale

/-- What becomes of a length is determined. -/
theorem Follows.unique {buffer : String} {form : Pointee} {a b c : AutoSize}
    (hb : a.Follows buffer form b) (hc : a.Follows buffer form c) : b = c := by
  have hscale : b.scale = c.scale := by
    by_cases hown : a.reference = buffer ∧ a.scale = none
    · obtain ⟨hbuffer, hnone⟩ := hown
      by_cases hsize : ∃ k, 1 < 2 ^ k ∧ form.elementSize? = some (2 ^ k)
      · obtain ⟨k, hk, hsize⟩ := hsize
        rw [hb.shifted hbuffer hnone k hk hsize, hc.shifted hbuffer hnone k hk hsize]
      · have hno : ∀ k, 1 < 2 ^ k → form.elementSize? ≠ some (2 ^ k) :=
          fun k hk h => hsize ⟨k, hk, h⟩
        rw [hb.unshifted hbuffer hnone hno, hc.unshifted hbuffer hnone hno]
    · have hother : a.reference ≠ buffer ∨ a.scale ≠ none := not_and_or.mp hown
      rw [hb.kept hother, hc.kept hother]
  cases b
  cases c
  simp only [mk.injEq]
  exact ⟨hb.reference_eq.trans hc.reference_eq.symm, hb.dependents_eq.trans hc.dependents_eq.symm,
    hscale⟩

theorem Follows.unique_rel {buffer : String} {form : Pointee} {o o₁ o₂ : Option AutoSize}
    (h₁ : Option.Rel (Follows buffer form) o o₁) (h₂ : Option.Rel (Follows buffer form) o o₂) :
    o₁ = o₂ := by
  cases h₁ with
  | none =>
    cases h₂
    rfl
  | some hb =>
    cases h₂ with
    | some hc => rw [hb.unique hc]

/-- A shift is what becomes of a length of the buffer, for a form with wide elements. -/
theorem follows_ite_of_shift? {buffer : String} {form : Pointee} {k : Nat}
    (h : form.shift? = some (k + 1)) (a : AutoSize) :
    a.Follows buffer form (if a.reference = buffer ∧ a.scale = none then
      { a with scale := some (.shiftLeft (k + 1)) } else a) := by
  split
  · rename_i hown
    refine ⟨rfl, rfl, fun _ _ l hl hsize => ?_, fun _ _ hno => ?_, fun hother => ?_⟩
    · rw [← Pointee.shift?_eq_some_iff hl, h] at hsize
      cases hsize
      rfl
    · have hk : 1 < 2 ^ (k + 1) := Nat.one_lt_two_pow (Nat.succ_ne_zero k)
      exact absurd ((Pointee.shift?_eq_some_iff hk).mp h) (hno _ hk)
    · exact absurd hown (not_and_or.mpr hother)
  · rename_i hother
    exact ⟨rfl, rfl, fun hbuffer hnone => absurd ⟨hbuffer, hnone⟩ hother, fun _ hnone _ => hnone,
      fun _ => rfl⟩

/-- For any other form nothing becomes of it. -/
theorem follows_self_of_shift? {buffer : String} {form : Pointee}
    (h : ∀ k, form.shift? ≠ some (k + 1)) (a : AutoSize) : a.Follows buffer form a := by
  refine ⟨rfl, rfl, fun _ _ l hl hsize => ?_, fun _ hnone _ => hnone, fun _ => rfl⟩
  rw [← Pointee.shift?_eq_some_iff hl] at hsize
  cases l with
  | zero => omega
  | succ l => exact absurd hsize (h l)

end Qualifier.AutoSize

/-! ## §4 The parameters of an overload for one form -/

namespace Parameter

/-- The qualifiers of `r'` are those of `r` without the dropped kinds, with a length that follows
the form of a buffer. -/
structure FitsForm (dropped : List Kind) (buffer : String) (form : Pointee) (r r' : Parameter) :
    Prop where
  gone : ∀ k ∈ dropped, r'.qualifiers.get? k = none
  length : Option.Rel (AutoSize.Follows buffer form) (r.qualifiers.get? .autoSize)
    (r'.qualifiers.get? .autoSize)
  kept : ∀ k, k ∉ dropped → k ≠ .autoSize → r'.qualifiers.get? k = r.qualifiers.get? k

/-- `r'` is `r` after the buffer of that name took a form: only its qualifiers may change, and of
these only the length. -/
structure FollowsForm (buffer : String) (form : Pointee) (r r' : Parameter) : Prop where
  frame : r' = r.withQualifiers r'.qualifiers
  qualifiers : r.FitsForm [] buffer form r'

/-- The kinds that a buffer loses when it takes a form: all that describe how it is passed, and the
permission to be null if it could be left out. -/
def formDrops (p : Parameter) : List Kind :=
  [.pointerArray, .returnCarrier, .singleValue, .multiType]
    ++ if p.isOptional = true then [.nullable] else []

/-- `q` is the buffer `p` in one form: only its type and its qualifiers change. -/
structure TakesForm (form : Pointee) (p q : Parameter) : Prop where
  frame : q = { p with type := q.type, qualifiers := q.qualifiers }
  type : p.type.LeadsTo form q.type
  qualifiers : p.FitsForm p.formDrops p.name form q

variable {p q r r₁ r₂ : Parameter} {buffer : String} {form : Pointee}

/-- What is left of the qualifiers is determined. -/
theorem FitsForm.unique {dropped : List Kind} (h₁ : r.FitsForm dropped buffer form r₁)
    (h₂ : r.FitsForm dropped buffer form r₂) : r₁.qualifiers = r₂.qualifiers := by
  refine QualifierSet.ext_get? fun k => ?_
  by_cases hgone : k ∈ dropped
  · rw [h₁.gone k hgone, h₂.gone k hgone]
  · by_cases hlength : k = .autoSize
    · subst hlength
      exact AutoSize.Follows.unique_rel h₁.length h₂.length
    · rw [h₁.kept k hgone hlength, h₂.kept k hgone hlength]

/-- A length follows a form as it is said to. -/
theorem rel_fitLength (r : Parameter) (buffer : String) (form : Pointee) :
    Option.Rel (AutoSize.Follows buffer form) (r.qualifiers.get? .autoSize)
      ((r.fitLength buffer form).qualifiers.get? .autoSize) := by
  have hself (h : ∀ k, form.shift? ≠ some (k + 1)) :
      Option.Rel (AutoSize.Follows buffer form) (r.qualifiers.get? .autoSize)
        (r.qualifiers.get? .autoSize) := by
    cases r.qualifiers.get? .autoSize with
    | none => exact .none
    | some a => exact .some (AutoSize.follows_self_of_shift? h a)
  unfold fitLength
  split
  · rename_i k hk
    show Option.Rel _ _ ((r.qualifiers.modify .autoSize _).get? .autoSize)
    rw [QualifierSet.get?_modify_self]
    cases r.qualifiers.get? .autoSize with
    | none => exact .none
    | some a => exact .some (AutoSize.follows_ite_of_shift? hk a)
  · rename_i hzero
    exact hself fun k hk => by
      rw [hzero] at hk
      cases hk
  · rename_i hnone
    exact hself fun k hk => by
      rw [hnone] at hk
      cases hk

theorem followsForm_fitLength (r : Parameter) (buffer : String) (form : Pointee) :
    r.FollowsForm buffer form (r.fitLength buffer form) where
  frame := r.fitLength_eq buffer form
  qualifiers :=
    { gone := nofun
      length := r.rel_fitLength buffer form
      kept := fun _ _ hk => r.get?_fitLength_of_ne buffer form hk }

/-- **The other parameters.** Of each of them one parameter is left. -/
theorem followsForm_iff {r' : Parameter} :
    r.FollowsForm buffer form r' ↔ r' = r.fitLength buffer form := by
  have hfit := r.followsForm_fitLength buffer form
  refine ⟨fun h => ?_, ?_⟩
  · calc r' = r.withQualifiers r'.qualifiers := h.frame
      _ = r.withQualifiers (r.fitLength buffer form).qualifiers := by
        rw [h.qualifiers.unique hfit.qualifiers]
      _ = r.fitLength buffer form := hfit.frame.symm
  · rintro rfl
    exact hfit

/-- A parameter with forms has the kind that lists them. -/
theorem has_multiType_of_mem_forms (h : form ∈ p.forms) : p.qualifiers.has .multiType = true := by
  rw [QualifierSet.has_eq_isSome_get?]
  unfold forms at h
  cases hm : p.qualifiers.get? .multiType with
  | none =>
    rw [hm] at h
    cases h
  | some m => rfl

/-- A buffer in one form keeps all kinds but those it drops. -/
theorem get?_inForm? (hform : form ∈ p.forms) (h : p.inForm? form = some q) (k : Kind) :
    q.qualifiers.get? k = if k ∈ p.formDrops then none else p.qualifiers.get? k := by
  obtain ⟨t, -, rfl⟩ := inForm?_eq_some_iff.mp h
  have hdrops : (KindSet.arrayKinds.contains k = true ∨ k = .nullable ∧
      (p.retype t p.name).isOptional = true ∧
        (p.retype t p.name).qualifiers.has .multiType = true) ↔ k ∈ p.formDrops := by
    have hmulti : (p.retype t p.name).qualifiers.has .multiType = true :=
      has_multiType_of_mem_forms hform
    have hoptional : (p.retype t p.name).isOptional = p.isOptional := rfl
    rw [formDrops, hmulti, hoptional, List.mem_append]
    refine or_congr ?_ ?_
    · cases k <;> decide
    · cases p.isOptional <;> simp
  rw [QualifierSet.get?, find?_dropArrayKinds]
  by_cases hk : k ∈ p.formDrops
  · rw [if_pos (hdrops.mpr hk), if_pos hk]
    rfl
  · rw [if_neg (mt hdrops.mp hk), if_neg hk]
    rfl

theorem autoSize_notMem_formDrops (p : Parameter) : Kind.autoSize ∉ p.formDrops := by
  rw [formDrops]
  cases p.isOptional <;> decide

/-- A buffer in one form, with its own length following, is as it is said to be. -/
theorem takesForm_fitLength (hbuffer : p.type.element?.isSome = true) (hform : form ∈ p.forms)
    (h : p.inForm? form = some q) : p.TakesForm form (q.fitLength p.name form) where
  frame := by
    obtain ⟨t, -, rfl⟩ := inForm?_eq_some_iff.mp h
    rw [fitLength_eq]
    rfl
  type := by
    obtain ⟨t, ht, rfl⟩ := inForm?_eq_some_iff.mp h
    rw [fitLength_eq]
    exact (CType.retarget?_eq_some_iff hbuffer).mp ht
  qualifiers :=
    { gone := fun k hk => by
        have hne : k ≠ .autoSize := by
          rintro rfl
          exact p.autoSize_notMem_formDrops hk
        rw [q.get?_fitLength_of_ne p.name form hne, get?_inForm? hform h, if_pos hk]
      length := by
        have hlength := q.rel_fitLength p.name form
        rw [get?_inForm? hform h, if_neg p.autoSize_notMem_formDrops] at hlength
        exact hlength
      kept := fun k hk hne => by
        rw [q.get?_fitLength_of_ne p.name form hne, get?_inForm? hform h, if_neg hk] }

/-- **The buffer.** Of it one parameter is left as well. -/
theorem takesForm_iff (hbuffer : p.type.element?.isSome = true) (hform : form ∈ p.forms)
    (h : p.inForm? form = some q) {q' : Parameter} :
    p.TakesForm form q' ↔ q' = q.fitLength p.name form := by
  have hfit := takesForm_fitLength hbuffer hform h
  refine ⟨fun h' => ?_, ?_⟩
  · have htype : q'.type = (q.fitLength p.name form).type := by
      have hold := (CType.retarget?_eq_some_iff hbuffer).mpr h'.type
      have hnew := (CType.retarget?_eq_some_iff hbuffer).mpr hfit.type
      exact Option.some.inj (hold.symm.trans hnew)
    rw [h'.frame, hfit.frame, htype, h'.qualifiers.unique hfit.qualifiers]
  · rintro rfl
    exact hfit

end Parameter

/-! ## §5 The overload for one form -/

namespace Signature

variable {s : Signature} {i : Nat} {p : Parameter} {form : Pointee}

/-- **All that one form changes.** Take a pointer or an array that may be passed in several forms,
and one of them. There is an overload for this form of the parameter, and among the overloads of the
parameter only one. Its signature is the only one that differs from the given one as said: the
parameter takes the form, all other parameters follow it, and everything else stays. The parameter
is declared and identified as before. -/
theorem changes_iff_of_mem_forms (hp : s.params[i]? = some p)
    (hbuffer : p.type.element?.isSome = true) (hform : form ∈ p.forms) :
    ∃ v ∈ s.overloads, v ∈ s.overloadsOf i p ∧ v.variant = .multiType p.name form ∧
      (∀ w ∈ s.overloadsOf i p, w.variant = v.variant → w = v) ∧
      (∀ s', s.Changes i (Parameter.TakesForm form) (Parameter.FollowsForm p.name form) s' ↔
        s' = v.signature) ∧
      ∃ q, v.signature.params[i]? = some q ∧ q.type.declaration = p.type.declaration ∧
        q.type.fingerprint = p.type.fingerprint := by
  obtain ⟨t, ht⟩ : ∃ t, p.type.retarget? form = some t := by
    rw [← Option.isSome_iff_exists, CType.isSome_retarget?]
    exact hbuffer
  obtain ⟨q, hq⟩ : ∃ q, p.inForm? form = some q :=
    ⟨_, Parameter.inForm?_eq_some_iff.mpr ⟨t, ht, rfl⟩⟩
  have hv : s.formOverload? i p form = some ⟨.multiType p.name form, s.withForm i p q form⟩ :=
    formOverload?_eq_some_iff.mpr ⟨q, hq, rfl⟩
  have hof : ⟨.multiType p.name form, s.withForm i p q form⟩ ∈ s.overloadsOf i p :=
    mem_overloadsOf_iff.mpr (.inl ⟨form, hform, hv⟩)
  refine ⟨_, mem_overloads_iff.mpr (.inr ⟨i, p, hp, mem_overloadsOf_iff.mp hof⟩), hof, rfl,
    fun w hw => eq_of_variant_eq hof hw, fun s' => ?_, ?_⟩
  · have hhere (q' : Parameter) : p.TakesForm form q' ↔ q' = q.fitLength p.name form :=
      Parameter.takesForm_iff hbuffer hform hq
    have hthere (r r' : Parameter) :
        r.FollowsForm p.name form r' ↔ r' = r.fitLength p.name form := Parameter.followsForm_iff
    show _ ↔ s' = s.withForm i p q form
    rw [withForm_eq]
    exact changes_iff hp hhere hthere
  · obtain ⟨hi, -⟩ := List.getElem?_eq_some_iff.mp hp
    refine ⟨q.fitLength p.name form, ?_, ?_⟩
    · rw [withForm_eq, withParams, getElem?_map_set hp, if_pos rfl]
    · have htype : (q.fitLength p.name form).type = t := by
        obtain ⟨t', ht', rfl⟩ := Parameter.inForm?_eq_some_iff.mp hq
        rw [Parameter.fitLength_eq]
        exact Option.some.inj (ht'.symm.trans ht)
      rw [htype]
      exact ⟨CType.declaration_retarget? ht, CType.fingerprint_retarget? ht⟩

/-- Tiles in one of two forms, passed under a pointer type with a name and with their own length. -/
def tiles : Parameter where
  name := "tiles"
  type := .typedefPointer "LPVOID" .nothing .raw
  direction := .both
  qualifiers :=
    .ofList [⟨.nullable, ⟨true⟩⟩, ⟨.autoSize, ⟨"tiles", [], none⟩⟩,
      ⟨.multiType, ⟨[.float, .address]⟩⟩]

/-- A function that takes tiles, with one length in bytes, one in words, and the length of a mask
that is at least as long. -/
def blit : Signature where
  name := "blit"
  params :=
    [{ name := "bytes", type := .scalar "size_t" .address,
       qualifiers := .ofList [⟨.autoSize, ⟨tiles.name, ["mask"], none⟩⟩] },
     { name := "words", type := .scalar "size_t" .address,
       qualifiers := .ofList [⟨.autoSize, ⟨tiles.name, [], some ⟨.div, "4"⟩⟩⟩] },
     { name := "bits", type := .scalar "size_t" .address,
       qualifiers := .ofList [⟨.autoSize, ⟨"mask", [tiles.name], none⟩⟩] },
     tiles,
     { name := "mask", type := .pointerTo (.scalar "uint8_t" .byte) }]

/-- The tiles as floats: the length in bytes and their own length are shifted, the other two keep
their scales. -/
theorem changes_iff_of_mem_forms_blit :
    blit.params[3]? = some tiles ∧ tiles.type.element?.isSome = true ∧ .float ∈ tiles.forms ∧
    ∃ v ∈ blit.overloads, v.variant = .multiType tiles.name .float ∧
      (∀ s', blit.Changes 3 (Parameter.TakesForm .float) (Parameter.FollowsForm tiles.name .float) s'
        ↔ s' = v.signature) ∧
      v.signature.params.map (fun r => (r.qualifiers.get? .autoSize).bind (·.scale)) =
        [some (.shiftLeft 2), some ⟨.div, "4"⟩, none, some (.shiftLeft 2), none] := by
  have hbuffer : tiles.type.element?.isSome = true := rfl
  have hform : .float ∈ tiles.forms := by decide +kernel
  obtain ⟨v, hv, -, hvariant, hunique, hchanges, -⟩ :=
    changes_iff_of_mem_forms (s := blit) (i := 3) rfl hbuffer hform
  obtain ⟨w, hw, hw', hscales⟩ : ∃ w ∈ blit.overloadsOf 3 tiles,
      w.variant = .multiType tiles.name .float ∧
      w.signature.params.map (fun r => (r.qualifiers.get? .autoSize).bind (·.scale)) =
        [some (.shiftLeft 2), some ⟨.div, "4"⟩, none, some (.shiftLeft 2), none] := by
    decide +kernel
  obtain rfl := hunique w hw (hw'.trans hvariant.symm)
  exact ⟨rfl, hbuffer, hform, w, hv, hvariant, hchanges, hscales⟩

end Signature

end Interop
