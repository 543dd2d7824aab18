import Interop.Proofs.Overload.Forms
import Interop.Proofs.Overload.Values
import Interop.Proofs.Parameter.Confinement

/-!
# Interop.Proofs.Overload.Order — overloads of overloads.

An overload settles how one buffer is passed, and its signature may have other buffers that are not
settled yet. Settling two of them takes two steps, and the steps meet: one length may be tied to both
buffers, each buffer may be a length of the other, and one of them may change its name. The order of
the two steps does not matter all the same, as long as the buffers have different names. A buffer is
settled once and for all, so sooner or later nothing is left to settle.

With one name for both buffers the order would matter: both shift the same length, and the shift that
comes first stays.

## Main statements

* **`Choice.follow_comm`** — what two buffers with different names make of a length.
* **`unsettled_of_mem_concreteOverloads`** — an overload has one buffer less to settle.
* **`specializes_in_any_order`** — two buffers are settled in either order, and all of them in as many
  steps as there are.
-/

namespace Interop

open Qualifier (Kind KindSet AutoSize)

/-! ## §1 One choice for one buffer -/

/-- What a buffer is passed as. -/
inductive Choice where
  | form (target : Pointee)
  | value
  deriving DecidableEq, Repr

namespace Choice

/-- The overload that makes the choice for the parameter of that name. -/
def variant (c : Choice) (n : String) : Variant :=
  match c with
  | .form target => .multiType n target
  | .value => .singleValue n

/-- What the buffer becomes, if it has the choice. -/
def rebuild? (c : Choice) (p : Parameter) : Option Parameter :=
  match c with
  | .form target => if target ∈ p.forms then p.inForm? target else none
  | .value => p.asValue?

/-- What becomes of a parameter when the buffer of that name is settled so. -/
def follow (c : Choice) (buffer : String) (r : Parameter) : Parameter :=
  match c with
  | .form target => r.fitLength buffer target
  | .value => r.fixLength buffer

end Choice

namespace Signature

variable {s : Signature} {i : Nat} {p : Parameter}

/-- The signature with the buffer at place `i` rebuilt, and every parameter edited. -/
def rebuildAt (s : Signature) (i : Nat) (new : Parameter) (f : Parameter → Parameter) : Signature :=
  s.withParams ((s.params.set i new).map f)

/-- **Overloads are choices.** The overloads of a parameter are made by its choices: the buffer is
rebuilt, and all parameters follow it. -/
theorem mem_overloadsOf_iff_rebuild {v : Overload} :
    v ∈ s.overloadsOf i p ↔ ∃ (c : Choice) (q : Parameter), c.rebuild? p = some q ∧
      v = ⟨c.variant p.name, s.rebuildAt i q (c.follow p.name)⟩ := by
  rw [mem_overloadsOf_iff]
  refine ⟨?_, ?_⟩
  · rintro (⟨form, hmem, hform⟩ | hvalue)
    · obtain ⟨q, hq, rfl⟩ := formOverload?_eq_some_iff.mp hform
      refine ⟨.form form, q, ?_, ?_⟩
      · rw [Choice.rebuild?, if_pos hmem, hq]
      · rw [withForm_eq]
        rfl
    · obtain ⟨q, hq, rfl⟩ := valueOverload?_eq_some_iff.mp hvalue
      exact ⟨.value, q, hq, rfl⟩
  · rintro ⟨c, q, hq, rfl⟩
    cases c with
    | form form =>
      rw [Choice.rebuild?] at hq
      split at hq
      · rename_i hmem
        refine .inl ⟨form, hmem, formOverload?_eq_some_iff.mpr ⟨q, hq, ?_⟩⟩
        rw [withForm_eq]
        rfl
      · cases hq
    | value => exact .inr (valueOverload?_eq_some_iff.mpr ⟨q, hq, rfl⟩)

/-- `t` is the overload of that variant for the parameter at place `i` of `s`. -/
def Specializes (s : Signature) (i : Nat) (v : Variant) (t : Signature) : Prop :=
  ∃ p, s.params[i]? = some p ∧ ⟨v, t⟩ ∈ s.overloadsOf i p

/-- There is only one. -/
theorem Specializes.unique {v : Variant} {t u : Signature} (ht : s.Specializes i v t)
    (hu : s.Specializes i v u) : u = t := by
  obtain ⟨p, hp, ht⟩ := ht
  obtain ⟨q, hq, hu⟩ := hu
  obtain rfl : q = p := Option.some.inj (hq.symm.trans hp)
  exact congrArg Overload.signature (eq_of_variant_eq ht hu rfl)

end Signature

/-! ## §2 Lengths that follow two buffers -/

/-- The length `a` after the buffer of that name took a form: if it is the length of the buffer and
has no scale, it is shifted where the elements of the form are wider than a byte. -/
def Qualifier.AutoSize.fitTo (a : AutoSize) (buffer : String) (form : Pointee) : AutoSize :=
  match form.shift? with
  | some (shift + 1) =>
    if a.reference = buffer ∧ a.scale = none then { a with scale := some (.shiftLeft (shift + 1)) }
    else a
  | some 0 | none => a

namespace Qualifier.AutoSize

variable {a : AutoSize} {buffer : String} {form : Pointee}

/-- A length stays the length of the same buffer. -/
theorem reference_fitTo : (a.fitTo buffer form).reference = a.reference := by
  unfold fitTo
  split
  · split
    · rfl
    · rfl
  · rfl
  · rfl

/-- The length of another buffer stays as it is. -/
theorem fitTo_of_ne (h : a.reference ≠ buffer) : a.fitTo buffer form = a := by
  unfold fitTo
  split
  · rw [if_neg fun hown => h hown.1]
  · rfl
  · rfl

/-- A length is the length of one buffer, so it follows only one of two. -/
theorem fitTo_comm {buffer' : String} {form' : Pointee} (h : buffer ≠ buffer') (a : AutoSize) :
    (a.fitTo buffer' form').fitTo buffer form = (a.fitTo buffer form).fitTo buffer' form' := by
  by_cases hown : a.reference = buffer
  · have hother : a.reference ≠ buffer' := hown ▸ h
    rw [fitTo_of_ne hother, fitTo_of_ne (reference_fitTo.trans_ne hother)]
  · rw [fitTo_of_ne hown, fitTo_of_ne (reference_fitTo.trans_ne hown)]

/-- Under one name the first of two shifts would stay. -/
example : ((⟨"a", [], none⟩ : AutoSize).fitTo "a" .short).fitTo "a" .int
    ≠ ((⟨"a", [], none⟩ : AutoSize).fitTo "a" .int).fitTo "a" .short := by
  decide

end Qualifier.AutoSize

namespace Parameter

/-- What a form leaves of a length. -/
theorem get?_autoSize_fitLength (r : Parameter) (buffer : String) (form : Pointee) :
    (r.fitLength buffer form).qualifiers.get? .autoSize =
      (r.qualifiers.get? .autoSize).map (·.fitTo buffer form) := by
  unfold fitLength AutoSize.fitTo
  rcases form.shift? with _ | _ | shift
  · exact Option.map_id'.symm
  · exact Option.map_id'.symm
  · exact QualifierSet.get?_modify_self r.qualifiers .autoSize _

/-- The kinds by which a parameter gives a length. -/
def lengthKinds : KindSet := .ofList [.autoSize, .expression]

theorem eq_or_eq_of_lengthKinds {k : Kind} (hk : lengthKinds.contains k = true) :
    k = .autoSize ∨ k = .expression := by
  revert hk
  cases k <;> decide

/-- A form takes note of these kinds only. -/
theorem keepsTo_fitLength (buffer : String) (form : Pointee) :
    KeepsTo lengthKinds (·.fitLength buffer form) where
  frame p := p.fitLength_eq buffer form
  kept p k hk := by
    refine p.get?_fitLength_of_ne buffer form ?_
    rintro rfl
    exact Bool.false_ne_true hk.symm
  reads p q h k hk := by
    rcases eq_or_eq_of_lengthKinds hk with rfl | rfl
    · rw [get?_autoSize_fitLength, get?_autoSize_fitLength, h .autoSize hk]
    · rw [get?_fitLength_of_ne _ _ _ (by decide), get?_fitLength_of_ne _ _ _ (by decide),
        h .expression hk]

/-- So does a single value. -/
theorem keepsTo_fixLength (buffer : String) : KeepsTo lengthKinds (·.fixLength buffer) where
  frame p := p.fixLength_eq buffer
  kept p k hk := by
    refine p.get?_fixLength_of_ne buffer ?_ ?_
    · rintro rfl
      exact Bool.false_ne_true hk.symm
    · rintro rfl
      exact Bool.false_ne_true hk.symm
  reads p q h k hk := by
    have hsize : p.SizeOf buffer ↔ q.SizeOf buffer := by
      rw [SizeOf, SizeOf, h .autoSize (by decide)]
    by_cases htied : p.SizeOf buffer
    · obtain ⟨hpsize, hpexpr⟩ := get?_fixLength_of_sizeOf htied
      obtain ⟨hqsize, hqexpr⟩ := get?_fixLength_of_sizeOf (hsize.mp htied)
      rcases eq_or_eq_of_lengthKinds hk with rfl | rfl
      · rw [hpsize, hqsize]
      · rw [hpexpr, hqexpr]
    · rw [fixLength_of_not_sizeOf htied, fixLength_of_not_sizeOf (mt hsize.mpr htied)]
      exact h k hk

/-- A length follows the forms of two buffers in either order. -/
theorem fitLength_fitLength {buffer buffer' : String} (h : buffer ≠ buffer') (form form' : Pointee)
    (r : Parameter) : (r.fitLength buffer' form').fitLength buffer form
      = (r.fitLength buffer form).fitLength buffer' form' := by
  have hfit := keepsTo_fitLength buffer form
  have hfit' := keepsTo_fitLength buffer' form'
  refine (hfit.comp hfit').eq_of_get? (hfit'.comp hfit) fun k hk => ?_
  rcases eq_or_eq_of_lengthKinds hk with rfl | rfl
  · simp only [get?_autoSize_fitLength, Option.map_map]
    exact congrArg (fun g => (r.qualifiers.get? .autoSize).map g) (funext (AutoSize.fitTo_comm h))
  · have hkept (buffer : String) (form : Pointee) (r : Parameter) :
        (r.fitLength buffer form).qualifiers.get? .expression = r.qualifiers.get? .expression :=
      r.get?_fitLength_of_ne buffer form (by decide)
    rw [hkept, hkept, hkept, hkept]

/-- A length that becomes the constant one does so whether it was shifted before or not. -/
theorem fixLength_fitLength (buffer buffer' : String) (form : Pointee) (r : Parameter) :
    (r.fitLength buffer form).fixLength buffer' = (r.fixLength buffer').fitLength buffer form := by
  by_cases htied : r.SizeOf buffer'
  · have hfit := keepsTo_fitLength buffer form
    have hfix := keepsTo_fixLength buffer'
    obtain ⟨hsize, hexpr⟩ := get?_fixLength_of_sizeOf htied
    obtain ⟨hsize', hexpr'⟩ := get?_fixLength_of_sizeOf (sizeOf_fitLength.mpr htied)
    refine (hfix.comp hfit).eq_of_get? (hfit.comp hfix) fun k hk => ?_
    rcases eq_or_eq_of_lengthKinds hk with rfl | rfl
    · rw [hsize', get?_autoSize_fitLength, hsize, Option.map_none]
    · rw [hexpr', get?_fitLength_of_ne _ _ _ (by decide), hexpr]
  · rw [fixLength_of_not_sizeOf htied, fixLength_of_not_sizeOf (mt sizeOf_fitLength.mp htied)]

/-- A length that is the constant one already is tied to no buffer. -/
theorem fixLength_fixLength_of_sizeOf {buffer : String} (buffer' : String) {r : Parameter}
    (h : r.SizeOf buffer) : (r.fixLength buffer).fixLength buffer' = r.fixLength buffer := by
  refine fixLength_of_not_sizeOf ?_
  rw [sizeOf_fixLength]
  exact fun hboth => hboth.2 h

/-- It does not matter which of two buffers a length loses first. -/
theorem fixLength_fixLength (buffer buffer' : String) (r : Parameter) :
    (r.fixLength buffer').fixLength buffer = (r.fixLength buffer).fixLength buffer' := by
  by_cases htied : r.SizeOf buffer
  · rw [fixLength_fixLength_of_sizeOf buffer' htied]
    by_cases htied' : r.SizeOf buffer'
    · -- the length is tied to both, and either of them makes the same of it
      rw [fixLength_fixLength_of_sizeOf buffer htied']
      obtain ⟨hsize, hexpr⟩ := get?_fixLength_of_sizeOf htied
      obtain ⟨hsize', hexpr'⟩ := get?_fixLength_of_sizeOf htied'
      refine (keepsTo_fixLength buffer').eq_of_get? (keepsTo_fixLength buffer) fun k hk => ?_
      rcases eq_or_eq_of_lengthKinds hk with rfl | rfl
      · rw [hsize, hsize']
      · rw [hexpr, hexpr']
    · rw [fixLength_of_not_sizeOf htied']
  · have hfree : ¬ (r.fixLength buffer').SizeOf buffer := by
      rw [sizeOf_fixLength]
      exact fun hboth => htied hboth.1
    rw [fixLength_of_not_sizeOf htied, fixLength_of_not_sizeOf hfree]

end Parameter

namespace Choice

open Parameter (KeepsTo lengthKinds)

/-- Following a buffer takes note of lengths and expressions only. -/
theorem keepsTo_follow (c : Choice) (buffer : String) : KeepsTo lengthKinds (c.follow buffer) := by
  cases c with
  | form target => exact Parameter.keepsTo_fitLength buffer target
  | value => exact Parameter.keepsTo_fixLength buffer

/-- **Two buffers.** If they have different names, a parameter follows them in either order. -/
theorem follow_comm {buffer buffer' : String} (h : buffer ≠ buffer') (c d : Choice) (r : Parameter) :
    c.follow buffer (d.follow buffer' r) = d.follow buffer' (c.follow buffer r) := by
  cases c with
  | form target =>
    cases d with
    | form target' => exact Parameter.fitLength_fitLength h target target' r
    | value => exact (Parameter.fixLength_fitLength buffer buffer' target r).symm
  | value =>
    cases d with
    | form target' => exact Parameter.fixLength_fitLength buffer' buffer target' r
    | value => exact Parameter.fixLength_fixLength buffer buffer' r

/-- **A buffer that follows another** has the same choices as before, and they lead to the same. -/
theorem rebuild?_follow (c d : Choice) (buffer : String) (p : Parameter) :
    c.rebuild? (d.follow buffer p) = (c.rebuild? p).map (d.follow buffer) := by
  have hkeeps := d.keepsTo_follow buffer
  have hdisjoint : lengthKinds.meets Parameter.bufferKinds = false := by decide
  cases c with
  | form target =>
    have hforms : (d.follow buffer p).forms = p.forms := by
      rw [Parameter.forms, Parameter.forms, hkeeps.kept p .multiType (by decide)]
    rw [rebuild?, rebuild?, hforms]
    split
    · exact hkeeps.inForm?_comm hdisjoint p target
    · rfl
  | value => exact hkeeps.asValue?_comm hdisjoint p

end Choice

/-! ## §3 Two buffers in either order -/

namespace Signature

variable {s : Signature} {i j : Nat} {p q r u : Parameter} {c d : Choice}

/-- The second step, taken after the first: both buffers are rebuilt, and all parameters follow the
one and then the other. -/
theorem specializes_rebuildAt (hp : s.params[i]? = some p) (hr : s.params[j]? = some r)
    (hij : j ≠ i) (hu : d.rebuild? r = some u) :
    (s.rebuildAt i q (c.follow p.name)).Specializes j (d.variant r.name)
      (s.withParams
        (((s.params.set i q).set j u).map fun x => d.follow r.name (c.follow p.name x))) := by
  have hplace : (s.rebuildAt i q (c.follow p.name)).params[j]? = some (c.follow p.name r) := by
    rw [rebuildAt, withParams, getElem?_map_set hp, if_neg hij, hr, Option.map_some]
  have hname : (c.follow p.name r).name = r.name := ((c.keepsTo_follow p.name).fields_eq r).1
  refine ⟨_, hplace, mem_overloadsOf_iff_rebuild.mpr ⟨d, c.follow p.name u, ?_, ?_⟩⟩
  · rw [Choice.rebuild?_follow, hu, Option.map_some]
  · rw [hname, rebuildAt, rebuildAt, withParams, withParams, withParams, ← List.map_set,
      List.map_map]
    rfl

/-- **Either order.** Two overloads for buffers with different names have an overload in common: the
one makes the other's choice after its own. -/
theorem exists_specializes_of_specializes {a b : Variant} {s₁ s₂ : Signature}
    (hp : s.params[i]? = some p) (hr : s.params[j]? = some r) (hname : p.name ≠ r.name)
    (h₁ : s.Specializes i a s₁) (h₂ : s.Specializes j b s₂) :
    ∃ t, s₁.Specializes j b t ∧ s₂.Specializes i a t := by
  have hij : i ≠ j := by
    rintro rfl
    exact hname (congrArg Parameter.name (Option.some.inj (hp.symm.trans hr)))
  obtain ⟨p', hp', h₁⟩ := h₁
  obtain ⟨r', hr', h₂⟩ := h₂
  obtain rfl : p' = p := Option.some.inj (hp'.symm.trans hp)
  obtain rfl : r' = r := Option.some.inj (hr'.symm.trans hr)
  obtain ⟨c, q, hq, hc⟩ := mem_overloadsOf_iff_rebuild.mp h₁
  obtain ⟨d, u, hu, hd⟩ := mem_overloadsOf_iff_rebuild.mp h₂
  cases hc
  cases hd
  refine ⟨_, specializes_rebuildAt hp hr hij.symm hu, ?_⟩
  have hboth : (fun x => d.follow r'.name (c.follow p'.name x))
      = fun x => c.follow p'.name (d.follow r'.name x) :=
    funext fun x => Choice.follow_comm hname.symm d c x
  rw [hboth, List.set_comm q u hij]
  exact specializes_rebuildAt hr hp hij hq

end Signature

/-! ## §4 What is left to settle -/

/-- The parameter may be passed in several forms or as one value. -/
def Parameter.isUnsettled (p : Parameter) : Bool :=
  p.qualifiers.has .multiType || p.qualifiers.has .singleValue

theorem Parameter.isUnsettled_eq (p : Parameter) : p.isUnsettled =
    ((p.qualifiers.get? .multiType).isSome || (p.qualifiers.get? .singleValue).isSome) := by
  rw [isUnsettled, QualifierSet.has_eq_isSome_get?, QualifierSet.has_eq_isSome_get?]

namespace Choice

variable {p q : Parameter} {c : Choice}

/-- Following a buffer settles nothing. -/
theorem isUnsettled_follow (c : Choice) (buffer : String) (r : Parameter) :
    (c.follow buffer r).isUnsettled = r.isUnsettled := by
  have hkeeps := c.keepsTo_follow buffer
  rw [Parameter.isUnsettled_eq, Parameter.isUnsettled_eq, hkeeps.kept r .multiType (by decide),
    hkeeps.kept r .singleValue (by decide)]

/-- Only a buffer that is not settled has a choice. -/
theorem isUnsettled_of_rebuild? (h : c.rebuild? p = some q) : p.isUnsettled = true := by
  rw [Parameter.isUnsettled]
  cases c with
  | form target =>
    rw [rebuild?] at h
    split at h
    · rename_i hmem
      rw [Parameter.has_multiType_of_mem_forms hmem, Bool.true_or]
    · cases h
  | value =>
    obtain ⟨single, -, hsingle, -⟩ := Parameter.asValue?_eq_some_iff.mp h
    rw [QualifierSet.has_eq_isSome_get? _ .singleValue, hsingle, Option.isSome_some, Bool.or_true]

/-- After that it is settled. -/
theorem isUnsettled_rebuild? (h : c.rebuild? p = some q) : q.isUnsettled = false := by
  rw [Parameter.isUnsettled_eq]
  cases c with
  | form target =>
    rw [rebuild?] at h
    split at h
    · obtain ⟨t, -, rfl⟩ := Parameter.inForm?_eq_some_iff.mp h
      rw [Parameter.get?_dropArrayKinds, if_pos (.inl (by decide)), Parameter.get?_dropArrayKinds,
        if_pos (.inl (by decide))]
      rfl
    · cases h
  | value =>
    rw [Parameter.get?_asValue? h, if_pos (.inl (by decide)), Parameter.get?_asValue? h,
      if_pos (.inl (by decide))]
    rfl

end Choice

namespace Signature

/-- The number of parameters that are not settled. -/
def unsettled (s : Signature) : Nat := s.params.countP Parameter.isUnsettled

/-- `t` is left when overloads are taken one after the other, of the given variants and none of them
generic. -/
inductive Expansion : Signature → List Variant → Signature → Prop
  | done (s : Signature) : Expansion s [] s
  | step {s : Signature} {v : Overload} {vs : List Variant} {t : Signature}
      (hv : v ∈ s.concreteOverloads) (rest : Expansion v.signature vs t) :
      Expansion s (v.variant :: vs) t

/-- **One step.** An overload has one parameter less to settle. -/
theorem unsettled_of_mem_concreteOverloads {s : Signature} {v : Overload}
    (hv : v ∈ s.concreteOverloads) : v.signature.unsettled + 1 = s.unsettled := by
  obtain ⟨i, p, hp, h⟩ := mem_concreteOverloads_iff.mp hv
  obtain ⟨c, q, hq, rfl⟩ := mem_overloadsOf_iff_rebuild.mp (mem_overloadsOf_iff.mpr h)
  have hcount : (s.rebuildAt i q (c.follow p.name)).unsettled + p.isUnsettled.toNat
      = s.unsettled + q.isUnsettled.toNat := countP_map_set (c.isUnsettled_follow p.name) hp
  rw [Choice.isUnsettled_of_rebuild? hq, Choice.isUnsettled_rebuild? hq] at hcount
  exact hcount

/-- **Any number of steps.** Every step settles one parameter. -/
theorem unsettled_of_expansion {s t : Signature} {vs : List Variant} (h : s.Expansion vs t) :
    t.unsettled + vs.length = s.unsettled := by
  induction h with
  | done s => rfl
  | step hv rest ih =>
    rw [List.length_cons, ← unsettled_of_mem_concreteOverloads hv, ← ih]
    omega

/-- No signature has overloads of overloads without end. -/
theorem wellFounded_concreteOverloads :
    WellFounded fun t s : Signature => ∃ v ∈ s.concreteOverloads, v.signature = t := by
  refine Subrelation.wf ?_ (InvImage.wf unsettled Nat.lt_wfRel.wf)
  rintro t s ⟨v, hv, rfl⟩
  exact Nat.lt_of_succ_le (Nat.le_of_eq (unsettled_of_mem_concreteOverloads hv))

/-- **Overloads of overloads.** Take two parameters with different names, and an overload for each of
them, in any form or as a value. Each of the two overloads has in its turn one overload of the
other's variant for the other's parameter, and this is the same signature for both. Every overload
that is not generic has one parameter less to settle. So after any number of such steps there are
fewer left by that number, and there is no way of going on without end. -/
theorem specializes_in_any_order (s : Signature) :
    (∀ (i j : Nat) (p r : Parameter) (a b : Variant) (s₁ s₂ : Signature),
      s.params[i]? = some p → s.params[j]? = some r → p.name ≠ r.name →
      s.Specializes i a s₁ → s.Specializes j b s₂ →
      ∃ t, (∀ t', s₁.Specializes j b t' ↔ t' = t) ∧ ∀ t', s₂.Specializes i a t' ↔ t' = t) ∧
    (∀ v ∈ s.concreteOverloads, v.signature.unsettled + 1 = s.unsettled) ∧
    (∀ (vs : List Variant) (t : Signature), s.Expansion vs t →
      t.unsettled + vs.length = s.unsettled) ∧
    WellFounded fun t u : Signature => ∃ v ∈ u.concreteOverloads, v.signature = t := by
  refine ⟨fun i j p r a b s₁ s₂ hp hr hname h₁ h₂ => ?_,
    fun v hv => unsettled_of_mem_concreteOverloads hv, fun vs t h => unsettled_of_expansion h,
    wellFounded_concreteOverloads⟩
  obtain ⟨t, ht₁, ht₂⟩ := exists_specializes_of_specializes hp hr hname h₁ h₂
  refine ⟨t, fun t' => ⟨ht₁.unique, ?_⟩, fun t' => ⟨ht₂.unique, ?_⟩⟩
  · rintro rfl
    exact ht₁
  · rintro rfl
    exact ht₂

/-- Samples in one of two forms, as long as the target. -/
def source : Parameter where
  name := "source"
  type := .pointerTo .nothing
  qualifiers :=
    .ofList [⟨.nullable, ⟨true⟩⟩, ⟨.autoSize, ⟨"target", [], none⟩⟩, ⟨.multiType, ⟨[.short, .float]⟩⟩]

/-- Samples to mix the source into, or one level for all of them, as long as the source. -/
def target : Parameter where
  name := "target"
  type := .pointerTo (.scalar "float" .float)
  direction := .both
  qualifiers := .ofList [⟨.autoSize, ⟨"source", [], none⟩⟩, ⟨.singleValue, ⟨"source"⟩⟩]

/-- A function that mixes two buffers of one length. As a level the target has the name of the
source. -/
def mix : Signature where
  name := "mix"
  params :=
    [{ name := "size", type := .scalar "size_t" .address,
       qualifiers := .ofList [⟨.autoSize, ⟨source.name, [target.name], none⟩⟩] },
     source, target]

/-- The source as floats and the target as a level, in either order; after two steps nothing is left
to settle. -/
theorem specializes_in_any_order_mix :
    (∃ s₁ s₂ t, mix.Specializes 1 (.multiType source.name .float) s₁ ∧
      mix.Specializes 2 (.singleValue target.name) s₂ ∧
      s₁.Specializes 2 (.singleValue target.name) t ∧
      s₂.Specializes 1 (.multiType source.name .float) t) ∧
    mix.unsettled = 2 ∧ ∀ vs t, mix.Expansion vs t → t.unsettled + vs.length = 2 := by
  obtain ⟨horder, -, hrun, -⟩ := specializes_in_any_order mix
  have hcount : mix.unsettled = 2 := by decide +kernel
  refine ⟨?_, hcount, fun vs t h => hcount ▸ hrun vs t h⟩
  obtain ⟨⟨-, s₁⟩, hs₁, rfl⟩ : ∃ v ∈ mix.overloadsOf 1 source,
      v.variant = .multiType source.name .float := by decide +kernel
  obtain ⟨⟨-, s₂⟩, hs₂, rfl⟩ : ∃ v ∈ mix.overloadsOf 2 target,
      v.variant = .singleValue target.name := by decide +kernel
  obtain ⟨t, ht₁, ht₂⟩ := horder 1 2 source target _ _ s₁ s₂ rfl rfl (by decide)
    ⟨source, rfl, hs₁⟩ ⟨target, rfl, hs₂⟩
  exact ⟨s₁, s₂, t, ⟨source, rfl, hs₁⟩, ⟨target, rfl, hs₂⟩, (ht₁ t).mpr rfl, (ht₂ t).mpr rfl⟩

end Signature

end Interop
