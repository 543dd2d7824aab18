import Interop.Proofs.Generation.Lookup
import Interop.Proofs.Overload.Types
import Mathlib.Data.List.Nodup

/-!
# Interop.Proofs.Generation.Variants — telling the overloads of a function apart.

What is generated for a signature is labelled by variants: the generic one, one form of a parameter,
or the single value of a parameter. A caller that asks for an overload by its variant needs the
labels to be distinct. They are not always: the forms of a buffer are a list, which may name a form
twice; and if the generic overload is left out, two parameters of one name may each be renamed by an
overload that is accepted, and both overloads carry the label of that name.

## Main statements

* **`variants_overloads`** — the overloads of a signature by their labels, in order.
* **`nodup_variants_of_generate_iff`** — exactly when the variants of what is generated for a
  signature are distinct.
* **`not_nodup_variants_transfer_swap`** — the two ways in which they are not.
-/

namespace Interop

/-! ## §1 The variants of a parameter -/

/-- The name of the parameter that a variant speaks of. -/
def Variant.parameter? : Variant → Option String
  | generic => none
  | multiType parameter _ => some parameter
  | singleValue parameter => some parameter

theorem Variant.isGeneric_of_parameter? {x : Variant} {n : String} (h : x.parameter? = some n) :
    x.isGeneric = false := by
  cases x with
  | generic => cases h
  | _ => rfl

namespace Parameter

/-- The variants that the parameter gives rise to. -/
def variants (p : Parameter) : List Variant :=
  (if p.type.element?.isSome = true then p.forms.map (.multiType p.name) else []) ++
    if p.asValue?.isSome = true then [.singleValue p.name] else []

variable {p q : Parameter}

/-- There is a single value of the parameter exactly when it is asked for, and the parameter is a
pointer or an array and no handle. -/
theorem isSome_asValue?_iff :
    p.asValue?.isSome = true ↔ p.qualifiers.has .singleValue = true ∧
      p.type.element?.isSome = true ∧ p.type.isHandle = false := by
  have hvalue : (∃ q, p.asValue? = some q) ↔ ∃ t q, p.asValue? = some q ∧ q.type = t :=
    ⟨fun ⟨q, hq⟩ => ⟨q.type, q, hq, rfl⟩, fun ⟨_, q, hq, _⟩ => ⟨q, hq⟩⟩
  rw [Option.isSome_iff_exists, Option.isSome_iff_exists, hvalue]
  simp only [exists_asValue?_iff, exists_and_left]
  rw [and_comm (a := p.type.isHandle = false)]

/-- The variants of a parameter, read off its type and its qualifiers. -/
theorem variants_eq (p : Parameter) :
    p.variants =
      (match p.qualifiers.get? .multiType with
        | some m => if p.type.element?.isSome = true then m.forms.map (.multiType p.name) else []
        | none => []) ++
        if p.qualifiers.has .singleValue = true ∧ p.type.element?.isSome = true ∧
          p.type.isHandle = false then [.singleValue p.name] else [] := by
  rw [variants, forms]
  congr 1
  · cases p.qualifiers.get? .multiType with
    | some m => rfl
    | none => exact ite_self _
  · exact if_congr isSome_asValue?_iff rfl rfl

theorem mem_variants_iff {x : Variant} :
    x ∈ p.variants ↔
      (p.type.element?.isSome = true ∧ ∃ form ∈ p.forms, .multiType p.name form = x) ∨
        (p.asValue?.isSome = true ∧ .singleValue p.name = x) := by
  rw [variants, List.mem_append]
  refine or_congr ?_ ?_
  · by_cases helement : p.type.element?.isSome = true
    · simp [helement]
    · simp [helement]
  · by_cases hsingle : p.asValue?.isSome = true
    · simp [hsingle, eq_comm]
    · simp [hsingle]

/-- All of them speak of the parameter. -/
theorem parameter?_of_mem_variants {x : Variant} (hx : x ∈ p.variants) :
    x.parameter? = some p.name := by
  rcases mem_variants_iff.mp hx with ⟨-, form, -, rfl⟩ | ⟨-, rfl⟩
  · rfl
  · rfl

/-- The variants of one parameter repeat exactly when its forms do. -/
theorem nodup_variants_iff :
    p.variants.Nodup ↔ (p.type.element?.isSome = true → p.forms.Nodup) := by
  have hinj : Function.Injective (Variant.multiType p.name) := fun _ _ h => by
    cases h
    rfl
  have hvalue : (if p.asValue?.isSome = true then [Variant.singleValue p.name] else []).Nodup := by
    split
    · exact List.nodup_singleton _
    · exact List.nodup_nil
  rw [variants, List.nodup_append']
  refine ⟨?_, ?_⟩
  · intro h helement
    have hforms := h.1
    rw [if_pos helement] at hforms
    exact List.Nodup.of_map _ hforms
  · intro h
    refine ⟨?_, hvalue, ?_⟩
    · split
      · rename_i helement
        exact (h helement).map hinj
      · exact List.nodup_nil
    · -- a form is no single value
      rw [List.disjoint_left]
      intro x hform hsingle
      split at hform
      · obtain ⟨form, -, rfl⟩ := List.mem_map.mp hform
        split at hsingle
        · cases List.mem_singleton.mp hsingle
        · cases hsingle
      · cases hform

/-- Variants of parameters of different names differ. -/
theorem disjoint_variants (h : p.name ≠ q.name) : p.variants.Disjoint q.variants := by
  rw [List.disjoint_left]
  intro x hp hq
  have hnames := (parameter?_of_mem_variants hp).symm.trans (parameter?_of_mem_variants hq)
  exact h (Option.some.inj hnames)

/-- Two parameters without forms share a variant exactly when they have the same name and both have
a single value. -/
theorem disjoint_variants_iff (hp : p.type.element?.isSome = true → p.forms = []) :
    p.variants.Disjoint q.variants ↔
      (p.name = q.name → ¬ (p.asValue?.isSome = true ∧ q.asValue?.isSome = true)) := by
  refine ⟨?_, ?_⟩
  · intro hdisjoint hname hboth
    have hleft : .singleValue p.name ∈ p.variants := mem_variants_iff.mpr (.inr ⟨hboth.1, rfl⟩)
    have hright : .singleValue p.name ∈ q.variants :=
      mem_variants_iff.mpr (.inr ⟨hboth.2, by rw [hname]⟩)
    exact List.disjoint_left.mp hdisjoint hleft hright
  · intro h
    by_cases hname : p.name = q.name
    · rw [List.disjoint_left]
      intro x hx hx'
      rcases mem_variants_iff.mp hx with ⟨helement, form, hform, -⟩ | ⟨hsingle, rfl⟩
      · rw [hp helement] at hform
        cases hform
      · rcases mem_variants_iff.mp hx' with ⟨-, form', -, heq⟩ | ⟨hsingle', -⟩
        · cases heq
        · exact h hname ⟨hsingle, hsingle'⟩
    · exact disjoint_variants hname

end Parameter

/-! ## §2 The variants of a signature -/

namespace Signature

/-- The overloads of one parameter are labelled by its variants. -/
theorem map_variant_overloadsOf (s : Signature) (i : Nat) (p : Parameter) :
    (s.overloadsOf i p).map Overload.variant = p.variants := by
  have hform (form : Pointee) : (s.formOverload? i p form).map Overload.variant
      = if p.type.element?.isSome = true then some (.multiType p.name form) else none := by
    rw [formOverload?, Parameter.inForm?, Option.map_map, Option.map_map,
      ← CType.isSome_retarget? p.type form]
    cases p.type.retarget? form <;> rfl
  rw [overloadsOf, List.map_append, List.map_filterMap, Parameter.variants]
  simp only [hform]
  congr 1
  · split
    · rw [List.filterMap_eq_map']
    · exact List.filterMap_none _
  · rw [valueOverload?]
    cases p.asValue? <;> rfl

/-- The overloads other than the generic one are labelled by the variants of the parameters. -/
theorem map_variant_concreteOverloads (s : Signature) :
    s.concreteOverloads.map Overload.variant = s.params.flatMap Parameter.variants := by
  have hfst := List.zipIdx_map_fst 0 s.params
  calc s.concreteOverloads.map Overload.variant
      = s.params.zipIdx.flatMap fun pi => pi.1.variants := by
        rw [concreteOverloads, List.map_flatMap]
        exact List.flatMap_congr fun pi _ => s.map_variant_overloadsOf pi.2 pi.1
    _ = (s.params.zipIdx.map Prod.fst).flatMap Parameter.variants := by rw [List.flatMap_map]
    _ = s.params.flatMap Parameter.variants := by rw [hfst]

/-- **All overloads in order.** The generic overload comes first, and its signature is the given one.
Then come, parameter by parameter, one overload for each form that its qualifier lists if the
parameter is a pointer or an array, and one for its value if that is asked for and the parameter is
a pointer or an array and no handle. There are no others, whatever else is said of the
parameters. -/
theorem variants_overloads (s : Signature) :
    s.overloads.head? = some ⟨.generic, s⟩ ∧
    s.overloads.map Overload.variant = .generic :: s.params.flatMap fun p =>
      (match p.qualifiers.get? .multiType with
        | some m => if p.type.element?.isSome = true then m.forms.map (.multiType p.name) else []
        | none => []) ++
        if p.qualifiers.has .singleValue = true ∧ p.type.element?.isSome = true ∧
          p.type.isHandle = false then [.singleValue p.name] else [] := by
  refine ⟨rfl, ?_⟩
  rw [overloads, List.map_cons, map_variant_concreteOverloads]
  exact congrArg _ (List.flatMap_congr fun p _ => p.variants_eq)

/-- Three buffers, each with its forms and a single value: a typedef of a handle, a handle object
and an array of numbers. -/
def attach : Signature :=
  let qualifiers : QualifierSet := .ofList [⟨.singleValue, ⟨"one"⟩⟩, ⟨.multiType, ⟨[.int, .int]⟩⟩]
  { name := "attach"
    params := [{ name := "context", type := .handle "Context", qualifiers },
      { name := "window", type := .object "Window" false, qualifiers },
      { name := "sizes", type := .arrayOf (.scalar "int32_t" .int) 4, qualifiers }] }

/-- A typedef of a handle may be given a form, but has no value; a handle object has neither. -/
theorem variants_overloads_attach :
    attach.overloads.head? = some ⟨.generic, attach⟩ ∧
    attach.overloads.map Overload.variant =
      [.generic, .multiType "context" .int, .multiType "context" .int, .multiType "sizes" .int,
        .multiType "sizes" .int, .singleValue "sizes"] := by
  obtain ⟨hhead, hvariants⟩ := variants_overloads attach
  exact ⟨hhead, hvariants.trans (by decide +kernel)⟩

/-- None of them is generic. -/
theorem isGeneric_of_mem_concreteOverloads {s : Signature} {v : Overload}
    (hv : v ∈ s.concreteOverloads) : v.variant.isGeneric = false := by
  have hmem : v.variant ∈ s.params.flatMap Parameter.variants :=
    s.map_variant_concreteOverloads ▸ List.mem_map_of_mem hv
  obtain ⟨p, -, hp⟩ := List.mem_flatMap.mp hmem
  exact Variant.isGeneric_of_parameter? (Parameter.parameter?_of_mem_variants hp)

end Signature

/-! ## §3 The variants of what is generated -/

namespace Options

variable {o : Options} {s : Signature} {gs : List Generated}

/-- Of the overloads only the generic one is left out. -/
theorem wanted_of_expand (h : o.expand = true) :
    o.wanted s = if o.keepGeneric = true then s.overloads else s.concreteOverloads := by
  have hconcrete : s.concreteOverloads.filter (!·.variant.isGeneric) = s.concreteOverloads := by
    refine List.filter_eq_self.mpr fun v hv => ?_
    rw [Signature.isGeneric_of_mem_concreteOverloads hv]
    rfl
  rw [wanted, if_pos h]
  refine ite_congr rfl (fun _ => rfl) fun _ => ?_
  rw [Signature.overloads, List.filter_cons_of_neg (by simp [Variant.isGeneric]), hconcrete]

theorem mem_wanted_of_mem_concreteOverloads (h : o.expand = true) {v : Overload}
    (hv : v ∈ s.concreteOverloads) : v ∈ o.wanted s := by
  rw [wanted_of_expand h]
  split
  · exact List.mem_cons_of_mem _ hv
  · exact hv

/-- The generic overload repeats no other, so it does not matter whether it is kept. -/
theorem nodup_map_variant_wanted_iff :
    ((o.wanted s).map Overload.variant).Nodup ↔
      (o.expand = true → (s.concreteOverloads.map Overload.variant).Nodup) := by
  have hgeneric : Variant.generic ∉ s.concreteOverloads.map Overload.variant := by
    intro h
    obtain ⟨v, hv, heq⟩ := List.mem_map.mp h
    have hfalse := Signature.isGeneric_of_mem_concreteOverloads hv
    rw [heq] at hfalse
    cases hfalse
  by_cases hexpand : o.expand = true
  · rw [wanted_of_expand hexpand]
    split
    · rw [Signature.overloads, List.map_cons, List.nodup_cons]
      exact ⟨fun h _ => h.2, fun h => ⟨hgeneric, h hexpand⟩⟩
    · exact ⟨fun h _ => h, fun h => h hexpand⟩
  · rw [wanted, if_neg hexpand]
    refine iff_of_true ?_ fun h => absurd h hexpand
    split
    · exact List.nodup_singleton _
    · exact List.nodup_nil

/-- What is generated is labelled like the overloads that are wanted. -/
theorem map_variant_of_generate (h : o.generate s = .ok gs) :
    gs.map Generated.variant = (o.wanted s).map Overload.variant := by
  obtain ⟨-, hall⟩ := generate_eq_ok_iff.mp h
  refine List.ext_getElem? fun k => ?_
  have hk := congrArg (·[k]?) hall
  simp only [List.getElem?_map] at hk ⊢
  cases hv : (o.wanted s)[k]? with
  | none =>
    cases hg : gs[k]? with
    | none => rfl
    | some g =>
      rw [hv, hg] at hk
      cases hk
  | some v =>
    cases hg : gs[k]? with
    | none =>
      rw [hv, hg] at hk
      cases hk
    | some g =>
      rw [hv, hg, Option.map_some, Option.map_some, Option.some.injEq] at hk
      rw [Option.map_some, Option.map_some, (generateOverload_eq_ok_iff.mp hk).2.1]

/-- Every overload that is wanted has been frozen. -/
theorem exists_freeze_of_mem_wanted (h : o.generate s = .ok gs) {v : Overload}
    (hv : v ∈ o.wanted s) : ∃ f, v.signature.freeze o.checkReferences = .ok f := by
  obtain ⟨-, hall⟩ := generate_eq_ok_iff.mp h
  have hmem : o.generateOverload v ∈ gs.map .ok := hall ▸ List.mem_map_of_mem hv
  obtain ⟨g, -, hg⟩ := List.mem_map.mp hmem
  obtain ⟨hfault, -, -⟩ := generateOverload_eq_ok_iff.mp hg.symm
  exact Signature.exists_freeze_iff.mpr (Signature.fault?_eq_none_iff.mp hfault)

/-- So its names are distinct. -/
theorem nodup_names_of_mem_wanted (h : o.generate s = .ok gs) {v : Overload}
    (hv : v ∈ o.wanted s) : v.signature.names.Nodup :=
  (Signature.exists_freeze_iff.mp (exists_freeze_of_mem_wanted h hv)).1

/-- Where some buffer is generated in one of its forms, the names of the signature are distinct:
the form has the names of the signature. -/
theorem nodup_names_of_mem_forms (h : o.generate s = .ok gs) (hexpand : o.expand = true)
    {p : Parameter} (hp : p ∈ s.params) (helement : p.type.element?.isSome = true)
    {form : Pointee} (hform : form ∈ p.forms) : s.names.Nodup := by
  obtain ⟨i, hi⟩ := List.mem_iff_getElem?.mp hp
  obtain ⟨t, ht⟩ := Option.isSome_iff_exists.mp ((p.type.isSome_retarget? form).trans helement)
  have hq : p.inForm? form = some (p.retype t p.name).dropArrayKinds :=
    Parameter.inForm?_eq_some_iff.mpr ⟨t, ht, rfl⟩
  have hsome : s.formOverload? i p form = some ⟨.multiType p.name form, s.withForm i p _ form⟩ :=
    Signature.formOverload?_eq_some_iff.mpr ⟨_, hq, rfl⟩
  have hv := Signature.mem_concreteOverloads_iff.mpr ⟨i, p, hi, .inl ⟨form, hform, hsome⟩⟩
  have hnodup := nodup_names_of_mem_wanted h (mem_wanted_of_mem_concreteOverloads hexpand hv)
  rwa [Signature.names_withForm hi hq] at hnodup

/-- **When overloads can be told apart.** Let a signature be generated without a fault. The variants
of its functions are distinct exactly when, if signatures are expanded at all, no pointer or array
lists one of its forms twice, and no two parameters of one name both have a single value. -/
theorem nodup_variants_of_generate_iff (h : o.generate s = .ok gs) :
    (gs.map Generated.variant).Nodup ↔
      (o.expand = true →
        (∀ p ∈ s.params, p.type.element?.isSome = true → p.forms.Nodup) ∧
        s.params.Pairwise fun p q =>
          p.name = q.name → ¬ (p.asValue?.isSome = true ∧ q.asValue?.isSome = true)) := by
  rw [map_variant_of_generate h, nodup_map_variant_wanted_iff]
  refine imp_congr_right fun hexpand => ?_
  rw [Signature.map_variant_concreteOverloads, List.nodup_flatMap]
  refine and_congr (forall₂_congr fun p _ => Parameter.nodup_variants_iff) ?_
  by_cases hd : s.names.Nodup
  · -- no two parameters share their name, so both sides hold
    have hne : s.params.Pairwise fun p q => p.name ≠ q.name := List.pairwise_map.mp hd
    exact iff_of_true (hne.imp Parameter.disjoint_variants)
      (hne.imp fun hne heq => absurd heq hne)
  · -- the overload for a form would repeat a name like the signature, so there is none
    refine List.Pairwise.iff_of_mem fun {p q} hp _ => Parameter.disjoint_variants_iff ?_
    intro helement
    refine List.eq_nil_iff_forall_not_mem.mpr fun form hform => ?_
    exact hd (nodup_names_of_mem_forms h hexpand hp helement hform)

/-- The three functions of an upload have distinct variants. -/
theorem nodup_variants_of_generate_iff_upload :
    ∃ gs, ({} : Options).generate Signature.upload = .ok gs ∧
      (gs.map Generated.variant).Nodup := by
  have hforms : ∀ p ∈ Signature.upload.params, p.type.element?.isSome = true → p.forms.Nodup := by
    decide +kernel
  have hsingle : Signature.upload.params.Pairwise fun p q =>
      p.name = q.name → ¬ (p.asValue?.isSome = true ∧ q.asValue?.isSome = true) := by
    decide +kernel
  obtain ⟨gs, hgs⟩ : ∃ gs, ({} : Options).generate Signature.upload = .ok gs :=
    Generation.exists_ok_of_isSome (by decide +kernel)
  exact ⟨gs, hgs, (nodup_variants_of_generate_iff hgs).mpr fun _ => ⟨hforms, hsingle⟩⟩

end Options

/-- A buffer that lists one of its forms twice. -/
def Signature.transfer : Signature where
  name := "transfer"
  params :=
    [{ name := "data", type := .pointerTo .nothing,
       qualifiers := .ofList [⟨.multiType, ⟨[.int, .int]⟩⟩] }]

/-- Two buffers of one name, which may each be passed as one value under a name of its own. -/
def Signature.swap : Signature where
  name := "swap"
  params :=
    [{ name := "data", type := .pointerTo (.scalar "int32_t" .int),
       qualifiers := .ofList [⟨.singleValue, ⟨"left"⟩⟩] },
     { name := "data", type := .pointerTo (.scalar "int32_t" .int),
       qualifiers := .ofList [⟨.singleValue, ⟨"right"⟩⟩] }]

/-- **Variants may repeat.** A form that is listed twice is generated twice under one variant; and
where the generic overload is left out, so are the single values of two parameters of one name. -/
theorem Options.not_nodup_variants_transfer_swap :
    (∃ gs, ({} : Options).generate Signature.transfer = .ok gs ∧
      ¬ (gs.map Generated.variant).Nodup) ∧
    ∃ gs, ({ keepGeneric := false } : Options).generate Signature.swap = .ok gs ∧
      ¬ (gs.map Generated.variant).Nodup := by
  have hrepeats (o : Options) (s : Signature)
      (h : ∃ gs ∈ (o.generate s).toOption, ¬ (gs.map Generated.variant).Nodup) :
      ∃ gs, o.generate s = .ok gs ∧ ¬ (gs.map Generated.variant).Nodup := by
    obtain ⟨gs, hgs, hrepeat⟩ := h
    exact ⟨gs, Generation.eq_ok_of_mem_toOption hgs, hrepeat⟩
  exact ⟨hrepeats _ _ (by decide +kernel), hrepeats _ _ (by decide +kernel)⟩

end Interop
