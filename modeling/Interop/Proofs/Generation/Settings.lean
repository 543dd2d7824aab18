import Interop.Proofs.Generation.Outcome

/-!
# Interop.Proofs.Generation.Settings — one signature under all settings.

The settings decide which overloads are wanted, and how strictly each of them is looked at. They do
not change an overload: what is wanted under some settings is what is wanted under all of them, less
the variants that are left out, and a signature that passes the strict check passes the other one
with the same prototype. So a signature that is generated in full needs to be generated only once.
Under any other settings it gives the same functions, less those of the variants left out, and it
is refused only where none is left.

Nothing is said of a signature that fails in full. There the settings do matter: an overload that is
left out cannot be refused.

## Main statements

* **`generate_eq_of_full`** — the outcome under any settings, from the one in full.
* **`generate_settings`** — the same, setting by setting.
-/

namespace Interop

namespace Options

variable {o o' : Options} {s : Signature} {gs : List Generated} {binding : Option Binding}

/-! ## §1 What the settings leave out -/

/-- The settings leave functions of this variant in: the generic one if it is kept, any other if
signatures are expanded. -/
def keeps (o : Options) (x : Variant) : Bool := if x.isGeneric then o.keepGeneric else o.expand

/-- Of a list with one generic member, in front, the settings leave in this member, the others, both
or nothing. -/
theorem filter_keeps {α : Type} (o : Options) (variant : α → Variant) {x : α} {xs : List α}
    (hx : variant x = .generic) (hxs : ∀ y ∈ xs, (variant y).isGeneric = false) :
    (x :: xs).filter (fun y => o.keeps (variant y))
      = (if o.keepGeneric = true then [x] else []) ++ if o.expand = true then xs else [] := by
  have hgeneric : o.keeps (variant x) = o.keepGeneric := by
    rw [hx]
    rfl
  have hothers {y : α} (hy : y ∈ xs) : o.keeps (variant y) = o.expand := by
    rw [keeps, hxs y hy]
    rfl
  have hrest : xs.filter (fun y => o.keeps (variant y)) = if o.expand = true then xs else [] := by
    split
    · rename_i hexpand
      exact List.filter_eq_self.mpr fun y hy => (hothers hy).trans hexpand
    · rename_i hexpand
      exact List.filter_eq_nil_iff.mpr fun y hy => by rwa [hothers hy]
  rw [List.filter_cons, hgeneric, hrest]
  split
  · rfl
  · rfl

/-- **Settings leave out overloads** and do nothing else to them. -/
theorem wanted_eq_filter (o : Options) (s : Signature) :
    o.wanted s = s.overloads.filter (o.keeps ·.variant) := by
  rw [wanted_eq]
  have hconcrete : ∀ v ∈ s.concreteOverloads, v.variant.isGeneric = false :=
    fun _ => Signature.isGeneric_of_mem_concreteOverloads
  exact (o.filter_keeps Overload.variant rfl hconcrete).symm

/-! ## §2 What a full run decides -/

/-- **The strict check implies the other one.** An overload is generated the same without the check
of references. -/
theorem generateOverload_of_checkReferences
    (hcheck : o'.checkReferences = true → o.checkReferences = true) {v : Overload} {g : Generated}
    (h : o.generateOverload v = .ok g) : o'.generateOverload v = .ok g := by
  obtain ⟨hfault, hvariant, hsignature⟩ := generateOverload_eq_ok_iff.mp h
  obtain ⟨hnodup, hreferences⟩ := Signature.fault?_eq_none_iff.mp hfault
  refine generateOverload_eq_ok_iff.mpr ⟨?_, hvariant, hsignature⟩
  exact Signature.fault?_eq_none_iff.mpr ⟨hnodup, fun h => hreferences (hcheck h)⟩

/-- What is generated from the overloads of some variants is what those overloads have among the
functions of all. -/
theorem map_generateOverload_filter
    (hcheck : o'.checkReferences = true → o.checkReferences = true) (keep : Variant → Bool)
    {vs : List Overload} (h : vs.map o.generateOverload = gs.map .ok) :
    (vs.filter (keep ·.variant)).map o'.generateOverload
      = (gs.filter (keep ·.variant)).map .ok := by
  -- on the overloads, and in step with them on the functions
  induction vs generalizing gs with
  | nil =>
    rw [List.map_eq_nil_iff.mp h.symm]
    rfl
  | cons v vs ih =>
    cases gs with
    | nil => cases h
    | cons g gs =>
      rw [List.map_cons, List.map_cons, List.cons.injEq] at h
      obtain ⟨hv, hvs⟩ := h
      -- an overload and its function bear the same variant, so both stay or neither does
      have hvariant : g.variant = v.variant := (generateOverload_eq_ok_iff.mp hv).2.1
      rw [List.filter_cons, List.filter_cons, hvariant]
      split
      · rw [List.map_cons, List.map_cons, generateOverload_of_checkReferences hcheck hv, ih hvs]
      · exact ih hvs

/-- A signature is generated in full exactly when every overload is. -/
theorem generate_full_iff :
    ({ binding } : Options).generate s = .ok gs ↔
      s.overloads.map ({ binding } : Options).generateOverload = gs.map .ok := by
  rw [generate_eq_ok_iff]
  exact and_iff_right (List.cons_ne_nil _ _)

/-- **A full run decides all others.** Under any settings a signature gives its functions of the
variants that are left in. Where there are none, it is refused for that. -/
theorem generate_eq_of_full (h : ({ binding } : Options).generate s = .ok gs) (o : Options) :
    o.generate s = if gs.filter (o.keeps ·.variant) = [] then .error (.noVariants s.name)
      else .ok (gs.filter (o.keeps ·.variant)) := by
  have hall : (o.wanted s).map o.generateOverload = (gs.filter (o.keeps ·.variant)).map .ok := by
    rw [wanted_eq_filter]
    exact map_generateOverload_filter (fun _ => rfl) o.keeps (generate_full_iff.mp h)
  have hnone : o.wanted s = [] ↔ gs.filter (o.keeps ·.variant) = [] := by
    rw [← List.map_eq_nil_iff, hall, List.map_eq_nil_iff]
  split
  · rename_i hempty
    exact generate_eq_error_iff.mpr (.inl ⟨hnone.mpr hempty, rfl⟩)
  · rename_i hsome
    exact generate_eq_ok_iff.mpr ⟨fun h => hsome (hnone.mp h), hall⟩

/-- A full run gives the generic function first, and then no other generic one. -/
theorem exists_cons_of_full (h : ({ binding } : Options).generate s = .ok gs) :
    ∃ g rest, gs = g :: rest ∧ g.variant = .generic ∧ ∀ r ∈ rest, r.variant.isGeneric = false := by
  have hvariants : gs.map Generated.variant
      = .generic :: s.concreteOverloads.map Overload.variant := map_variant_of_generate h
  obtain ⟨g, rest, rfl, hg, hrest⟩ := List.map_eq_cons_iff.mp hvariants
  refine ⟨g, rest, rfl, hg, fun r hr => ?_⟩
  have hmem : r.variant ∈ s.concreteOverloads.map Overload.variant :=
    hrest ▸ List.mem_map_of_mem hr
  obtain ⟨v, hv, heq⟩ := List.mem_map.mp hmem
  rw [← heq]
  exact Signature.isGeneric_of_mem_concreteOverloads hv

/-! ## §3 Setting by setting -/

/-- **What each setting does.** Let a signature be generated in full. Its first function is the
generic one, and no other is. With the check of references or without it, the functions are the
same. If signatures are not expanded there is the first function alone. If the generic one is not
kept there are the others, and if there are no others the signature is refused, as it always is
where neither is asked for. -/
theorem generate_settings (h : ({ binding } : Options).generate s = .ok gs) :
    ∃ g rest, gs = g :: rest ∧ g.variant = .generic ∧
      (∀ r ∈ rest, r.variant.isGeneric = false) ∧
      ∀ checkReferences,
        ({ binding, checkReferences } : Options).generate s = .ok gs ∧
        ({ binding, checkReferences, expand := false } : Options).generate s = .ok [g] ∧
        ({ binding, checkReferences, keepGeneric := false } : Options).generate s
          = (if rest = [] then .error (.noVariants s.name) else .ok rest) ∧
        ({ binding, checkReferences, expand := false, keepGeneric := false } : Options).generate s
          = .error (.noVariants s.name) := by
  obtain ⟨g, rest, rfl, hg, hrest⟩ := exists_cons_of_full h
  -- the four cases are values of one formula in the two settings that leave functions out
  have hrun (o : Options) : o.generate s =
      let left := (if o.keepGeneric = true then [g] else []) ++ if o.expand = true then rest else []
      if left = [] then .error (.noVariants s.name) else .ok left := by
    rw [generate_eq_of_full h, o.filter_keeps Generated.variant hg hrest]
  exact ⟨g, rest, rfl, hg, hrest, fun _ => ⟨hrun _, hrun _, hrun _, hrun _⟩⟩

/-- An upload is generated in full as three functions, of which the last two are left where the
generic one is not kept. -/
theorem generate_settings_upload :
    ∃ g rest, ({} : Options).generate Signature.upload = .ok (g :: rest) ∧
      g.variant = .generic ∧ rest.length = 2 ∧
      ({ checkReferences := false } : Options).generate Signature.upload = .ok (g :: rest) ∧
      ({ expand := false } : Options).generate Signature.upload = .ok [g] ∧
      ({ keepGeneric := false } : Options).generate Signature.upload = .ok rest ∧
      ({ expand := false, keepGeneric := false } : Options).generate Signature.upload
        = .error (.noVariants "upload") := by
  obtain ⟨gs, hgs⟩ : ∃ gs, ({} : Options).generate Signature.upload = .ok gs :=
    Generation.exists_ok_of_isSome (by decide +kernel)
  obtain ⟨g, rest, rfl, hg, -, hall⟩ := generate_settings hgs
  have htwo : rest.length = 2 := by
    have hwanted : (({} : Options).wanted Signature.upload).length = 3 := by decide +kernel
    have hlength := congrArg List.length (map_variant_of_generate hgs)
    rw [List.length_map, List.length_map, hwanted, List.length_cons] at hlength
    omega
  have hne : rest ≠ [] := List.ne_nil_of_length_pos (by omega)
  obtain ⟨-, hgeneric, hconcrete, hneither⟩ := hall true
  rw [if_neg hne] at hconcrete
  exact ⟨g, rest, hgs, hg, htwo, (hall false).1, hgeneric, hconcrete, hneither⟩

end Options

end Interop
