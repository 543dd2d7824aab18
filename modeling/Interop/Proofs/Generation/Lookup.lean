import Interop.Generation
import Interop.Proofs.Signature.Faults

/-!
# Interop.Proofs.Generation.Lookup — finding parameters in what is generated.

A run over many signatures either gives all their functions or reports faults. Its loop collects
both, signature by signature. Here a run that gives functions is taken apart: it is the list of what
its signatures give, each of these is the list of its wanted overloads, and each overload has been
frozen. What freezing promises thus holds of every
function of every run, whatever overload it is.

## Main statements

* **`foldl_step`** — what the loop of a run has collected.
* **`generateAll_eq_ok_iff`** — what a successful run consists of.
* **`lookup_of_generateAll`** — in a generated function every parameter is found under its name, and
  so is, if references are checked, everything that a qualifier mentions.
-/

namespace Interop

/-! ## §1 Parameters of a prototype -/

namespace Prototype

/-- **Nothing is shadowed.** The first parameter with the name of the one at place `i` is that
one. -/
theorem findIdx?_name {f : Prototype} {i : Nat} {p : Parameter} (h : f.params[i]? = some p) :
    f.params.findIdx? (fun q => q.name = p.name) = some i := by
  obtain ⟨hi, hp⟩ := List.getElem?_eq_some_iff.mp h
  rw [List.findIdx?_eq_some_iff_getElem]
  refine ⟨hi, by simp [hp], fun j hji => ?_⟩
  have hj : j < f.params.length := Nat.lt_trans hji hi
  have hne : f.params[j].name ≠ f.params[i].name :=
    List.pairwise_iff_getElem.mp (List.pairwise_map.mp f.nodup_names) j i hj hi hji
  rw [hp] at hne
  simpa using hne

/-- A parameter is found under exactly the names of the signature. -/
theorem isSome_find?_iff {f : Prototype} {n : String} :
    (f.find? n).isSome = true ↔ ∃ p ∈ f.params, p.name = n := by
  rw [find?, Signature.find?, List.find?_isSome]
  simp only [decide_eq_true_eq]
  rfl

end Prototype

/-! ## §2 Runs that succeed -/

namespace Generation

/-- A computation goes through a list exactly when it succeeds on every member, and then it gives
the list of the results. -/
theorem mapM_eq_ok_iff {ε α β : Type} {f : α → Except ε β} {xs : List α} {ys : List β} :
    xs.mapM f = .ok ys ↔ xs.map f = ys.map .ok := by
  induction xs generalizing ys with
  | nil => cases ys <;> simp [pure, Except.pure]
  | cons x xs ih =>
    rw [List.mapM_cons, List.map_cons]
    cases hx : f x with
    | error e => cases ys <;> simp [bind, Except.bind]
    | ok y =>
      cases hxs : xs.mapM f with
      | error e =>
        have hne (zs : List β) : xs.map f ≠ zs.map .ok := fun h => by
          rw [ih.mpr h] at hxs
          cases hxs
        cases ys <;> simp [bind, Except.bind, hne]
      | ok zs =>
        rw [ih.mp hxs]
        cases ys with
        | nil => simp [bind, Except.bind, pure, Except.pure]
        | cons y' ys =>
          simp [bind, Except.bind, pure, Except.pure,
            List.map_inj_right fun _ _ h => Except.ok.inj h]

/-- An outcome that has a result is good. -/
theorem eq_ok_of_mem_toOption {ε α : Type} {out : Except ε α} {a : α} (h : a ∈ out.toOption) :
    out = .ok a := by
  cases out with
  | error e => cases h
  | ok b =>
    cases h
    rfl

theorem exists_ok_of_isSome {ε α : Type} {out : Except ε α} (h : out.toOption.isSome = true) :
    ∃ a, out = .ok a := by
  obtain ⟨a, ha⟩ := Option.isSome_iff_exists.mp h
  exact ⟨a, eq_ok_of_mem_toOption ha⟩

/-- Outcomes that are all good are the outcomes of a list of results. -/
theorem exists_eq_map_ok {ε α : Type} {outs : List (Except ε α)}
    (h : ∀ out ∈ outs, ∃ a, out = .ok a) : ∃ as : List α, outs = as.map .ok := by
  induction outs with
  | nil => exact ⟨[], rfl⟩
  | cons out outs ih =>
    obtain ⟨a, rfl⟩ := h out List.mem_cons_self
    obtain ⟨as, rfl⟩ := ih fun out hout => h out (List.mem_cons_of_mem _ hout)
    exact ⟨a :: as, rfl⟩

end Generation

namespace Options

variable {o : Options}

/-- An overload is generated exactly when its signature has no fault, and then unchanged. -/
theorem generateOverload_eq_ok_iff {v : Overload} {g : Generated} :
    o.generateOverload v = .ok g ↔
      v.signature.fault? o.checkReferences = none ∧ g.variant = v.variant ∧
        g.prototype.signature = v.signature := by
  unfold generateOverload
  cases hf : v.signature.freeze o.checkReferences with
  | error e =>
    rw [Signature.freeze_eq_error_iff] at hf
    simp [hf]
  | ok f =>
    obtain ⟨hfault, hsig⟩ := Signature.freeze_eq_ok_iff.mp hf
    obtain ⟨w, f'⟩ := g
    simp only [Except.ok.injEq, Generated.mk.injEq, hfault, true_and]
    refine ⟨?_, ?_⟩
    · intro hx
      obtain ⟨rfl, rfl⟩ := hx
      exact ⟨rfl, hsig⟩
    · intro hx
      obtain ⟨rfl, h⟩ := hx
      have hsame : f' = f := Prototype.eq_of_signature (h.trans hsig.symm)
      rw [hsame]
      exact ⟨rfl, rfl⟩

/-- A signature is generated exactly when some overload is wanted and every wanted one is
generated. -/
theorem generate_eq_ok_iff {s : Signature} {gs : List Generated} :
    o.generate s = .ok gs ↔
      o.wanted s ≠ [] ∧ (o.wanted s).map o.generateOverload = gs.map .ok := by
  unfold generate
  split
  · rename_i h
    simp [h]
  · rename_i hne
    rw [Generation.mapM_eq_ok_iff]
    exact ⟨fun h => ⟨hne, h⟩, And.right⟩

/-- The functions of the signatures of a list that can be generated, in order. -/
def generated (o : Options) (ss : List Signature) : List Generated :=
  (ss.map o.generate).flatMap fun | .ok gs => gs | .error _ => []

/-- The faults of the signatures of a list that cannot be generated, in order. -/
def faults (o : Options) (ss : List Signature) : List Generation.Fault :=
  (ss.map o.generate).filterMap fun | .error e => some e | .ok _ => none

theorem generated_append (o : Options) (ss ts : List Signature) :
    o.generated (ss ++ ts) = o.generated ss ++ o.generated ts := by
  simp [generated]

theorem faults_append (o : Options) (ss ts : List Signature) :
    o.faults (ss ++ ts) = o.faults ss ++ o.faults ts := by
  simp [faults]

/-- One step adds what one signature gives. -/
theorem step_eq (o : Options) (p : Generation.Progress) (s : Signature) :
    o.step p s = ⟨p.generated ++ o.generated [s], p.faults ++ o.faults [s]⟩ := by
  cases h : o.generate s <;> simp [step, generated, faults, h]

/-- **The loop of a run.** Wherever a run stands, over a list it adds what the signatures of the
list give. -/
theorem foldl_step (o : Options) (p : Generation.Progress) (ss : List Signature) :
    ss.foldl o.step p = ⟨p.generated ++ o.generated ss, p.faults ++ o.faults ss⟩ := by
  induction ss generalizing p with
  | nil => simp [generated, faults]
  | cons s ss ih =>
    have hgenerated : o.generated (s :: ss) = _ := o.generated_append [s] ss
    have hfaults : o.faults (s :: ss) = _ := o.faults_append [s] ss
    rw [List.foldl_cons, ih, step_eq, hgenerated, hfaults, List.append_assoc, List.append_assoc]

theorem generateAll_eq (o : Options) (ss : List Signature) :
    o.generateAll ss
      = if (o.faults ss).isEmpty then .ok (o.generated ss) else .error (o.faults ss) := by
  rw [generateAll, foldl_step]
  rfl

/-- **What a successful run consists of.** A run succeeds exactly when it succeeds on every
signature, and then it gives their functions one signature after the other. -/
theorem generateAll_eq_ok_iff {ss : List Signature} {gs : List Generated} :
    o.generateAll ss = .ok gs ↔
      ∃ gss : List (List Generated), ss.map o.generate = gss.map .ok ∧ gs = gss.flatten := by
  have hok {gss : List (List Generated)} (h : ss.map o.generate = gss.map .ok) :
      o.generateAll ss = .ok gss.flatten := by
    simp [generateAll_eq, generated, faults, h, List.filterMap_map, List.flatMap_map]
  refine ⟨?_, ?_⟩
  · intro h
    -- a run that succeeds has collected no faults, so no outcome is one
    have hall : ∀ out ∈ ss.map o.generate, ∃ gs, out = .ok gs := by
      intro out hout
      rw [generateAll_eq] at h
      split at h
      · rename_i hfaults
        rw [List.isEmpty_iff, faults, List.filterMap_eq_nil_iff] at hfaults
        cases out with
        | error e => cases hfaults _ hout
        | ok gs => exact ⟨gs, rfl⟩
      · cases h
    obtain ⟨gss, hgss⟩ := Generation.exists_eq_map_ok hall
    rw [hok hgss] at h
    exact ⟨gss, hgss, (Except.ok.inj h).symm⟩
  · intro hx
    obtain ⟨gss, hss, rfl⟩ := hx
    exact hok hss

/-- Every generated function is a wanted overload of one of the signatures. -/
theorem exists_wanted_of_mem {ss : List Signature} {gs : List Generated}
    (h : o.generateAll ss = .ok gs) {g : Generated} (hg : g ∈ gs) :
    ∃ s ∈ ss, ∃ v ∈ o.wanted s, o.generateOverload v = .ok g := by
  -- from the function to the functions of its signature, and from these to its overload
  obtain ⟨gss, hss, rfl⟩ := generateAll_eq_ok_iff.mp h
  obtain ⟨gs, hgs, hg⟩ := List.mem_flatten.mp hg
  obtain ⟨s, hs, hgen⟩ := List.mem_map.mp (hss ▸ List.mem_map_of_mem hgs)
  obtain ⟨-, hwanted⟩ := generate_eq_ok_iff.mp hgen
  obtain ⟨v, hv, hone⟩ := List.mem_map.mp (hwanted ▸ List.mem_map_of_mem hg)
  exact ⟨s, hs, v, hv, hone⟩

/-! ## §3 Looking parameters up -/

/-- **Every name leads to its parameter.** A function of a successful run is some wanted overload of
some signature, be it the generic one or one that is specialised. In it the parameter at each place
is the one found under its name, so none is shadowed; and if references are checked, every name that
a qualifier mentions leads to a parameter too. -/
theorem lookup_of_generateAll {ss : List Signature} {gs : List Generated}
    (h : o.generateAll ss = .ok gs) :
    ∀ g ∈ gs,
      (∃ s ∈ ss, ∃ v ∈ o.wanted s, v.variant = g.variant ∧ v.signature = g.prototype.signature) ∧
      (∀ i p, g.prototype.params[i]? = some p →
        g.prototype.find? p.name = some p ∧
          g.prototype.params.findIdx? (fun q => q.name = p.name) = some i) ∧
      (o.checkReferences = true → ∀ p ∈ g.prototype.params, ∀ q ∈ p.qualifiers.toList,
        ∀ t ∈ q.references, (g.prototype.find? t).isSome = true) := by
  intro g hg
  obtain ⟨s, hs, v, hv, hgen⟩ := exists_wanted_of_mem h hg
  obtain ⟨hfault, hvariant, hsig⟩ := generateOverload_eq_ok_iff.mp hgen
  refine ⟨⟨s, hs, v, hv, hvariant.symm, hsig.symm⟩, ?_, ?_⟩
  · intro i p hp
    exact ⟨Prototype.find?_name (List.mem_of_getElem? hp), Prototype.findIdx?_name hp⟩
  · intro hcheck p hp q hq t ht
    have hresolve : g.prototype.signature.ReferencesResolve := by
      rw [hsig]
      exact (Signature.fault?_eq_none_iff.mp hfault).2 hcheck
    exact Prototype.isSome_find?_iff.mpr (hresolve p hp q hq t ht)

end Options

/-- An upload: the length of a buffer, and the buffer, which may be passed as floats or as one
value. -/
def Signature.upload : Signature where
  name := "upload"
  params :=
    [{ name := "size", type := .scalar "size_t" .address,
       qualifiers := .ofList [⟨.autoSize, ⟨"data", [], none⟩⟩] },
     { name := "data", type := .pointerTo (.scalar "float" .float),
       qualifiers := .ofList [⟨.multiType, ⟨[.float]⟩⟩, ⟨.singleValue, ⟨"datum"⟩⟩] }]

/-- The three functions of an upload can be looked up in, and in the generic one the size leads to
its buffer. -/
theorem Options.lookup_of_generateAll_upload :
    ∃ gs, ({} : Options).generateAll [Signature.upload] = .ok gs ∧ gs.length = 3 ∧
      (∀ g ∈ gs,
        (∃ s ∈ [Signature.upload], ∃ v ∈ ({} : Options).wanted s,
          v.variant = g.variant ∧ v.signature = g.prototype.signature) ∧
        (∀ i p, g.prototype.params[i]? = some p →
          g.prototype.find? p.name = some p ∧
            g.prototype.params.findIdx? (fun q => q.name = p.name) = some i) ∧
        (({} : Options).checkReferences = true → ∀ p ∈ g.prototype.params,
          ∀ q ∈ p.qualifiers.toList, ∀ t ∈ q.references,
            (g.prototype.find? t).isSome = true)) ∧
      ∃ g ∈ gs, g.variant = .generic ∧
        ∃ p ∈ g.prototype.params, ∃ q ∈ p.qualifiers.toList, "data" ∈ q.references ∧
          (g.prototype.find? "data").isSome = true := by
  have hrun : ∃ gs ∈ (({} : Options).generateAll [Signature.upload]).toOption,
      gs.length = 3 ∧ ∃ g ∈ gs, g.variant = .generic ∧
        ∃ p ∈ g.prototype.params, ∃ q ∈ p.qualifiers.toList, "data" ∈ q.references := by
    decide +kernel
  obtain ⟨gs, hgs, hlength, g, hg, hgeneric, p, hp, q, hq, hdata⟩ := hrun
  have hok := Generation.eq_ok_of_mem_toOption hgs
  have hall := Options.lookup_of_generateAll hok
  have hfound : (g.prototype.find? "data").isSome = true :=
    (hall g hg).2.2 rfl p hp q hq "data" hdata
  exact ⟨gs, hok, hlength, hall, g, hg, hgeneric, p, hp, q, hq, hdata, hfound⟩

end Interop
