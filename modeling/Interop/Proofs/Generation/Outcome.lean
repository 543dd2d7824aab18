import Interop.Proofs.Generation.Variants

/-!
# Interop.Proofs.Generation.Outcome — what a run comes to.

A run goes through its signatures in order and keeps going when one of them fails, so that a caller
sees all faults at once. Within one signature it is the other way round: the first overload that
cannot be frozen decides, and the rest are not looked at. Here both are said of every run. Nothing
that happens to one signature has an effect on another: the outcome of a run over two lists is put
together from the outcomes of the two runs, whatever they are.

Of a run that fails the functions of the other signatures are not handed out; what they would have
been is a matter of the runs over those signatures alone.

## Main statements

* **`generate_eq_error_iff`** — which fault a signature is refused for.
* **`generateAll_outcome`** — what a run gives, from what its signatures give.
-/

namespace Interop

/-! ## §1 The first failure of a computation -/

namespace Generation

/-- A computation fails on a list exactly when it fails on some member and succeeds on all members
in front of it; its failure is that of this member. -/
theorem mapM_eq_error_iff {ε α β : Type} {f : α → Except ε β} {xs : List α} {e : ε} :
    xs.mapM f = .error e ↔
      ∃ pre x post, xs = pre ++ x :: post ∧ (∀ y ∈ pre, ∃ b, f y = .ok b) ∧ f x = .error e := by
  induction xs with
  | nil => simp [pure, Except.pure]
  | cons x xs ih =>
    rw [List.mapM_cons]
    cases hx : f x with
    | error e' =>
      -- the head decides: a member further back has the head in front of it
      show Except.error e' = Except.error e ↔ _
      refine ⟨?_, ?_⟩
      · intro h
        cases h
        exact ⟨[], x, xs, rfl, fun y hy => absurd hy List.not_mem_nil, hx⟩
      · rintro ⟨pre, y, post, hsplit, hpre, hy⟩
        cases pre with
        | nil =>
          cases hsplit
          rw [hx, Except.error.injEq] at hy
          rw [hy]
        | cons z pre =>
          cases hsplit
          obtain ⟨b, hb⟩ := hpre x List.mem_cons_self
          rw [hx] at hb
          cases hb
    | ok b =>
      -- the head succeeds, so the failure is one of the rest
      have hrest : (do let c ← Except.ok b; let cs ← xs.mapM f; pure (c :: cs)) = Except.error e
          ↔ xs.mapM f = .error e := by
        cases xs.mapM f with
        | error e' => exact Iff.rfl
        | ok cs => exact iff_of_false nofun nofun
      rw [hrest, ih]
      refine ⟨?_, ?_⟩
      · rintro ⟨pre, y, post, rfl, hpre, hy⟩
        exact ⟨x :: pre, y, post, rfl, List.forall_mem_cons.mpr ⟨⟨b, hx⟩, hpre⟩, hy⟩
      · rintro ⟨pre, y, post, hsplit, hpre, hy⟩
        cases pre with
        | nil =>
          cases hsplit
          rw [hx] at hy
          cases hy
        | cons z pre =>
          cases hsplit
          exact ⟨pre, y, post, rfl, (List.forall_mem_cons.mp hpre).2, hy⟩

end Generation

/-! ## §2 One signature -/

namespace Options

variable {o : Options} {s : Signature}

/-- **The overloads that are wanted**: the generic one if it is kept, and then the others if
signatures are expanded. -/
theorem wanted_eq (o : Options) (s : Signature) :
    o.wanted s = (if o.keepGeneric = true then [⟨.generic, s⟩] else []) ++
      if o.expand = true then s.concreteOverloads else [] := by
  by_cases hexpand : o.expand = true
  · rw [wanted_of_expand hexpand, if_pos hexpand]
    split
    · rfl
    · rfl
  · rw [wanted, if_neg hexpand, if_neg hexpand]
    split
    · rfl
    · rfl

/-- An overload is refused exactly for the fault of its signature. -/
theorem generateOverload_eq_error_iff {v : Overload} {e : Generation.Fault} :
    o.generateOverload v = .error e ↔
      ∃ fault, v.signature.freeze o.checkReferences = .error fault ∧ e = .signature fault := by
  unfold generateOverload
  cases v.signature.freeze o.checkReferences with
  | error fault => simp [eq_comm]
  | ok f => simp

theorem exists_generateOverload_iff {v : Overload} :
    (∃ g, o.generateOverload v = .ok g) ↔
      ∃ f, v.signature.freeze o.checkReferences = .ok f := by
  unfold generateOverload
  cases v.signature.freeze o.checkReferences with
  | error fault => simp
  | ok f => simp

/-- **Why a signature is refused.** Either no overload is wanted, or some overload cannot be frozen
although all in front of it can; the fault is then that of this overload. -/
theorem generate_eq_error_iff {e : Generation.Fault} :
    o.generate s = .error e ↔
      (o.wanted s = [] ∧ e = .noVariants s.name) ∨
      ∃ pre v post fault, o.wanted s = pre ++ v :: post ∧
        (∀ w ∈ pre, ∃ f, w.signature.freeze o.checkReferences = .ok f) ∧
        v.signature.freeze o.checkReferences = .error fault ∧ e = .signature fault := by
  unfold generate
  split
  · rename_i hnone
    simp [hnone, eq_comm]
  · rename_i hsome
    rw [Generation.mapM_eq_error_iff, or_iff_right fun h => hsome h.1]
    simp only [generateOverload_eq_error_iff, exists_generateOverload_iff]
    refine ⟨?_, ?_⟩
    · rintro ⟨pre, v, post, hsplit, hpre, fault, hfault, he⟩
      exact ⟨pre, v, post, fault, hsplit, hpre, hfault, he⟩
    · rintro ⟨pre, v, post, fault, hsplit, hpre, hfault, he⟩
      exact ⟨pre, v, post, hsplit, hpre, fault, hfault, he⟩

/-! ## §3 All signatures -/

/-- The signature cannot be generated. -/
def fails (o : Options) (s : Signature) : Bool := !(o.generate s).isOk

/-- There is one fault for every signature that fails. -/
theorem map_generate_filter_fails (o : Options) (ss : List Signature) :
    (ss.filter o.fails).map o.generate = (o.faults ss).map .error := by
  induction ss with
  | nil => rfl
  | cons s ss ih =>
    rw [faults, List.map_cons]
    cases hs : o.generate s with
    | error e =>
      have hfails : o.fails s = true := by
        rw [fails, hs]
        rfl
      rw [List.filter_cons_of_pos hfails, List.map_cons, hs, ih]
      rfl
    | ok gs =>
      have hfails : ¬ o.fails s = true := by
        rw [fails, hs]
        exact Bool.false_ne_true
      rw [List.filter_cons_of_neg hfails, ih]
      rfl

/-- **When a run fails.** Exactly when some signature does, and then with the faults of all
signatures that do, in order. -/
theorem generateAll_eq_error_iff {ss : List Signature} {es : List Generation.Fault} :
    o.generateAll ss = .error es ↔
      es ≠ [] ∧ (ss.filter o.fails).map o.generate = es.map .error := by
  have hinj {fs : List Generation.Fault} :
      (fs.map .error : List (Except Generation.Fault (List Generated))) = es.map .error ↔ fs = es :=
    List.map_inj_right fun _ _ h => Except.error.inj h
  rw [map_generate_filter_fails, hinj, generateAll_eq]
  split
  · rename_i hnone
    refine iff_of_false nofun ?_
    rintro ⟨hne, rfl⟩
    exact hne (List.isEmpty_iff.mp hnone)
  · rename_i hsome
    rw [Except.error.injEq]
    refine ⟨?_, And.right⟩
    rintro rfl
    exact ⟨fun h => hsome (List.isEmpty_iff.mpr h), rfl⟩

end Options

namespace Generation

/-- Two runs seen as one: the functions of both, or the faults of both if either has any. -/
def join : Except (List Fault) (List Generated) → Except (List Fault) (List Generated) →
    Except (List Fault) (List Generated)
  | .ok gs, .ok hs => .ok (gs ++ hs)
  | .ok _, .error es => .error es
  | .error es, .ok _ => .error es
  | .error es, .error fs => .error (es ++ fs)

end Generation

namespace Options

variable {o : Options}

/-- A run succeeds exactly when every signature can be generated. -/
theorem exists_generateAll_iff {ss : List Signature} :
    (∃ gs, o.generateAll ss = .ok gs) ↔ ∀ s ∈ ss, ∃ gs, o.generate s = .ok gs := by
  simp only [generateAll_eq_ok_iff]
  refine ⟨?_, ?_⟩
  · rintro ⟨-, gss, hss, -⟩ s hs
    have hmem : o.generate s ∈ gss.map .ok := hss ▸ List.mem_map_of_mem hs
    obtain ⟨gs, -, hgs⟩ := List.mem_map.mp hmem
    exact ⟨gs, hgs.symm⟩
  · intro h
    obtain ⟨gss, hss⟩ := Generation.exists_eq_map_ok (List.forall_mem_map.mpr h)
    exact ⟨gss.flatten, gss, hss, rfl⟩

/-- **Signatures do not interfere.** The outcome of a run over two lists is that of the two runs. -/
theorem generateAll_append (o : Options) (ss ts : List Signature) :
    o.generateAll (ss ++ ts) = Generation.join (o.generateAll ss) (o.generateAll ts) := by
  rw [generateAll_eq, generateAll_eq, generateAll_eq, generated_append, faults_append]
  cases o.faults ss with
  | nil =>
    cases o.faults ts with
    | nil => rfl
    | cons e es => rfl
  | cons e es =>
    cases o.faults ts with
    | nil =>
      rw [List.append_nil]
      rfl
    | cons f fs => rfl

/-- **What a run comes to.** A run succeeds exactly when every signature can be generated, and then
it gives their functions, one signature after the other. Otherwise it gives the faults of those
signatures that cannot, one for each, in order. Whatever the outcomes of two runs, they are those of
the one run over both lists. The fault of a signature is that no overload is wanted, where the
wanted ones are the generic overload if it is kept and then the others if signatures are expanded;
or else it is the fault of the first wanted overload that cannot be frozen. -/
theorem generateAll_outcome (o : Options) (ss : List Signature) :
    ((∃ gs, o.generateAll ss = .ok gs) ↔ ∀ s ∈ ss, ∃ gs, o.generate s = .ok gs) ∧
    (∀ gs, o.generateAll ss = .ok gs ↔
      ∃ gss : List (List Generated), ss.map o.generate = gss.map .ok ∧ gs = gss.flatten) ∧
    (∀ es, o.generateAll ss = .error es ↔
      es ≠ [] ∧ (ss.filter o.fails).map o.generate = es.map .error) ∧
    (∀ ts, o.generateAll (ss ++ ts) = Generation.join (o.generateAll ss) (o.generateAll ts)) ∧
    ∀ s, (o.wanted s = (if o.keepGeneric = true then [⟨.generic, s⟩] else []) ++
        if o.expand = true then s.concreteOverloads else []) ∧
      ∀ e, o.generate s = .error e ↔
        (o.wanted s = [] ∧ e = .noVariants s.name) ∨
        ∃ pre v post fault, o.wanted s = pre ++ v :: post ∧
          (∀ w ∈ pre, ∃ f, w.signature.freeze o.checkReferences = .ok f) ∧
          v.signature.freeze o.checkReferences = .error fault ∧ e = .signature fault :=
  ⟨exists_generateAll_iff, fun _ => generateAll_eq_ok_iff, fun _ => generateAll_eq_error_iff,
    o.generateAll_append ss, fun s => ⟨o.wanted_eq s, fun _ => generate_eq_error_iff⟩⟩

end Options

end Interop
