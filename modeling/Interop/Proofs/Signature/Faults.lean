import Interop.Signature.Prototype
import Mathlib.Data.List.Basic

/-!
# Interop.Proofs.Signature.Faults — when a signature is refused, and for which fault.

A signature is frozen exactly when its names are distinct and, if that is checked, every name that
its qualifiers mention is the name of a parameter. A refused signature has many faults at once as a
rule; the one reported is the first. Repeats are read in the order of the parameters. Mentions are
read in the order of their *sites*: by parameter, then by kind, then by place in the references of
the qualifier.

## Main statements

* **`freeze_outcome`** — which signatures are accepted, which fault each other one is refused for,
  and that freezing changes nothing.
-/

namespace Interop

open Qualifier (Kind)

/-! ## §1 The first repeat -/

namespace Scope

/-- The name at place `i` of the list is taken when its turn comes, by the scope or by an earlier
name of the list. -/
def TakenAt (s : Scope) (ns : List String) (i : Nat) (n : String) : Prop :=
  ns[i]? = some n ∧ (n ∈ s.names ∨ n ∈ ns.take i)

theorem takenAt_zero_iff {s : Scope} {a : String} {ns : List String} {n : String} :
    s.TakenAt (a :: ns) 0 n ↔ a = n ∧ n ∈ s.names := by
  simp [TakenAt]

/-- Behind the head of a list the scope has grown by the head. -/
theorem takenAt_succ_iff {s : Scope} {a : String} {ns : List String} {i : Nat} {n : String} :
    s.TakenAt (a :: ns) (i + 1) n ↔ (Scope.mk (a :: s.names)).TakenAt ns i n := by
  unfold TakenAt
  rw [List.getElem?_cons_succ, List.take_succ_cons, List.mem_cons, List.mem_cons]
  refine and_congr_right fun _ => ?_
  rw [← or_assoc, or_comm (a := n ∈ s.names)]

/-- **What the search for a repeat finds.** The name at the first place where a name is taken. -/
theorem firstRepeat?_eq_some_iff {s : Scope} {ns : List String} {n : String} :
    s.firstRepeat? ns = some n ↔
      ∃ i, s.TakenAt ns i n ∧ ∀ j < i, ∀ m, ¬ s.TakenAt ns j m := by
  -- the search passes a free head on to a larger scope, so the scope varies in the induction
  induction ns generalizing s with
  | nil => simp [firstRepeat?, TakenAt]
  | cons a ns ih =>
    by_cases ha : a ∈ s.names
    · have hfirst : s.firstRepeat? (a :: ns) = some a := by
        simp [firstRepeat?, declare?, contains, ha]
      have hzero : s.TakenAt (a :: ns) 0 a := takenAt_zero_iff.mpr ⟨rfl, ha⟩
      rw [hfirst]
      refine ⟨?_, ?_⟩
      · intro h
        cases h
        exact ⟨0, hzero, fun j hj => absurd hj (Nat.not_lt_zero j)⟩
      · intro h
        obtain ⟨i, hi, hbefore⟩ := h
        cases i with
        | zero => rw [(takenAt_zero_iff.mp hi).1]
        | succ i => exact absurd hzero (hbefore 0 (by omega) a)
    · have hrest : s.firstRepeat? (a :: ns) = (Scope.mk (a :: s.names)).firstRepeat? ns := by
        simp [firstRepeat?, declare?, contains, ha]
      have hzero (m : String) : ¬ s.TakenAt (a :: ns) 0 m := by
        intro h
        obtain ⟨rfl, hm⟩ := takenAt_zero_iff.mp h
        exact ha hm
      rw [hrest, ih]
      refine ⟨?_, ?_⟩
      · intro h
        obtain ⟨i, hi, hbefore⟩ := h
        refine ⟨i + 1, takenAt_succ_iff.mpr hi, fun j hj m => ?_⟩
        cases j with
        | zero => exact hzero m
        | succ j =>
          rw [takenAt_succ_iff]
          exact hbefore j (by omega) m
      · intro h
        obtain ⟨i, hi, hbefore⟩ := h
        cases i with
        | zero => exact absurd hi (hzero n)
        | succ i =>
          refine ⟨i, takenAt_succ_iff.mp hi, fun j hj m => ?_⟩
          rw [← takenAt_succ_iff]
          exact hbefore (j + 1) (by omega) m

end Scope

namespace Signature

/-- The parameter at place `i` has the name `n` of an earlier one, and it is the first that has the
name of an earlier one. -/
def RepeatsFirst (s : Signature) (i : Nat) (n : String) : Prop :=
  s.names[i]? = some n ∧ n ∈ s.names.take i ∧
    ∀ j < i, ∀ m, s.names[j]? = some m → m ∉ s.names.take j

theorem repeated?_eq_some_iff {s : Signature} {n : String} :
    s.repeated? = some n ↔ ∃ i, s.RepeatsFirst i n := by
  rw [repeated?, Scope.firstRepeat?_eq_some_iff]
  simp [Scope.TakenAt, Scope.empty, RepeatsFirst, and_assoc]

end Signature

/-! ## §2 The sites of the mentions -/

/-- What a qualifier refers to, and at which place. A length refers to its buffer and behind it to
its dependents in order. A buffer of addresses and a buffer that carries the result refer to the
parameter with their lengths, if they name one. No other kind refers to anything. -/
inductive Qualifier.RefersAt : Qualifier → Nat → String → Prop where
  | buffer {a : Qualifier.AutoSize} : RefersAt ⟨.autoSize, a⟩ 0 a.reference
  | dependent {a : Qualifier.AutoSize} {n : Nat} {t : String} (h : a.dependents[n]? = some t) :
      RefersAt ⟨.autoSize, a⟩ (n + 1) t
  | elementLengths {a : Qualifier.PointerArray} {t : String} (h : a.length = some t) :
      RefersAt ⟨.pointerArray, a⟩ 0 t
  | resultLength {r : Qualifier.ReturnCarrier} {t : String} (h : r.length = some t) :
      RefersAt ⟨.returnCarrier, r⟩ 0 t

/-- The references of a qualifier list what it refers to, each at its place. -/
theorem Qualifier.getElem?_references_eq_some_iff {q : Qualifier} {n : Nat} {t : String} :
    q.references[n]? = some t ↔ q.RefersAt n t := by
  -- a list of at most one length has nothing behind its first place
  have hlength {length : Option String} :
      length.toList[n]? = some t ↔ n = 0 ∧ length = some t := by
    cases length <;> cases n <;> simp
  refine ⟨?_, ?_⟩
  · intro h
    obtain ⟨k, payload⟩ := q
    cases k with
    | autoSize =>
      cases n with
      | zero =>
        cases h
        exact .buffer
      | succ n => exact .dependent h
    | pointerArray =>
      obtain ⟨rfl, hnamed⟩ := hlength.mp h
      exact .elementLengths hnamed
    | returnCarrier =>
      obtain ⟨rfl, hnamed⟩ := hlength.mp h
      exact .resultLength hnamed
    | _ => cases h
  · intro h
    cases h with
    | buffer => rfl
    | dependent h => exact h
    | elementLengths h => exact hlength.mpr ⟨rfl, h⟩
    | resultLength h => exact hlength.mpr ⟨rfl, h⟩

/-- Where a name is mentioned: at which parameter, by a qualifier of which kind, and at which place
among the references of that qualifier. -/
structure Site where
  parameter : Nat
  kind : Kind
  place : Nat
  deriving DecidableEq

/-- Sites are read by parameter, then by kind, then by place. -/
def Site.Before (a b : Site) : Prop :=
  a.parameter < b.parameter ∨
    a.parameter = b.parameter ∧
      (a.kind.rank < b.kind.rank ∨ a.kind = b.kind ∧ a.place < b.place)

theorem Site.Before.asymm {a b : Site} (h : a.Before b) : ¬ b.Before a := by
  intro h'
  have hranks {a b : Site} (h : a.Before b) :
      a.parameter < b.parameter ∨ a.parameter = b.parameter ∧
        (a.kind.rank < b.kind.rank ∨ a.kind.rank = b.kind.rank ∧ a.place < b.place) :=
    h.imp_right fun ⟨hp, h⟩ => ⟨hp, h.imp_right fun ⟨hk, hl⟩ => ⟨congrArg Kind.rank hk, hl⟩⟩
  have hab := hranks h
  have hba := hranks h'
  omega

/-- The mentions of the parameter at place `i`, each with its site. -/
def Parameter.sites (i : Nat) (p : Parameter) : List (Site × Mention) :=
  p.qualifiers.toList.flatMap fun q =>
    q.references.zipIdx.map fun (t, l) => (⟨i, q.kind, l⟩, ⟨p.name, q.kind, t⟩)

namespace Signature

/-- All mentions, each with its site, in the order of the sites. -/
def sites (s : Signature) : List (Site × Mention) :=
  s.params.zipIdx.flatMap fun (p, i) => p.sites i

/-- The mention at a site. -/
def mentionAt? (s : Signature) (a : Site) : Option Mention :=
  s.params[a.parameter]?.bind fun p =>
    (p.qualifiers.find? a.kind).bind fun q =>
      q.references[a.place]?.map fun t => ⟨p.name, q.kind, t⟩

/-- Reading the sites in order is reading the mentions in order. -/
theorem map_snd_sites (s : Signature) : s.sites.map Prod.snd = s.mentions := by
  have hparam (i : Nat) (p : Parameter) : (p.sites i).map Prod.snd = p.mentions := by
    rw [Parameter.sites, Parameter.mentions, QualifierSet.references, List.map_flatMap,
      List.map_flatMap]
    refine List.flatMap_congr fun q _ => ?_
    conv => rhs; rw [← List.zipIdx_map_fst 0 q.references]
    simp only [List.map_map, Function.comp_def]
  have hfst := List.zipIdx_map_fst 0 s.params
  calc s.sites.map Prod.snd
      = s.params.zipIdx.flatMap fun pi => pi.1.mentions := by
        rw [sites, List.map_flatMap]
        exact List.flatMap_congr fun pi _ => hparam pi.2 pi.1
    _ = (s.params.zipIdx.map Prod.fst).flatMap Parameter.mentions := by rw [List.flatMap_map]
    _ = s.mentions := by rw [hfst, mentions]

/-- **What stands at a site**: what a qualifier of the kind refers to, at the place. -/
theorem mentionAt?_eq_some_iff {s : Signature} {a : Site} {m : Mention} :
    s.mentionAt? a = some m ↔
      ∃ p q, s.params[a.parameter]? = some p ∧ q ∈ p.qualifiers.toList ∧ q.kind = a.kind ∧
        q.RefersAt a.place m.target ∧ m.parameter = p.name ∧ m.kind = a.kind := by
  simp only [mentionAt?, Option.bind_eq_some_iff, Option.map_eq_some_iff,
    QualifierSet.find?_eq_some_iff]
  refine ⟨?_, ?_⟩
  · intro h
    obtain ⟨p, hp, q, ⟨hq, hkind⟩, t, ht, rfl⟩ := h
    exact ⟨p, q, hp, hq, hkind, Qualifier.getElem?_references_eq_some_iff.mp ht, rfl, hkind⟩
  · intro h
    obtain ⟨p, q, hp, hq, hkind, ht, hname, hm⟩ := h
    refine ⟨p, hp, q, ⟨hq, hkind⟩, m.target, Qualifier.getElem?_references_eq_some_iff.mpr ht, ?_⟩
    rw [← hname, hkind, ← hm]

/-- A mention is listed with its site. -/
theorem mem_sites_iff {s : Signature} {a : Site} {m : Mention} :
    (a, m) ∈ s.sites ↔ s.mentionAt? a = some m := by
  obtain ⟨i, k, l⟩ := a
  simp only [sites, Parameter.sites, mentionAt?, List.mem_flatMap, List.mem_map, Prod.exists,
    List.mem_zipIdx_iff_getElem?, Option.bind_eq_some_iff, Option.map_eq_some_iff,
    QualifierSet.find?_eq_some_iff, Prod.mk.injEq, Site.mk.injEq]
  refine ⟨?_, ?_⟩
  · intro h
    obtain ⟨p, i, hp, q, hq, t, l, ht, ⟨rfl, rfl, rfl⟩, rfl⟩ := h
    exact ⟨p, hp, q, ⟨hq, rfl⟩, t, ht, rfl⟩
  · intro h
    obtain ⟨p, hp, q, ⟨hq, rfl⟩, t, ht, rfl⟩ := h
    exact ⟨p, i, hp, q, hq, t, l, ht, ⟨rfl, rfl, rfl⟩, rfl⟩

/-- The sites are listed in their order. -/
theorem pairwise_sites (s : Signature) : s.sites.Pairwise fun x y => x.1.Before y.1 := by
  have hindex {α : Type} (l : List α) : l.zipIdx.Pairwise fun x y => x.2 < y.2 := by
    refine List.pairwise_map.mp ?_
    rw [List.zipIdx_map_snd]
    exact List.pairwise_lt_range'
  have hparam {i : Nat} {p : Parameter} {x : Site × Mention} (hx : x ∈ p.sites i) :
      x.1.parameter = i := by
    simp only [Parameter.sites, List.mem_flatMap, List.mem_map] at hx
    obtain ⟨q, -, t, -, rfl⟩ := hx
    rfl
  rw [sites, List.pairwise_flatMap]
  refine ⟨fun pi _ => ?_, (hindex s.params).imp fun hlt x hx y hy => ?_⟩
  · -- within one parameter the kinds decide, within one qualifier the places
    show (Parameter.sites pi.2 pi.1).Pairwise _
    rw [Parameter.sites, List.pairwise_flatMap]
    refine ⟨fun q _ => ?_, pi.1.qualifiers.sorted.imp fun hlt x hx y hy => ?_⟩
    · refine List.pairwise_map.mpr ((hindex q.references).imp fun hlt => ?_)
      exact .inr ⟨rfl, .inr ⟨rfl, hlt⟩⟩
    · obtain ⟨t, -, rfl⟩ := List.mem_map.mp hx
      obtain ⟨u, -, rfl⟩ := List.mem_map.mp hy
      exact .inr ⟨rfl, .inl hlt⟩
  · left
    rw [hparam hx, hparam hy]
    exact hlt

/-! ## §3 The first unresolved mention -/

/-- The mention `m` at the site `a` names no parameter, and every mention at an earlier site names
one. -/
def DanglesFirst (s : Signature) (a : Site) (m : Mention) : Prop :=
  s.mentionAt? a = some m ∧ m.target ∉ s.names ∧
    ∀ b, b.Before a → ∀ n, s.mentionAt? b = some n → n.target ∈ s.names

end Signature

/-- In a list sorted by its keys, the first value with a property is the one with the least key. -/
theorem Site.find?_map_snd_eq_some_iff {xs : List (Site × Mention)}
    (hs : xs.Pairwise fun x y => x.1.Before y.1) {P : Mention → Bool} {m : Mention} :
    (xs.map Prod.snd).find? P = some m ↔
      ∃ a, (a, m) ∈ xs ∧ P m = true ∧ ∀ b n, (b, n) ∈ xs → b.Before a → P n = false := by
  induction xs with
  | nil => simp
  | cons x xs ih =>
    obtain ⟨c, k⟩ := x
    obtain ⟨hc, hxs⟩ := List.pairwise_cons.mp hs
    cases hk : P k with
    | true =>
      rw [List.map_cons, List.find?_cons_of_pos hk]
      refine ⟨?_, ?_⟩
      · intro h
        cases h
        refine ⟨c, List.mem_cons_self, hk, fun b n hb hbc => ?_⟩
        rcases List.mem_cons.mp hb with hb | hb
        · cases hb
          exact absurd hbc hbc.asymm
        · exact absurd (hc _ hb) hbc.asymm
      · intro hx
        obtain ⟨a, ha, hm, hbefore⟩ := hx
        rcases List.mem_cons.mp ha with ha | ha
        · cases ha
          rfl
        · have := hbefore c k List.mem_cons_self (hc _ ha)
          rw [hk] at this
          cases this
    | false =>
      rw [List.map_cons, List.find?_cons_of_neg (by simp [hk]), ih hxs]
      refine ⟨?_, ?_⟩
      · intro hx
        obtain ⟨a, ha, hm, hbefore⟩ := hx
        refine ⟨a, List.mem_cons_of_mem _ ha, hm, fun b n hb hba => ?_⟩
        rcases List.mem_cons.mp hb with hb | hb
        · cases hb
          exact hk
        · exact hbefore b n hb hba
      · intro hx
        obtain ⟨a, ha, hm, hbefore⟩ := hx
        rcases List.mem_cons.mp ha with ha | ha
        · cases ha
          rw [hk] at hm
          cases hm
        · exact ⟨a, ha, hm, fun b n hb hba => hbefore b n (List.mem_cons_of_mem _ hb) hba⟩

namespace Signature

theorem unresolved?_eq_some_iff {s : Signature} {m : Mention} :
    s.unresolved? = some m ↔ ∃ a, s.DanglesFirst a m := by
  -- the search runs through the mentions; listed with their sites, they are sorted
  rw [unresolved?, ← map_snd_sites, Site.find?_map_snd_eq_some_iff s.pairwise_sites]
  simp only [mem_sites_iff, Bool.not_eq_true', List.contains_iff_mem, Bool.eq_false_iff, ne_eq,
    not_not]
  refine ⟨?_, ?_⟩
  · intro h
    obtain ⟨a, ha, hm, hbefore⟩ := h
    exact ⟨a, ha, hm, fun b hb n hn => hbefore b n hn hb⟩
  · intro h
    obtain ⟨a, ha, hm, hbefore⟩ := h
    exact ⟨a, ha, hm, fun b n hn hb => hbefore b hb n hn⟩

/-! ## §4 Freezing -/

/-- Every name that a qualifier of a parameter mentions is the name of a parameter. -/
def ReferencesResolve (s : Signature) : Prop :=
  ∀ p ∈ s.params, ∀ q ∈ p.qualifiers.toList, ∀ t ∈ q.references, ∃ r ∈ s.params, r.name = t

/-- The references of a signature resolve exactly when all that a qualifier refers to, at whatever
place, is the name of a parameter. -/
theorem referencesResolve_iff_refersAt {s : Signature} :
    s.ReferencesResolve ↔ ∀ p ∈ s.params, ∀ q ∈ p.qualifiers.toList, ∀ n t, q.RefersAt n t →
      ∃ r ∈ s.params, r.name = t := by
  simp only [← Qualifier.getElem?_references_eq_some_iff]
  refine ⟨?_, ?_⟩
  · intro h p hp q hq n t ht
    exact h p hp q hq t (List.mem_of_getElem? ht)
  · intro h p hp q hq t ht
    obtain ⟨n, hn⟩ := List.mem_iff_getElem?.mp ht
    exact h p hp q hq n t hn

theorem mem_mentions_iff {s : Signature} {m : Mention} :
    m ∈ s.mentions ↔ ∃ p ∈ s.params, ∃ q ∈ p.qualifiers.toList, ∃ t ∈ q.references,
      ⟨p.name, q.kind, t⟩ = m := by
  simp only [mentions, Parameter.mentions, QualifierSet.references, List.mem_flatMap, List.mem_map]
  refine ⟨?_, ?_⟩
  · intro h
    obtain ⟨p, hp, -, ⟨q, hq, t, ht, rfl⟩, rfl⟩ := h
    exact ⟨p, hp, q, hq, t, ht, rfl⟩
  · intro h
    obtain ⟨p, hp, q, hq, t, ht, rfl⟩ := h
    exact ⟨p, hp, _, ⟨q, hq, t, ht, rfl⟩, rfl⟩

theorem mem_names_iff {s : Signature} {n : String} : n ∈ s.names ↔ ∃ r ∈ s.params, r.name = n :=
  List.mem_map

/-- No mention is left unresolved exactly when every reference is the name of a parameter. -/
theorem unresolved?_eq_none_iff_referencesResolve {s : Signature} :
    s.unresolved? = none ↔ s.ReferencesResolve := by
  rw [unresolved?_eq_none_iff]
  refine ⟨?_, ?_⟩
  · intro h p hp q hq t ht
    exact mem_names_iff.mp (h ⟨p.name, q.kind, t⟩ (mem_mentions_iff.mpr ⟨p, hp, q, hq, t, ht, rfl⟩))
  · intro h m hm
    obtain ⟨p, hp, q, hq, t, ht, rfl⟩ := mem_mentions_iff.mp hm
    exact mem_names_iff.mpr (h p hp q hq t ht)

/-- A signature has no fault exactly when its names are distinct and, if that is asked for, its
references resolve. -/
theorem fault?_eq_none_iff {s : Signature} {references : Bool} :
    s.fault? references = none ↔
      s.names.Nodup ∧ (references = true → s.ReferencesResolve) := by
  rw [← repeated?_eq_none_iff, ← unresolved?_eq_none_iff_referencesResolve, fault?]
  cases s.repeated? with
  | some n => simp
  | none => cases references <;> simp

/-- The fault of a signature is its first repeat; only without a repeat is it the first unresolved
mention. -/
theorem fault?_eq_some_iff {s : Signature} {references : Bool} {e : Fault} :
    s.fault? references = some e ↔
      (∃ i n, s.RepeatsFirst i n ∧ e = .duplicate s.name n) ∨
      s.names.Nodup ∧ references = true ∧
        ∃ a m, s.DanglesFirst a m ∧ e = .unresolved s.name m := by
  cases hr : s.repeated? with
  | some n =>
    have hfault : s.fault? references = some (.duplicate s.name n) := by rw [fault?, hr]
    -- a repeat hides every mention
    have hnodup : ¬ s.names.Nodup := fun h => by
      rw [repeated?_eq_none_iff.mpr h] at hr
      cases hr
    rw [hfault]
    refine ⟨?_, ?_⟩
    · intro h
      cases h
      obtain ⟨i, hi⟩ := repeated?_eq_some_iff.mp hr
      exact .inl ⟨i, n, hi, rfl⟩
    · intro hx
      rcases hx with ⟨i, n', hi, rfl⟩ | ⟨h, -⟩
      · have hn' := repeated?_eq_some_iff.mpr ⟨i, hi⟩
        rw [hr] at hn'
        cases hn'
        rfl
      · exact absurd h hnodup
  | none =>
    have hfault : s.fault? references
        = if references then s.unresolved?.map (.unresolved s.name) else none := by
      rw [fault?, hr]
    have hnodup : s.names.Nodup := repeated?_eq_none_iff.mp hr
    rw [hfault]
    refine ⟨?_, ?_⟩
    · intro h
      cases references with
      | false => cases h
      | true =>
        obtain ⟨m, hm, rfl⟩ := Option.map_eq_some_iff.mp h
        obtain ⟨a, ha⟩ := unresolved?_eq_some_iff.mp hm
        exact .inr ⟨hnodup, rfl, a, m, ha, rfl⟩
    · intro hx
      rcases hx with ⟨i, n, hi, -⟩ | ⟨-, rfl, a, m, ha, rfl⟩
      · rw [repeated?_eq_some_iff.mpr ⟨i, hi⟩] at hr
        cases hr
      · rw [if_pos rfl, unresolved?_eq_some_iff.mpr ⟨a, ha⟩, Option.map_some]

/-- Freezing succeeds exactly where there is no fault. -/
theorem exists_freeze_iff {s : Signature} {references : Bool} :
    (∃ f, s.freeze references = .ok f) ↔
      s.names.Nodup ∧ (references = true → s.ReferencesResolve) := by
  rw [← fault?_eq_none_iff]
  refine ⟨?_, ?_⟩
  · intro hx
    obtain ⟨f, hf⟩ := hx
    exact (freeze_eq_ok_iff.mp hf).1
  · intro h
    exact ⟨s.prototype (nodup_names_of_fault? h),
      freeze_eq_ok_iff.mpr ⟨h, Prototype.signature_prototype _⟩⟩

/-- **What freezing does.** With the check of references a signature is accepted exactly when its
names are distinct and every reference is the name of a parameter; without it, exactly when its
names are distinct. A refused signature is refused for its first repeat, and if no name repeats, for
its first unresolved mention. Mentions stand at sites, by parameter, by kind and by place: the
buffer of a length is at place 0 and its dependents follow in order, lengths of buffers are at place
0, and nothing else is mentioned. An accepted signature keeps its name, its result, its
documentation and its parameters, each of which is frozen. -/
theorem freeze_outcome (s : Signature) :
    ((∃ f, s.freeze true = .ok f) ↔ s.names.Nodup ∧ s.ReferencesResolve) ∧
    ((∃ f, s.freeze false = .ok f) ↔ s.names.Nodup) ∧
    (∀ (references : Bool) (e : Fault), s.freeze references = .error e ↔
      (∃ i n, s.RepeatsFirst i n ∧ e = .duplicate s.name n) ∨
      s.names.Nodup ∧ references = true ∧
        ∃ a m, s.DanglesFirst a m ∧ e = .unresolved s.name m) ∧
    (s.ReferencesResolve ↔ ∀ p ∈ s.params, ∀ q ∈ p.qualifiers.toList, ∀ n t, q.RefersAt n t →
      ∃ r ∈ s.params, r.name = t) ∧
    (∀ (a : Site) (m : Mention), s.mentionAt? a = some m ↔
      ∃ p q, s.params[a.parameter]? = some p ∧ q ∈ p.qualifiers.toList ∧ q.kind = a.kind ∧
        q.RefersAt a.place m.target ∧ m.parameter = p.name ∧ m.kind = a.kind) ∧
    (∀ (references : Bool) (f : Prototype), s.freeze references = .ok f →
      f.name = s.name ∧ f.result = s.result ∧ f.doc = s.doc ∧ f.params = s.params ∧
        f.frozen = s.params.map Parameter.freeze) := by
  refine ⟨?_, ?_, fun references e => ?_, referencesResolve_iff_refersAt,
    fun a m => mentionAt?_eq_some_iff, fun references f hf => ?_⟩
  · rw [exists_freeze_iff]
    simp
  · rw [exists_freeze_iff]
    simp
  · rw [freeze_eq_error_iff, fault?_eq_some_iff]
  · obtain ⟨-, rfl⟩ := freeze_eq_ok_iff.mp hf
    exact ⟨rfl, rfl, rfl, rfl, (Parameter.map_freeze_map_thaw f.frozen).symm⟩

end Signature

end Interop
