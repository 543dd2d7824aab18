import Interop.Proofs.Qualifier.History

/-!
# Interop.Proofs.Qualifier.Mask — the mask of a set of qualifiers.

A set of qualifiers is searched by halving its sorted list. Beside the list there is the mask of the
kinds that are present, a word with one bit for each kind, which is folded over the list. Here the
two are compared, bit by bit. The mask follows every change of the set by a bitwise operation of its
own, without a look at the list (`kinds_apply`), and so it follows any history (`kinds_run`). What a
set says of its kinds can be read off the mask: which are present, how many there are, whether one
of them is special, and what a removal by a mask takes out.

## Main statements

* **`kinds_of_history`** — after any history, the mask and the entries agree.
-/

namespace Interop

open Qualifier (Kind KindSet)

/-! ## §1 The bits of a mask -/

namespace Qualifier.KindSet

/-- How many bits of the mask are set. -/
def bitCount (ks : KindSet) : Nat := ks.bits.cpop.toNat

/-- Among the first `n` bits of a word, those that are set are counted place by place. -/
theorem cpopNatRec_eq_countP {w : Nat} (x : BitVec w) (n : Nat) :
    x.cpopNatRec n 0 = (List.range n).countP x.getLsbD := by
  induction n with
  | zero => rfl
  | succ n ih =>
    rw [BitVec.cpopNatRec_succ, BitVec.cpopNatRec_add, ih, List.range_succ, List.countP_append,
      List.countP_singleton]
    cases x.getLsbD n <;> rfl

/-- The bits that are set are counted kind by kind. -/
theorem bitCount_eq (ks : KindSet) : ks.bitCount = Kind.all.countP ks.contains := by
  have hplaces : List.range 10 = Kind.all.map Kind.rank := rfl
  rw [bitCount, BitVec.toNat_cpop, cpopNatRec_eq_countP, hplaces, List.countP_map]
  rfl

/-- A mask holds the bit of a kind exactly when the kind is in it. -/
theorem single_isSubset (ks : KindSet) (k : Kind) : (single k).isSubset ks = ks.contains k := by
  rw [Bool.eq_iff_iff, isSubset, beq_iff_eq]
  refine ⟨?_, ?_⟩
  · intro h
    have hk := congrArg (·.contains k) h
    simpa using hk
  · intro h
    refine ext_contains fun l => ?_
    rw [contains_inter, contains_single]
    by_cases hl : k = l
    · subst hl
      simp [h]
    · simp [hl]

/-- Two masks meet exactly when they share a kind. -/
theorem meets_iff {ks ls : KindSet} :
    ks.meets ls = true ↔ ∃ k, ks.contains k = true ∧ ls.contains k = true := by
  rw [meets, bne_iff_ne]
  refine ⟨?_, ?_⟩
  · intro h
    by_contra hnone
    refine h (ext_contains fun k => ?_)
    rw [contains_inter, contains_empty, Bool.and_eq_false_imp]
    intro hk
    exact Bool.eq_false_iff.mpr fun hl => hnone ⟨k, hk, hl⟩
  · rintro ⟨k, hk, hl⟩ h
    have hempty := congrArg (·.contains k) h
    simp [hk, hl] at hempty

/-- The mask after a change of the set, by operations on masks alone. -/
def apply (ks : KindSet) : QualifierSet.Change → KindSet
  | .insert q => ks.union (single q.kind)
  | .extend qs => ks.union (ofList (qs.map Qualifier.kind))
  | .remove k => ks.diff (single k)
  | .removeAll ls => ks.diff ls
  | .replace _ _ => ks

/-- The mask after the changes of a list, one after the other. -/
def run (ks : KindSet) (cs : List QualifierSet.Change) : KindSet := cs.foldl apply ks

end Qualifier.KindSet

/-! ## §2 The mask follows the set -/

namespace QualifierSet

variable (s : QualifierSet)

theorem contains_kinds_eq_isSome (k : Kind) : s.kinds.contains k = (s.find? k).isSome := by
  rw [contains_kinds, has_eq_isSome_find?]

theorem kinds_insert (q : Qualifier) :
    (s.insert q).kinds = s.kinds.union (.single q.kind) := by
  refine KindSet.ext_contains fun k => ?_
  rw [KindSet.contains_union, KindSet.contains_single, contains_kinds_eq_isSome,
    contains_kinds_eq_isSome, find?_insert]
  by_cases hk : q.kind = k
  · simp [hk]
  · simp [hk]

theorem kinds_insertAll (qs : List Qualifier) :
    (s.insertAll qs).kinds = s.kinds.union (.ofList (qs.map Qualifier.kind)) := by
  induction qs generalizing s with
  | nil =>
    refine KindSet.ext_contains fun k => ?_
    simp [insertAll]
  | cons q qs ih =>
    show ((s.insert q).insertAll qs).kinds = _
    rw [ih, kinds_insert]
    refine KindSet.ext_contains fun k => ?_
    simp [Bool.or_assoc]

theorem kinds_ofList (qs : List Qualifier) :
    (ofList qs).kinds = .ofList (qs.map Qualifier.kind) := by
  have hempty : empty.kinds = .empty := rfl
  rw [ofList, kinds_insertAll, hempty]
  refine KindSet.ext_contains fun k => ?_
  rw [KindSet.contains_union, KindSet.contains_empty, Bool.false_or]

theorem kinds_erase (k : Kind) : (s.erase k).kinds = s.kinds.diff (.single k) := by
  refine KindSet.ext_contains fun l => ?_
  rw [KindSet.contains_diff, KindSet.contains_single, contains_kinds_eq_isSome,
    contains_kinds_eq_isSome, find?_erase]
  by_cases hk : k = l
  · simp [hk]
  · simp [hk]

theorem kinds_eraseAll (ks : KindSet) : (s.eraseAll ks).kinds = s.kinds.diff ks := by
  refine KindSet.ext_contains fun k => ?_
  rw [KindSet.contains_diff, contains_kinds_eq_isSome, contains_kinds_eq_isSome, find?_eraseAll]
  by_cases hk : ks.contains k = true
  · simp [hk]
  · simp [hk]

/-- A change of a payload leaves the kinds as they are. -/
theorem kinds_modify (k : Kind) (f : Qualifier.Payload k → Qualifier.Payload k) :
    (s.modify k f).kinds = s.kinds := by
  refine KindSet.ext_contains fun l => ?_
  rw [contains_kinds, contains_kinds, has_eq_isSome_get?, has_eq_isSome_get?]
  by_cases hk : k = l
  · subst hk
    rw [get?_modify_self, Option.isSome_map]
  · rw [get?_modify_of_ne s f hk]

/-- **One change.** The mask of the changed set is the changed mask. -/
theorem kinds_apply (c : Change) : (s.apply c).2.kinds = s.kinds.apply c := by
  cases c with
  | insert q => exact kinds_insert s q
  | extend qs => exact kinds_insertAll s qs
  | remove k => exact kinds_erase s k
  | removeAll ks => exact kinds_eraseAll s ks
  | replace k f => exact kinds_modify s k f

/-- **Any run.** The mask of the set that is reached is reached by changing the mask all along. -/
theorem kinds_run (cs : List Change) : (s.run cs).2.kinds = s.kinds.run cs := by
  induction cs generalizing s with
  | nil => rfl
  | cons c cs ih =>
    show ((s.apply c).2.run cs).2.kinds = (s.kinds.apply c).run cs
    rw [ih, kinds_apply]

/-! ## §3 What the mask tells -/

/-- There are as many entries as bits. -/
theorem size_eq_bitCount : s.size = s.kinds.bitCount := by
  have hview : s.view.domain = Kind.all.filter s.has :=
    List.filter_congr fun k _ => isSome_view s k
  rw [← length_domain_view, hview, ← List.countP_eq_length_filter, KindSet.bitCount_eq]
  exact List.countP_congr fun k _ => by rw [contains_kinds]

/-- Some entry is special exactly when the mask meets that of the special kinds. -/
theorem isSpecial_iff_exists :
    s.isSpecial = true ↔ ∃ q ∈ s.toList, q.isSpecial = true := by
  rw [isSpecial, KindSet.meets_iff]
  simp only [contains_kinds, has_iff]
  refine ⟨?_, ?_⟩
  · rintro ⟨k, ⟨q, hq, rfl⟩, hk⟩
    exact ⟨q, hq, hk⟩
  · rintro ⟨q, hq, hk⟩
    exact ⟨q.kind, ⟨q, hq, rfl⟩, hk⟩

/-- A removal by a mask counts the bits that both masks have. -/
theorem extractAll_fst (ks : KindSet) :
    (s.extractAll ks).1 = (s.kinds.inter ks).bitCount := by
  show s.size - (s.eraseAll ks).size = _
  rw [size_sub_size_eraseAll, KindMap.domain, List.countP_filter, KindSet.bitCount_eq]
  refine List.countP_congr fun k _ => ?_
  rw [KindSet.contains_inter, contains_kinds, isSome_view, Bool.and_comm]

/-- A removal by a mask keeps the entries of all other kinds, in their order. -/
theorem extractAll_snd_toList (ks : KindSet) :
    (s.extractAll ks).2.toList = s.toList.filter fun q => !ks.contains q.kind := rfl

/-- **The mask and the entries agree.** Start from any list and make any changes. The mask of the
set that is reached comes of the same changes made on masks. It holds the bit of a kind exactly when
the set has the kind; as many bits are set as there are entries; and it meets the mask of the
special kinds exactly when some entry is special. A removal by any mask answers how many bits that
mask shares with the one of the set, leaves the rest of the bits, and keeps the entries of all other
kinds. -/
theorem kinds_of_history (init : List Qualifier) (cs : List Change) :
    let s := ((ofList init).run cs).2
    s.kinds = (KindSet.ofList (init.map Qualifier.kind)).run cs ∧
    (∀ k, (KindSet.single k).isSubset s.kinds = s.has k) ∧
    s.size = s.kinds.bitCount ∧
    (s.isSpecial = true ↔ ∃ q ∈ s.toList, q.isSpecial = true) ∧
    ∀ ks : KindSet,
      (s.apply (.removeAll ks)).1 = .count (s.kinds.inter ks).bitCount ∧
      (s.apply (.removeAll ks)).2.kinds = s.kinds.diff ks ∧
      (s.apply (.removeAll ks)).2.toList = s.toList.filter fun q => !ks.contains q.kind := by
  intro s
  refine ⟨?_, ?_, size_eq_bitCount s, isSpecial_iff_exists s, ?_⟩
  · rw [← kinds_ofList]
    exact kinds_run (ofList init) cs
  · intro k
    rw [KindSet.single_isSubset, contains_kinds]
  · intro ks
    refine ⟨?_, kinds_apply s (.removeAll ks), extractAll_snd_toList s ks⟩
    exact congrArg Answer.count (extractAll_fst s ks)

end QualifierSet

end Interop
