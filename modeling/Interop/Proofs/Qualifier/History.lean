import Interop.Qualifier.Set
import Mathlib.Logic.Function.Basic

/-!
# Interop.Proofs.Qualifier.History — a set of qualifiers behaves as a finite map.

A set of qualifiers is a sorted list that is searched by halving. Here it is compared with what a
caller thinks of it, a partial map from kinds to payloads: every change of the set answers what the
map answers and leaves the set that the changed map describes. The comparison is made for one
change (`apply_view`) and carried through any history of changes (`run_view`).

## Main statements

* **`history_refines_map`** — after any history the answers given on the way, the entries in order
  and every way of reading them agree with the map; two histories lead to equal sets exactly when
  they lead to the same answer for every kind.
-/

namespace Interop

open Qualifier (Kind KindSet Payload)

/-! ## §1 Changes and what they answer -/

namespace QualifierSet

/-- One change of a set. -/
inductive Change where
  | insert (q : Qualifier)
  | extend (qs : List Qualifier)
  | remove (k : Kind)
  | removeAll (ks : KindSet)
  | replace (k : Kind) (f : Payload k → Payload k)

/-- What a change tells its caller. -/
inductive Answer where
  | done
  | displaced (q : Option Qualifier)
  | count (n : Nat)
  | replaced (present : Bool)
  deriving DecidableEq

/-- A change of the set, with its answer. -/
def apply (s : QualifierSet) : Change → Answer × QualifierSet
  | .insert q => ((s.exchange q).map .displaced id)
  | .extend qs => (.done, s.insertAll qs)
  | .remove k => ((s.extract k).map .displaced id)
  | .removeAll ks => ((s.extractAll ks).map .count id)
  | .replace k f => ((s.amend k f).map .replaced id)

/-- The changes of a list one after the other, with their answers. -/
def run (s : QualifierSet) : List Change → List Answer × QualifierSet
  | [] => ([], s)
  | c :: cs =>
    let (a, t) := s.apply c
    let (as, u) := t.run cs
    (a :: as, u)

end QualifierSet

/-! ## §2 The finite map -/

/-- A partial map from the kinds to what they carry. -/
abbrev KindMap := (k : Kind) → Option (Payload k)

namespace KindMap

def empty : KindMap := fun _ => none

/-- The qualifier of a kind. -/
def find? (m : KindMap) (k : Kind) : Option Qualifier := (m k).map (⟨k, ·⟩)

/-- The kinds that carry something, in their order. -/
def domain (m : KindMap) : List Kind := Kind.all.filter fun k => (m k).isSome

/-- The qualifiers in the order of their kinds. -/
def toList (m : KindMap) : List Qualifier := Kind.all.filterMap m.find?

/-- The map with the payload of `q` under its kind. -/
def insert (m : KindMap) (q : Qualifier) : KindMap := Function.update m q.kind (some q.payload)

/-- The map of the qualifiers in a list, the last of a kind counting. -/
def ofList (qs : List Qualifier) : KindMap := qs.foldl insert empty

/-- A change of the map, with its answer. -/
def apply (m : KindMap) : QualifierSet.Change → QualifierSet.Answer × KindMap
  | .insert q => (.displaced (m.find? q.kind), m.insert q)
  | .extend qs => (.done, qs.foldl insert m)
  | .remove k => (.displaced (m.find? k), Function.update m k none)
  | .removeAll ks =>
    (.count (m.domain.countP ks.contains), fun k => if ks.contains k then none else m k)
  | .replace k f => (.replaced (m k).isSome, Function.update m k ((m k).map f))

/-- The changes of a list one after the other, with their answers. -/
def run (m : KindMap) : List QualifierSet.Change → List QualifierSet.Answer × KindMap
  | [] => ([], m)
  | c :: cs =>
    let (a, n) := m.apply c
    let (as, r) := n.run cs
    (a :: as, r)

end KindMap

/-! ## §3 The map of a set -/

namespace QualifierSet

/-- The map that a set stands for. -/
def view (s : QualifierSet) : KindMap := s.get?

theorem find?_view (s : QualifierSet) (k : Kind) : s.view.find? k = s.find? k := by
  apply Option.ext
  intro q
  rw [KindMap.find?, Option.map_eq_some_iff, find?_eq_some_iff]
  refine ⟨?_, ?_⟩
  · intro h
    obtain ⟨p, hp, rfl⟩ := h
    exact ⟨get?_eq_some_iff.mp hp, rfl⟩
  · intro h
    obtain ⟨hq, rfl⟩ := h
    exact ⟨q.payload, get?_eq_some_iff.mpr hq, rfl⟩

/-- Two sets that stand for one map are equal. -/
theorem ext_get? {s t : QualifierSet} (h : ∀ k, s.get? k = t.get? k) : s = t := by
  refine ext_find? fun k => ?_
  rw [← find?_view, ← find?_view, KindMap.find?, KindMap.find?, view, view, h k]

theorem isSome_view (s : QualifierSet) (k : Kind) : (s.view k).isSome = s.has k := by
  rw [has_eq_isSome_find?, ← find?_view, KindMap.find?, Option.isSome_map]

/-- **Entries in order.** The list of a set is the list of its map: the kinds in their order, each
with what the map has for it. -/
theorem toList_view (s : QualifierSet) : s.view.toList = s.toList := by
  have hsorted : s.view.toList.Pairwise Qualifier.Before := by
    have hall : Kind.all.Pairwise fun k l => k.rank < l.rank := by decide
    refine hall.filterMap _ fun k l hkl p hp q hq => ?_
    rw [find?_view] at hp hq
    rw [Qualifier.Before, kind_of_find? hp, kind_of_find? hq]
    exact hkl
  -- both lists are sorted, so it is enough that they have the same members
  refine Qualifier.eq_of_mem_iff hsorted s.sorted fun q => ?_
  rw [KindMap.toList, List.mem_filterMap]
  simp only [find?_view, find?_eq_some_iff]
  refine ⟨?_, ?_⟩
  · intro h
    obtain ⟨k, -, hq, -⟩ := h
    exact hq
  · intro hq
    exact ⟨q.kind, q.kind.mem_all, hq, rfl⟩

theorem length_domain_view (s : QualifierSet) : s.view.domain.length = s.size := by
  have hlen : s.view.toList.length = s.view.domain.length := by
    rw [KindMap.toList, List.length_filterMap_eq_countP, KindMap.domain,
      List.countP_eq_length_filter]
    simp only [KindMap.find?, Option.isSome_map]
  rw [← hlen, toList_view]
  rfl

/-! ## §4 One change -/

theorem view_insert (s : QualifierSet) (q : Qualifier) :
    (s.insert q).view = s.view.insert q := by
  funext l
  have hput : (s.insert q).get? l = if h : q.kind = l then some (h ▸ q.payload) else s.get? l :=
    get?_put s q.kind l q.payload
  rw [view, hput, KindMap.insert]
  by_cases h : q.kind = l
  · subst h
    simp
  · rw [dif_neg h, Function.update_of_ne (Ne.symm h), view]

theorem view_insertAll (s : QualifierSet) (qs : List Qualifier) :
    (s.insertAll qs).view = qs.foldl KindMap.insert s.view := by
  induction qs generalizing s with
  | nil => rfl
  | cons q qs ih =>
    rw [List.foldl_cons, ← view_insert]
    exact ih (s.insert q)

theorem view_ofList (qs : List Qualifier) : (ofList qs).view = KindMap.ofList qs := by
  have hempty : empty.view = KindMap.empty := by
    funext k
    refine Option.eq_none_iff_forall_ne_some.mpr fun p hp => ?_
    exact List.not_mem_nil (get?_eq_some_iff.mp hp)
  rw [ofList, view_insertAll, hempty, KindMap.ofList]

theorem view_erase (s : QualifierSet) (k : Kind) :
    (s.erase k).view = Function.update s.view k none := by
  funext l
  rw [view, get?_erase]
  by_cases h : k = l
  · subst h
    simp
  · rw [if_neg h, Function.update_of_ne (Ne.symm h), view]

theorem view_eraseAll (s : QualifierSet) (ks : KindSet) :
    (s.eraseAll ks).view = fun k => if ks.contains k then none else s.view k := by
  funext k
  exact get?_eraseAll s ks k

/-- A change of a payload that is there puts the new one in its place; otherwise nothing happens. -/
theorem view_modify (s : QualifierSet) (k : Kind) (f : Payload k → Payload k) :
    (s.modify k f).view = Function.update s.view k ((s.view k).map f) := by
  cases h : s.get? k with
  | none =>
    have hkeep : (s.view k).map f = s.view k := by simp [view, h]
    rw [hkeep, Function.update_eq_self, modify, h]
  | some p =>
    have hnew : (s.view k).map f = some (f p) := by simp [view, h]
    rw [hnew, modify, h]
    exact view_insert s ⟨k, f p⟩

/-- A removal of many kinds counts the kinds of the mask that were there. -/
theorem size_sub_size_eraseAll (s : QualifierSet) (ks : KindSet) :
    s.size - (s.eraseAll ks).size = s.view.domain.countP ks.contains := by
  have hkept : (s.eraseAll ks).view.domain = s.view.domain.filter fun k => !ks.contains k := by
    rw [KindMap.domain, KindMap.domain, view_eraseAll, List.filter_filter]
    refine List.filter_congr fun k _ => ?_
    by_cases hk : ks.contains k = true <;> simp [hk]
  -- what was there is counted by the mask or kept
  have hsplit := List.length_eq_countP_add_countP ks.contains (l := s.view.domain)
  rw [← length_domain_view, ← length_domain_view, hkept, ← List.countP_eq_length_filter, hsplit]
  simp only [Bool.not_eq_true, Bool.decide_eq_false]
  omega

/-- **One change.** The set and its map give the same answer, and the changed set stands for the
changed map. -/
theorem apply_view (s : QualifierSet) (c : Change) :
    (s.apply c).1 = (s.view.apply c).1 ∧ (s.apply c).2.view = (s.view.apply c).2 := by
  cases c with
  | insert q => exact ⟨congrArg Answer.displaced (find?_view s q.kind).symm, view_insert s q⟩
  | extend qs => exact ⟨rfl, view_insertAll s qs⟩
  | remove k => exact ⟨congrArg Answer.displaced (find?_view s k).symm, view_erase s k⟩
  | removeAll ks => exact ⟨congrArg Answer.count (size_sub_size_eraseAll s ks), view_eraseAll s ks⟩
  | replace k f => exact ⟨rfl, view_modify s k f⟩

/-! ## §5 Histories -/

/-- **Any run.** The set and its map give the same answers all along, and at the end the set still
stands for the map. -/
theorem run_view (s : QualifierSet) (cs : List Change) :
    (s.run cs).1 = (s.view.run cs).1 ∧ (s.run cs).2.view = (s.view.run cs).2 := by
  induction cs generalizing s with
  | nil => exact ⟨rfl, rfl⟩
  | cons c cs ih =>
    -- the rest starts from the changed set, which stands for the changed map
    obtain ⟨hanswer, hview⟩ := apply_view s c
    obtain ⟨hrest, hend⟩ := ih (s.apply c).2
    rw [hview] at hrest hend
    simp only [run, KindMap.run]
    exact ⟨by rw [hanswer, hrest], hend⟩

/-- **A set of qualifiers is a finite map.** Start from any list and make any changes. Every change
answered what it answers on the map; the entries are the map's, strictly increasing in the order of
kinds and so at most one of a kind; all ways of reading the set agree with the map. Two histories
end in equal sets exactly when the sets they end in answer alike for every kind. -/
theorem history_refines_map (init : List Qualifier) (cs : List Change) :
    let s := ((ofList init).run cs).2
    let m := ((KindMap.ofList init).run cs).2
    ((ofList init).run cs).1 = ((KindMap.ofList init).run cs).1 ∧
    s.toList = m.toList ∧
    (s.toList.map (·.kind.rank)).Pairwise (· < ·) ∧
    (s.toList.map Qualifier.kind).Nodup ∧
    (∀ k, s.find? k = m.find? k) ∧
    (∀ k, s.get? k = m k) ∧
    (∀ k, s.has k = (m k).isSome) ∧
    s.size = m.domain.length ∧
    ∀ (init' : List Qualifier) (cs' : List Change),
      s = ((ofList init').run cs').2 ↔ ∀ k, s.find? k = ((ofList init').run cs').2.find? k := by
  intro s m
  obtain ⟨hanswers, hview⟩ := run_view (ofList init) cs
  rw [view_ofList] at hanswers hview
  have hm : s.view = m := hview
  have hrank : (s.toList.map (·.kind.rank)).Pairwise (· < ·) := List.pairwise_map.mpr s.sorted
  have hkind : (s.toList.map Qualifier.kind).Nodup := by
    refine List.pairwise_map.mpr (s.sorted.imp fun hab hk => ?_)
    rw [Qualifier.Before, hk] at hab
    exact Nat.lt_irrefl _ hab
  refine ⟨hanswers, ?_, hrank, hkind, ?_, ?_, ?_, ?_, ?_⟩
  · rw [← hm, toList_view]
  · intro k
    rw [← hm, find?_view]
  · intro k
    rw [← hm, view]
  · intro k
    rw [← hm, isSome_view]
  · rw [← hm, length_domain_view]
  · intro init' cs'
    exact ⟨fun h k => h ▸ rfl, ext_find?⟩

end QualifierSet

end Interop
