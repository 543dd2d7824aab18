import Interop.Qualifier.Basic

/-!
# Interop.Qualifier.Set — the qualifiers of one parameter.

A parameter has at most one qualifier of each kind. The qualifiers are kept in the order of their
kinds, so two sets with the same qualifiers are equal however they came about, and reading a set
from front to back does not depend on its history.
-/

namespace Interop

open Qualifier (Kind KindSet Payload)

/-- The first qualifier comes before the second in the order of kinds. -/
def Qualifier.Before (p q : Qualifier) : Prop := p.kind.rank < q.kind.rank

instance Qualifier.instDecidableBefore (p q : Qualifier) : Decidable (p.Before q) :=
  inferInstanceAs (Decidable (p.kind.rank < q.kind.rank))

/-! ## Finding a kind in a sorted list -/

namespace Qualifier

/-- Where a kind stands in a list, or where it would have to stand. -/
inductive Slot where
  | taken (index : Nat)
  | free (index : Nat)
  deriving DecidableEq, Repr

/-- Some qualifier takes the slot. -/
def Slot.isTaken : Slot → Bool
  | taken _ => true
  | free _ => false

/-- The slot of `k` among the places from `lo` up to `hi`, which are halved until it is found. -/
def slotBetween (es : List Qualifier) (k : Kind) (lo hi : Nat) (h : hi ≤ es.length) : Slot :=
  if _ : lo < hi then
    let mid := lo + (hi - lo) / 2
    have hmid : mid < es.length := by omega
    if es[mid].kind = k then .taken mid
    else if es[mid].kind.rank < k.rank then slotBetween es k (mid + 1) hi h
    else slotBetween es k lo mid (by omega)
  else .free lo
termination_by hi - lo

/-- The slot of `k` in the list. -/
def slot (es : List Qualifier) (k : Kind) : Slot :=
  slotBetween es k 0 es.length (Nat.le_refl _)

/-- The qualifier of the kind. -/
def lookup (es : List Qualifier) (k : Kind) : Option Qualifier :=
  match slot es k with
  | .taken i => es[i]?
  | .free _ => none

/-- The list with `q` in its slot, instead of the qualifier that took it. -/
def place (q : Qualifier) (es : List Qualifier) : List Qualifier :=
  match slot es q.kind with
  | .taken i => es.set i q
  | .free i => es.insertIdx i q

/-- The list without the qualifier of the kind. -/
def withdraw (k : Kind) (es : List Qualifier) : List Qualifier :=
  match slot es k with
  | .taken i => es.eraseIdx i
  | .free _ => es

/-- The list is cut at `k`: what comes before the kind, the qualifier of the kind if there is one,
and what comes after. The slot lies at the cut. -/
structure Cut (es : List Qualifier) (k : Kind) (pre : List Qualifier) (here : Option Qualifier)
    (post : List Qualifier) : Prop where
  split : es = pre ++ (here.toList ++ post)
  pre_lt : ∀ e ∈ pre, e.kind.rank < k.rank
  here_kind : ∀ e ∈ here, e.kind = k
  lt_post : ∀ e ∈ post, k.rank < e.kind.rank
  slot_eq : slot es k = if here.isSome then .taken pre.length else .free pre.length

/-- In a sorted list the members in front of a place come before the one at the place. -/
theorem before_of_mem_take {es : List Qualifier} (hs : es.Pairwise Before) {i : Nat}
    (hi : i < es.length) {e : Qualifier} (he : e ∈ es.take i) : e.Before es[i] := by
  rw [← List.take_append_drop i es, List.drop_eq_getElem_cons hi] at hs
  exact (List.pairwise_append.mp hs).2.2 e he _ List.mem_cons_self

/-- In a sorted list the members behind a place come after the one at the place. -/
theorem before_of_mem_drop {es : List Qualifier} (hs : es.Pairwise Before) {i : Nat}
    (hi : i < es.length) {e : Qualifier} (he : e ∈ es.drop (i + 1)) : es[i].Before e := by
  rw [← List.take_append_drop i es, List.drop_eq_getElem_cons hi] at hs
  exact (List.pairwise_cons.mp (List.pairwise_append.mp hs).2.1).1 e he

/-- Inserting where one list ends and the next begins. -/
theorem insertIdx_length_append (pre post : List Qualifier) (q : Qualifier) :
    (pre ++ post).insertIdx pre.length q = pre ++ q :: post := by
  induction pre with
  | nil => simp
  | cons e pre ih => simp [ih]

/-- **The search keeps the kind between its bounds.** As long as everything in front of `lo` comes
before the kind and everything from `hi` on comes after it, halving ends at the cut. -/
theorem slotBetween_spec {es : List Qualifier} (hs : es.Pairwise Before) {k : Kind} {lo hi : Nat}
    (h : hi ≤ es.length) (hle : lo ≤ hi) (hlo : ∀ e ∈ es.take lo, e.kind.rank < k.rank)
    (hhi : ∀ e ∈ es.drop hi, k.rank < e.kind.rank) :
    ∃ (pre : List Qualifier) (here : Option Qualifier) (post : List Qualifier),
      es = pre ++ (here.toList ++ post) ∧ (∀ e ∈ pre, e.kind.rank < k.rank) ∧
      (∀ e ∈ here, e.kind = k) ∧ (∀ e ∈ post, k.rank < e.kind.rank) ∧
      slotBetween es k lo hi h = if here.isSome then .taken pre.length else .free pre.length := by
  fun_induction slotBetween es k lo hi h with
  | case1 lo hi h hlt mid hmid heq =>
    -- the kind stands in the middle, and the list is cut there
    refine ⟨es.take mid, some es[mid], es.drop (mid + 1), ?_, ?_, ?_, ?_, ?_⟩
    · rw [Option.toList_some, List.singleton_append, ← List.drop_eq_getElem_cons hmid,
        List.take_append_drop]
    · intro e he
      exact heq ▸ before_of_mem_take hs hmid he
    · intro e he
      rw [← Option.mem_some.mp he, heq]
    · intro e he
      exact heq ▸ before_of_mem_drop hs hmid he
    · simp [Nat.min_eq_left (Nat.le_of_lt hmid)]
  | case2 lo hi h hlt mid hmid hne hless ih =>
    -- the kind lies behind the middle: the new lower bound has only earlier kinds in front of it
    refine ih (by omega) (fun e he => ?_) hhi
    rw [List.take_succ_eq_append_getElem hmid, List.mem_append, List.mem_singleton] at he
    rcases he with he | rfl
    · exact Nat.lt_trans (before_of_mem_take hs hmid he) hless
    · exact hless
  | case3 lo hi h hlt mid hmid hne hge ih =>
    -- the kind lies in front of the middle: the new upper bound has only later kinds behind it
    have hgt : k.rank < es[mid].kind.rank :=
      Nat.lt_of_le_of_ne (by omega) fun hr => hne (Kind.rank_inj hr.symm)
    refine ih (by omega) hlo (fun e he => ?_)
    rw [List.drop_eq_getElem_cons hmid] at he
    rcases List.mem_cons.mp he with rfl | he
    · exact hgt
    · exact Nat.lt_trans hgt (before_of_mem_drop hs hmid he)
  | case4 lo hi h hnot =>
    -- the bounds have met, so the kind is missing and would stand here
    have hlh : lo = hi := by omega
    subst hlh
    exact ⟨es.take lo, none, es.drop lo, by simp, hlo, by simp, hhi, by simp [Nat.min_eq_left h]⟩

/-- **Every sorted list can be cut at every kind.** -/
theorem exists_cut {es : List Qualifier} (hs : es.Pairwise Before) (k : Kind) :
    ∃ pre here post, Cut es k pre here post := by
  obtain ⟨pre, here, post, h1, h2, h3, h4, h5⟩ :=
    slotBetween_spec hs (k := k) (Nat.le_refl es.length) (Nat.zero_le _) (by simp) (by simp)
  exact ⟨pre, here, post, h1, h2, h3, h4, h5⟩

namespace Cut

variable {es : List Qualifier} {k : Kind} {pre post : List Qualifier} {here : Option Qualifier}

/-- Looking a kind up finds what stands at the cut. -/
theorem lookup_eq (h : Cut es k pre here post) : lookup es k = here := by
  unfold lookup
  rw [h.slot_eq]
  cases here with
  | none => rfl
  | some e => simp [h.split]

/-- Placing a qualifier puts it at the cut. -/
theorem place_eq {q : Qualifier} (h : Cut es q.kind pre here post) :
    place q es = pre ++ q :: post := by
  unfold place
  rw [h.slot_eq]
  cases here with
  | none => simp [h.split, insertIdx_length_append]
  | some e => simp [h.split]

/-- Withdrawing a kind leaves what comes before and after. -/
theorem withdraw_eq (h : Cut es k pre here post) : withdraw k es = pre ++ post := by
  unfold withdraw
  rw [h.slot_eq]
  cases here with
  | none => simp [h.split]
  | some e => simp [h.split, List.eraseIdx_append_of_length_le]

/-- The members of another kind are those before and after the cut. -/
theorem mem_sides_iff (h : Cut es k pre here post) {e : Qualifier} :
    e ∈ pre ++ post ↔ e ∈ es ∧ e.kind ≠ k := by
  rw [h.split]
  simp only [List.mem_append, Option.mem_toList]
  refine ⟨?_, ?_⟩
  · intro hx
    rcases hx with he | he
    · exact ⟨.inl he, fun hk => Nat.lt_irrefl _ (hk ▸ h.pre_lt e he)⟩
    · exact ⟨.inr (.inr he), fun hk => Nat.lt_irrefl _ (hk ▸ h.lt_post e he)⟩
  · intro hx
    obtain ⟨he | he | he, hk⟩ := hx
    · exact .inl he
    · exact absurd (h.here_kind e he) hk
    · exact .inr he

end Cut

/-! ## Membership after each operation -/

/-- In a sorted list a qualifier is found under a kind exactly when it is there and of that
kind. -/
theorem lookup_eq_some_iff {es : List Qualifier} (hs : es.Pairwise Before) {q : Qualifier}
    {k : Kind} : lookup es k = some q ↔ q ∈ es ∧ q.kind = k := by
  obtain ⟨pre, here, post, h⟩ := exists_cut hs k
  rw [h.lookup_eq]
  refine ⟨?_, ?_⟩
  · rintro rfl
    exact ⟨by simp [h.split], h.here_kind q rfl⟩
  · intro hx
    obtain ⟨hq, hk⟩ := hx
    -- a member of the kind is on neither side, so it is the one at the cut
    have hside : q ∉ pre ++ post := fun hq => (h.mem_sides_iff.mp hq).2 hk
    rw [h.split, List.mem_append, List.mem_append, Option.mem_toList] at hq
    rw [List.mem_append] at hside
    rcases hq with hq | hq | hq
    · exact absurd (.inl hq) hside
    · exact hq
    · exact absurd (.inr hq) hside

/-- After placing a qualifier the list holds it and what it held of other kinds. -/
theorem mem_place_iff {q : Qualifier} {es : List Qualifier} (hs : es.Pairwise Before)
    {e : Qualifier} : e ∈ place q es ↔ e = q ∨ e ∈ es ∧ e.kind ≠ q.kind := by
  obtain ⟨pre, here, post, h⟩ := exists_cut hs q.kind
  rw [h.place_eq, ← h.mem_sides_iff, List.mem_append, List.mem_append, List.mem_cons, or_left_comm]

/-- After withdrawing a kind the list holds what it held of other kinds. -/
theorem mem_withdraw_iff {k : Kind} {es : List Qualifier} (hs : es.Pairwise Before)
    {e : Qualifier} : e ∈ withdraw k es ↔ e ∈ es ∧ e.kind ≠ k := by
  obtain ⟨pre, here, post, h⟩ := exists_cut hs k
  rw [h.withdraw_eq, h.mem_sides_iff]

/-- Placing keeps the order. -/
theorem pairwise_place (q : Qualifier) {es : List Qualifier} (hs : es.Pairwise Before) :
    (place q es).Pairwise Before := by
  obtain ⟨pre, here, post, h⟩ := exists_cut hs q.kind
  -- the sides are sorted as a part of the list, whatever stood at the cut
  have hsides : (pre ++ post).Pairwise Before := by
    refine hs.sublist ?_
    rw [h.split]
    exact (List.sublist_append_right _ _).append_left pre
  obtain ⟨hpre, hpost, hcross⟩ := List.pairwise_append.mp hsides
  rw [h.place_eq]
  refine List.pairwise_append.mpr ⟨hpre, List.pairwise_cons.mpr ⟨h.lt_post, hpost⟩, ?_⟩
  intro a ha b hb
  rcases List.mem_cons.mp hb with rfl | hb
  · exact h.pre_lt a ha
  · exact hcross a ha b hb

/-- Withdrawing keeps the order. -/
theorem pairwise_withdraw (k : Kind) {es : List Qualifier} (hs : es.Pairwise Before) :
    (withdraw k es).Pairwise Before := by
  unfold withdraw
  split
  · exact hs.sublist (List.eraseIdx_sublist _ _)
  · exact hs

/-- Sorted lists with the same members are equal. -/
theorem eq_of_mem_iff {es ds : List Qualifier} (hes : es.Pairwise Before)
    (hds : ds.Pairwise Before) (h : ∀ q, q ∈ es ↔ q ∈ ds) : es = ds := by
  induction es generalizing ds with
  | nil => exact (List.eq_nil_iff_forall_not_mem.mpr fun q hq => by simpa using (h q).mpr hq).symm
  | cons e es ih =>
    cases ds with
    | nil => simpa using (h e).mp List.mem_cons_self
    | cons d ds =>
      obtain ⟨he, hes'⟩ := List.pairwise_cons.mp hes
      obtain ⟨hd, hds'⟩ := List.pairwise_cons.mp hds
      have hed : e = d := by
        rcases List.mem_cons.mp ((h e).mp List.mem_cons_self) with hed | hed
        · exact hed
        · rcases List.mem_cons.mp ((h d).mpr List.mem_cons_self) with hde | hde
          · exact hde.symm
          · exact absurd (he d hde) (Nat.lt_asymm (hd e hed))
      subst hed
      -- the head comes before every other member, so it is none of them
      have hnot {q : Qualifier} (hq : q ∈ es ∨ q ∈ ds) : q ≠ e := by
        rintro rfl
        rcases hq with hq | hq
        · exact Nat.lt_irrefl _ (he _ hq)
        · exact Nat.lt_irrefl _ (hd _ hq)
      have htail (q : Qualifier) : q ∈ es ↔ q ∈ ds := by
        refine ⟨?_, ?_⟩
        · intro hq
          exact (List.mem_cons.mp ((h q).mp (List.mem_cons_of_mem _ hq))).resolve_left
            (hnot (.inl hq))
        · intro hq
          exact (List.mem_cons.mp ((h q).mpr (List.mem_cons_of_mem _ hq))).resolve_left
            (hnot (.inr hq))
      rw [ih hes' hds' htail]

end Qualifier

/-! ## The set -/

/-- Qualifiers in the order of their kinds, one of a kind. -/
structure QualifierSet where
  toList : List Qualifier
  sorted : toList.Pairwise Qualifier.Before
  deriving DecidableEq

namespace QualifierSet

def empty : QualifierSet := ⟨[], .nil⟩

instance : EmptyCollection QualifierSet := ⟨empty⟩

instance : Inhabited QualifierSet := ⟨empty⟩

def size (s : QualifierSet) : Nat := s.toList.length

def isEmpty (s : QualifierSet) : Bool := s.toList.isEmpty

/-- The qualifier of a kind. -/
def find? (s : QualifierSet) (k : Kind) : Option Qualifier := Qualifier.lookup s.toList k

/-- What the qualifier of a kind carries. -/
def get? (s : QualifierSet) (k : Kind) : Option (Payload k) := (s.find? k).bind (·.payload? k)

/-- The set has a qualifier of the kind. -/
def has (s : QualifierSet) (k : Kind) : Bool := (Qualifier.slot s.toList k).isTaken

/-- The kinds the set has a qualifier of. -/
def kinds (s : QualifierSet) : KindSet := .ofList (s.toList.map Qualifier.kind)

/-- Some qualifier cannot be honoured by a plain call. -/
def isSpecial (s : QualifierSet) : Bool := s.kinds.meets .special

/-- The names of the parameters that the qualifiers mention, each with the kind that mentions it. -/
def references (s : QualifierSet) : List (Kind × String) :=
  s.toList.flatMap fun q => q.references.map (q.kind, ·)

/-! ## Changing a set -/

/-- The set with `q` instead of any qualifier of its kind. -/
def insert (s : QualifierSet) (q : Qualifier) : QualifierSet :=
  ⟨q.place s.toList, Qualifier.pairwise_place q s.sorted⟩

/-- The set with the qualifiers of a list inserted one after the other. -/
def insertAll (s : QualifierSet) (qs : List Qualifier) : QualifierSet := qs.foldl insert s

/-- The set of the qualifiers in a list, the last of a kind counting. -/
def ofList (qs : List Qualifier) : QualifierSet := empty.insertAll qs

/-- The set with a payload put in. -/
def put (s : QualifierSet) (k : Kind) (p : Payload k) : QualifierSet := s.insert ⟨k, p⟩

/-- The set without the kind. -/
def erase (s : QualifierSet) (k : Kind) : QualifierSet :=
  ⟨Qualifier.withdraw k s.toList, Qualifier.pairwise_withdraw k s.sorted⟩

/-- The set without all the kinds of another set. -/
def eraseAll (s : QualifierSet) (ks : KindSet) : QualifierSet :=
  ⟨s.toList.filter (!ks.contains ·.kind), s.sorted.filter _⟩

/-- The set with the payload of a kind changed, if there is one. -/
def modify (s : QualifierSet) (k : Kind) (f : Payload k → Payload k) : QualifierSet :=
  match s.get? k with
  | some p => s.put k (f p)
  | none => s

/-- An insertion together with the qualifier it displaced. -/
def exchange (s : QualifierSet) (q : Qualifier) : Option Qualifier × QualifierSet :=
  (s.find? q.kind, s.insert q)

/-- A removal together with the qualifier it took out. -/
def extract (s : QualifierSet) (k : Kind) : Option Qualifier × QualifierSet :=
  (s.find? k, s.erase k)

/-- A removal of many kinds together with the number of qualifiers it took out. -/
def extractAll (s : QualifierSet) (ks : KindSet) : Nat × QualifierSet :=
  (s.size - (s.eraseAll ks).size, s.eraseAll ks)

/-- A change of the payload of a kind together with whether there was one to change. -/
def amend (s : QualifierSet) (k : Kind) (f : Payload k → Payload k) : Bool × QualifierSet :=
  ((s.get? k).isSome, s.modify k f)

/-! ## Lookup after each operation -/

@[simp] theorem toList_empty : (∅ : QualifierSet).toList = [] := rfl

/-- Without qualifiers nothing stands in the way of a plain call. -/
@[simp] theorem isSpecial_empty : (∅ : QualifierSet).isSpecial = false := by decide

/-- The two ways to ask for a kind agree. -/
theorem has_eq_isSome_find? (s : QualifierSet) (k : Kind) : s.has k = (s.find? k).isSome := by
  obtain ⟨pre, here, post, h⟩ := Qualifier.exists_cut s.sorted k
  rw [has, find?, h.lookup_eq, h.slot_eq]
  cases here <;> rfl

/-- A qualifier is found under a kind exactly when it is in the set and of that kind. -/
theorem find?_eq_some_iff {s : QualifierSet} {k : Kind} {q : Qualifier} :
    s.find? k = some q ↔ q ∈ s.toList ∧ q.kind = k :=
  Qualifier.lookup_eq_some_iff s.sorted

/-- A qualifier is found under its own kind. -/
theorem kind_of_find? {s : QualifierSet} {k : Kind} {q : Qualifier} (h : s.find? k = some q) :
    q.kind = k :=
  (find?_eq_some_iff.mp h).2

/-- A payload is carried under a kind exactly when the set holds the qualifier made of it. -/
theorem get?_eq_some_iff {s : QualifierSet} {k : Kind} {p : Payload k} :
    s.get? k = some p ↔ ⟨k, p⟩ ∈ s.toList := by
  simp [get?, Option.bind_eq_some_iff, find?_eq_some_iff, Qualifier.payload?_eq_some_iff]

/-- **Extensionality.** Two sets that answer alike for every kind are equal. -/
theorem ext_find? {s t : QualifierSet} (h : ∀ k, s.find? k = t.find? k) : s = t := by
  have hl : s.toList = t.toList := by
    refine Qualifier.eq_of_mem_iff s.sorted t.sorted fun q => ?_
    have hs : s.find? q.kind = some q ↔ q ∈ s.toList := by simp [find?_eq_some_iff]
    have ht : t.find? q.kind = some q ↔ q ∈ t.toList := by simp [find?_eq_some_iff]
    rw [← hs, ← ht, h q.kind]
  cases s
  cases t
  simpa using hl

/-- The kinds that are present are those of the members. -/
theorem has_iff {s : QualifierSet} {k : Kind} : s.has k = true ↔ ∃ q ∈ s.toList, q.kind = k := by
  rw [has_eq_isSome_find?, Option.isSome_iff_exists]
  simp only [find?_eq_some_iff]

/-- The mask of a set shows exactly the kinds it has a qualifier of. -/
theorem contains_kinds (s : QualifierSet) (k : Kind) : s.kinds.contains k = s.has k := by
  rw [Bool.eq_iff_iff, has_iff]
  simp [kinds]

/-- A kind is present exactly when it carries a payload. -/
theorem has_eq_isSome_get? (s : QualifierSet) (k : Kind) : s.has k = (s.get? k).isSome := by
  rw [Bool.eq_iff_iff, has_iff, Option.isSome_iff_exists]
  simp only [get?_eq_some_iff]
  refine ⟨?_, ?_⟩
  · intro h
    obtain ⟨q, hq, rfl⟩ := h
    exact ⟨q.payload, hq⟩
  · intro h
    obtain ⟨p, hp⟩ := h
    exact ⟨⟨k, p⟩, hp, rfl⟩

/-- **Lookup after insertion.** The inserted qualifier is found under its kind; under every other
kind the answer is the old one. -/
theorem find?_insert (s : QualifierSet) (q : Qualifier) (k : Kind) :
    (s.insert q).find? k = if q.kind = k then some q else s.find? k := by
  apply Option.ext
  intro e
  have hmem : e ∈ (s.insert q).toList ↔ e = q ∨ e ∈ s.toList ∧ e.kind ≠ q.kind :=
    Qualifier.mem_place_iff s.sorted
  rw [find?_eq_some_iff, hmem]
  split
  · rename_i hk
    subst hk
    refine ⟨?_, ?_⟩
    · intro h
      obtain ⟨rfl | ⟨_, hne⟩, he⟩ := h
      · rfl
      · exact absurd he hne
    · intro he
      cases he
      exact ⟨.inl rfl, rfl⟩
  · rename_i hk
    rw [find?_eq_some_iff]
    refine ⟨?_, ?_⟩
    · intro h
      obtain ⟨rfl | ⟨he, _⟩, hek⟩ := h
      · exact absurd hek hk
      · exact ⟨he, hek⟩
    · intro h
      obtain ⟨he, hek⟩ := h
      exact ⟨.inr ⟨he, fun hq => hk (hq.symm.trans hek)⟩, hek⟩

/-- **Lookup after removal.** Under the dropped kind nothing is found; under every other kind the
answer is the old one. -/
theorem find?_erase (s : QualifierSet) (k l : Kind) :
    (s.erase k).find? l = if k = l then none else s.find? l := by
  apply Option.ext
  intro e
  have hmem : e ∈ (s.erase k).toList ↔ e ∈ s.toList ∧ e.kind ≠ k :=
    Qualifier.mem_withdraw_iff s.sorted
  rw [find?_eq_some_iff, hmem]
  split
  · rename_i hk
    subst hk
    simp
  · rename_i hk
    rw [find?_eq_some_iff]
    refine ⟨?_, ?_⟩
    · intro hx
      obtain ⟨⟨he, _⟩, hel⟩ := hx
      exact ⟨he, hel⟩
    · intro hx
      obtain ⟨he, hel⟩ := hx
      exact ⟨⟨he, fun h => hk (h.symm.trans hel)⟩, hel⟩

/-- **Lookup after the removal of many kinds.** Under a dropped kind nothing is found; under every
other kind the answer is the old one. -/
theorem find?_eraseAll (s : QualifierSet) (ks : KindSet) (k : Kind) :
    (s.eraseAll ks).find? k = if ks.contains k then none else s.find? k := by
  apply Option.ext
  intro e
  have hmem : e ∈ (s.eraseAll ks).toList ↔ e ∈ s.toList ∧ ks.contains e.kind = false := by
    simp [eraseAll]
  rw [find?_eq_some_iff, hmem]
  split
  · rename_i hk
    refine ⟨?_, ?_⟩
    · intro h
      obtain ⟨⟨_, he⟩, rfl⟩ := h
      exact absurd hk (by simp [he])
    · intro he
      cases he
  · rename_i hk
    rw [find?_eq_some_iff]
    refine ⟨?_, ?_⟩
    · intro h
      obtain ⟨⟨he, _⟩, hek⟩ := h
      exact ⟨he, hek⟩
    · intro h
      obtain ⟨he, rfl⟩ := h
      exact ⟨⟨he, by simpa using hk⟩, rfl⟩

/-- The payload that was put in is found under its kind; under every other kind the answer is the
old one. -/
theorem get?_put (s : QualifierSet) (k l : Kind) (p : Payload k) :
    (s.put k p).get? l = if h : k = l then some (h ▸ p) else s.get? l := by
  simp only [put, get?, find?_insert]
  by_cases h : k = l
  · subst h; simp
  · simp [h]

/-- A change of the payload of one kind does not show under another. -/
theorem get?_modify_of_ne (s : QualifierSet) {k l : Kind} (f : Payload k → Payload k) (h : k ≠ l) :
    (s.modify k f).get? l = s.get? l := by
  unfold modify
  cases s.get? k with
  | none => rfl
  | some p =>
    show (s.put k (f p)).get? l = s.get? l
    rw [get?_put, dif_neg h]

/-- Under its own kind the changed payload is found, if there was one. -/
theorem get?_modify_self (s : QualifierSet) (k : Kind) (f : Payload k → Payload k) :
    (s.modify k f).get? k = (s.get? k).map f := by
  unfold modify
  cases h : s.get? k with
  | none => exact h
  | some p =>
    show (s.put k (f p)).get? k = some (f p)
    rw [get?_put, dif_pos rfl]

/-- Under the dropped kind no payload is found; under every other kind the answer is the old
one. -/
theorem get?_erase (s : QualifierSet) (k l : Kind) :
    (s.erase k).get? l = if k = l then none else s.get? l := by
  simp only [get?, find?_erase]
  split <;> simp

/-- Under a dropped kind no payload is found; under every other kind the answer is the old one. -/
theorem get?_eraseAll (s : QualifierSet) (ks : KindSet) (k : Kind) :
    (s.eraseAll ks).get? k = if ks.contains k then none else s.get? k := by
  simp only [get?, find?_eraseAll]
  split <;> simp

end QualifierSet

end Interop
