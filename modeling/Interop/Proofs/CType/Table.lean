import Interop.CType.Table
import Mathlib.Data.List.Nodup

/-!
# Interop.Proofs.CType.Table — the two indexes of a table agree.

A table keeps two indexes, from fingerprints to types and from declarations to fingerprints, and
neither of the two keys determines the other. What keeps the indexes together is that a type enters
both at once, and only if both of its keys are free. So a table is nothing but the list of the types
in it, any two of which are *apart*: they share neither fingerprint nor declaration. Every answer of
a table is read off that list here, and what the indexes have to do with each other follows.

The standard types are put in without looking whether their keys are free. They are apart from one
another, so nothing is overwritten.

## Main statements

* **`exists_ofTypes_of_reachable`** — every table that arises is the table of a list of types that
  are apart.
* **`indexes_of_reachable`** — the indexes of such a table are inverse to each other, and what an
  attempt to register a type does to it.
-/

namespace Interop

/-! ## §1 Entries with distinct keys -/

namespace TypeTable

section

variable {α β : Type} [DecidableEq α] {entries : List (α × β)} {key : α} {value : β}

/-- Where the keys are distinct, the value found under a key is the one entered with it. -/
theorem lookup_eq_some_iff (h : (entries.map Prod.fst).Nodup) :
    entries.lookup key = some value ↔ (key, value) ∈ entries := by
  induction entries with
  | nil => simp
  | cons e entries ih =>
    obtain ⟨k, v⟩ := e
    obtain ⟨hk, hrest⟩ := List.nodup_cons.mp h
    rw [List.lookup_cons, List.mem_cons, Prod.mk.injEq]
    by_cases heq : key = k
    · -- the first entry is found, and no other has its key
      subst heq
      have hnot : (key, value) ∉ entries := by
        intro hmem
        exact hk (List.mem_map.mpr ⟨_, hmem, rfl⟩)
      simp [hnot, eq_comm]
    · simp only [beq_eq_false_iff_ne.mpr heq, heq, false_and, false_or]
      exact ih hrest

/-- Something is found under exactly the keys that were entered. -/
theorem isSome_lookup_iff :
    (entries.lookup key).isSome = true ↔ key ∈ entries.map Prod.fst := by
  induction entries with
  | nil => simp
  | cons e entries ih =>
    rw [List.lookup_cons, List.map_cons, List.mem_cons]
    by_cases heq : key = e.1
    · simp [heq]
    · simp only [beq_eq_false_iff_ne.mpr heq, heq, false_or]
      exact ih

/-- Under a new key nothing is replaced. -/
theorem assign_of_not_mem (h : key ∉ entries.map Prod.fst) :
    assign entries key value = (key, value) :: entries := by
  have hkeep : entries.filter (·.1 ≠ key) = entries := by
    refine List.filter_eq_self.mpr fun e he => decide_eq_true ?_
    rintro rfl
    exact h (List.mem_map_of_mem he)
  rw [assign, hkeep]

end

end TypeTable

/-! ## §2 The table of a list of types -/

namespace CType

/-- Two types that can stand in one table. -/
def Apart (t u : CType) : Prop := t.fingerprint ≠ u.fingerprint ∧ t.declaration ≠ u.declaration

instance (t u : CType) : Decidable (t.Apart u) := inferInstanceAs (Decidable (_ ∧ _))

theorem Apart.symm {t u : CType} (h : t.Apart u) : u.Apart t := ⟨Ne.symm h.1, Ne.symm h.2⟩

/-- The standard types share no fingerprint and no declaration. -/
theorem pairwise_apart_standard : standard.Pairwise Apart := by decide +kernel

end CType

namespace TypeTable

open CType (Apart)

/-- The table of a list of types: each under its fingerprint, and that under its declaration. -/
def ofTypes (us : List CType) : TypeTable :=
  ⟨us.map fun u => (u.fingerprint, u), us.map fun u => (u.declaration, u.fingerprint)⟩

variable {us : List CType} {type u : CType} {d : String} {f : Fingerprint}

theorem map_fst_types_ofTypes : (ofTypes us).types.map Prod.fst = us.map CType.fingerprint := by
  rw [ofTypes, List.map_map]
  rfl

theorem map_fst_names_ofTypes : (ofTypes us).names.map Prod.fst = us.map CType.declaration := by
  rw [ofTypes, List.map_map]
  rfl

theorem nodup_types_ofTypes (h : us.Pairwise Apart) :
    ((ofTypes us).types.map Prod.fst).Nodup := by
  rw [map_fst_types_ofTypes]
  exact List.pairwise_map.mpr (h.imp And.left)

theorem nodup_names_ofTypes (h : us.Pairwise Apart) :
    ((ofTypes us).names.map Prod.fst).Nodup := by
  rw [map_fst_names_ofTypes]
  exact List.pairwise_map.mpr (h.imp And.right)

theorem mem_types_ofTypes : (f, u) ∈ (ofTypes us).types ↔ u ∈ us ∧ u.fingerprint = f := by
  simp only [ofTypes, List.mem_map, Prod.mk.injEq]
  exact ⟨fun ⟨v, hv, hf, heq⟩ => heq ▸ ⟨hv, hf⟩, fun ⟨hu, hf⟩ => ⟨u, hu, hf, rfl⟩⟩

theorem mem_names_ofTypes :
    (d, f) ∈ (ofTypes us).names ↔ ∃ u ∈ us, u.declaration = d ∧ u.fingerprint = f := by
  simp only [ofTypes, List.mem_map, Prod.mk.injEq]

/-- A fingerprint leads to the type of the list that has it. -/
theorem get?_ofTypes (h : us.Pairwise Apart) :
    (ofTypes us).get? f = some u ↔ u ∈ us ∧ u.fingerprint = f := by
  rw [get?, lookup_eq_some_iff (nodup_types_ofTypes h), mem_types_ofTypes]

/-- A declaration leads to the type of the list that has it. -/
theorem find?_ofTypes (h : us.Pairwise Apart) :
    (ofTypes us).find? d = some u ↔ u ∈ us ∧ u.declaration = d := by
  rw [find?, Option.bind_eq_some_iff]
  simp only [lookup_eq_some_iff (nodup_names_ofTypes h), mem_names_ofTypes, get?_ofTypes h]
  refine ⟨?_, ?_⟩
  · rintro ⟨f, ⟨v, hv, hd, hf⟩, hu, hf'⟩
    -- both have the fingerprint `f`, which leads to one type only
    have hsame : some v = some u :=
      ((get?_ofTypes h).mpr ⟨hv, hf⟩).symm.trans ((get?_ofTypes h).mpr ⟨hu, hf'⟩)
    cases hsame
    exact ⟨hu, hd⟩
  · rintro ⟨hu, hd⟩
    exact ⟨u.fingerprint, ⟨u, hu, hd, rfl⟩, hu, rfl⟩

theorem isSome_get?_ofTypes :
    ((ofTypes us).get? f).isSome = true ↔ ∃ u ∈ us, u.fingerprint = f := by
  rw [get?, isSome_lookup_iff, map_fst_types_ofTypes, List.mem_map]

theorem declares_ofTypes : (ofTypes us).declares d = true ↔ ∃ u ∈ us, u.declaration = d := by
  rw [declares, isSome_lookup_iff, map_fst_names_ofTypes, List.mem_map]

/-- A type that is apart from all others is put in front. -/
theorem put_ofTypes (h : ∀ u ∈ us, type.Apart u) :
    (ofTypes us).put type = ofTypes (type :: us) := by
  have htypes : type.fingerprint ∉ (ofTypes us).types.map Prod.fst := by
    rw [map_fst_types_ofTypes, List.mem_map]
    rintro ⟨u, hu, heq⟩
    exact (h u hu).1 heq.symm
  have hnames : type.declaration ∉ (ofTypes us).names.map Prod.fst := by
    rw [map_fst_names_ofTypes, List.mem_map]
    rintro ⟨u, hu, heq⟩
    exact (h u hu).2 heq.symm
  rw [put, assign_of_not_mem htypes, assign_of_not_mem hnames]
  rfl

/-- Types that are apart may be put in one after the other without looking. -/
theorem foldl_put_ofTypes {vs : List CType} (h : (vs.reverse ++ us).Pairwise Apart) :
    vs.foldl put (ofTypes us) = ofTypes (vs.reverse ++ us) := by
  induction vs generalizing us with
  | nil => rfl
  | cons v vs ih =>
    rw [List.reverse_cons, List.append_assoc] at h ⊢
    have hv : (v :: us).Pairwise Apart := (List.pairwise_append.mp h).2.1
    rw [List.foldl_cons, put_ofTypes (List.pairwise_cons.mp hv).1]
    exact ih h

/-- The table of the standard types, the last one first. -/
theorem standard_eq_ofTypes : standard = ofTypes CType.standard.reverse := by
  have hapart : (CType.standard.reverse ++ []).Pairwise Apart := by
    rw [List.append_nil, List.pairwise_reverse]
    exact CType.pairwise_apart_standard.imp Apart.symm
  have hput := foldl_put_ofTypes hapart
  rwa [List.append_nil] at hput

/-! ## §3 Registering a type -/

/-- The fingerprint of the type is taken, or its declaration is. -/
def Taken (t : TypeTable) (type : CType) : Prop :=
  (t.get? type.fingerprint).isSome = true ∨ t.declares type.declaration = true

/-- In the table of a list of types the keys of a type are free exactly when it is apart from
them. -/
theorem taken_ofTypes_iff : ¬ (ofTypes us).Taken type ↔ ∀ u ∈ us, type.Apart u := by
  rw [Taken, isSome_get?_ofTypes, declares_ofTypes, not_or]
  refine ⟨?_, ?_⟩
  · rintro ⟨hf, hd⟩ u hu
    exact ⟨fun heq => hf ⟨u, hu, heq.symm⟩, fun heq => hd ⟨u, hu, heq.symm⟩⟩
  · intro h
    refine ⟨?_, ?_⟩
    · rintro ⟨u, hu, heq⟩
      exact (h u hu).1 heq.symm
    · rintro ⟨u, hu, heq⟩
      exact (h u hu).2 heq.symm

variable {t : TypeTable}

/-- **A refusal comes first.** An attempt with a key that is taken stops before it writes. -/
theorem run_attempt_of_taken (h : t.Taken type) :
    (attempt type).run t = .error (.taken type.declaration) t := by
  have hfound : ((t.get? type.fingerprint).isSome || t.declares type.declaration) = true :=
    (Bool.or_eq_true _ _).mpr h
  simp only [attempt, EStateM.run_bind, EStateM.run_get, hfound, if_true, EStateM.run_throw]

/-- An attempt with free keys has written both indexes when it ends. -/
theorem run_attempt_of_not_taken (h : ¬ t.Taken type) :
    (attempt type).run t = .ok type.fingerprint (t.put type) := by
  have hfree : ((t.get? type.fingerprint).isSome || t.declares type.declaration) = false :=
    Bool.eq_false_iff.mpr (mt (Bool.or_eq_true _ _).mp h)
  simp only [attempt, EStateM.run_bind, EStateM.run_get, hfree, if_neg Bool.false_ne_true]
  rfl

/-- A type with a key that is taken is refused. -/
theorem register_of_taken (h : t.Taken type) :
    t.register type = .error (.taken type.declaration) ∧ t.insert type = t := by
  rw [register, insert, run_attempt_of_taken h]
  exact ⟨rfl, rfl⟩

/-- A type with free keys is put in, and found under its fingerprint. -/
theorem register_of_not_taken (h : ¬ t.Taken type) :
    t.register type = .ok (type.fingerprint, t.put type) ∧ t.insert type = t.put type := by
  rw [register, insert, run_attempt_of_not_taken h]
  exact ⟨rfl, rfl⟩

/-- **The tables that arise.** From the table without types or the table of the standard ones, by
any attempts to register a type, whether it is refused or not. -/
inductive Reachable : TypeTable → Prop where
  | empty : Reachable empty
  | standard : Reachable standard
  | insert {t : TypeTable} (type : CType) : Reachable t → Reachable (t.insert type)

/-- **A table is a list of types.** Whatever has been tried, the table is that of a list of types
any two of which are apart. -/
theorem exists_ofTypes_of_reachable (h : t.Reachable) :
    ∃ us : List CType, us.Pairwise Apart ∧ t = ofTypes us := by
  induction h with
  | empty => exact ⟨[], .nil, rfl⟩
  | standard =>
    refine ⟨CType.standard.reverse, ?_, standard_eq_ofTypes⟩
    exact List.pairwise_reverse.mpr (CType.pairwise_apart_standard.imp Apart.symm)
  | insert type _ ih =>
    obtain ⟨us, hapart, rfl⟩ := ih
    by_cases htaken : (ofTypes us).Taken type
    · exact ⟨us, hapart, (register_of_taken htaken).2⟩
    · have hfresh := taken_ofTypes_iff.mp htaken
      refine ⟨type :: us, List.pairwise_cons.mpr ⟨hfresh, hapart⟩, ?_⟩
      rw [(register_of_not_taken htaken).2, put_ofTypes hfresh]

/-! ## §4 The indexes -/

/-- **The indexes are inverse to each other.** Each has every key once. A fingerprint that a
declaration leads to is that of a type with this declaration, and a type that stands in the table
stands under its own fingerprint, to which its declaration leads. So there are as many declarations
as types, and a type is found under either of its keys. -/
structure Inverse (t : TypeTable) : Prop where
  nodup_types : (t.types.map Prod.fst).Nodup
  nodup_names : (t.names.map Prod.fst).Nodup
  type_of_name : ∀ d f, (d, f) ∈ t.names → ∃ u, (f, u) ∈ t.types ∧ u.declaration = d
  name_of_type : ∀ f u, (f, u) ∈ t.types → u.fingerprint = f ∧ (u.declaration, f) ∈ t.names
  size_names : t.names.length = t.size
  found : ∀ f u, (f, u) ∈ t.types →
    t.get? u.fingerprint = some u ∧ t.find? u.declaration = some u

theorem inverse_ofTypes (h : us.Pairwise Apart) : (ofTypes us).Inverse where
  nodup_types := nodup_types_ofTypes h
  nodup_names := nodup_names_ofTypes h
  type_of_name d f hmem := by
    obtain ⟨u, hu, hd, hf⟩ := mem_names_ofTypes.mp hmem
    exact ⟨u, mem_types_ofTypes.mpr ⟨hu, hf⟩, hd⟩
  name_of_type f u hmem := by
    obtain ⟨hu, hf⟩ := mem_types_ofTypes.mp hmem
    exact ⟨hf, mem_names_ofTypes.mpr ⟨u, hu, rfl, hf⟩⟩
  size_names := by simp [ofTypes, size]
  found f u hmem := by
    obtain ⟨hu, -⟩ := mem_types_ofTypes.mp hmem
    exact ⟨(get?_ofTypes h).mpr ⟨hu, rfl⟩, (find?_ofTypes h).mpr ⟨hu, rfl⟩⟩

/-- **One type more.** The table `t'` has the types of `t` and `type`, and under every other key it
answers like `t`. -/
structure Extends (t t' : TypeTable) (type : CType) : Prop where
  mem_types : ∀ f u, (f, u) ∈ t'.types ↔ (f = type.fingerprint ∧ u = type) ∨ (f, u) ∈ t.types
  size_eq : t'.size = t.size + 1
  get?_eq : ∀ f, t'.get? f = if f = type.fingerprint then some type else t.get? f
  find?_eq : ∀ d, t'.find? d = if d = type.declaration then some type else t.find? d
  declares_eq : ∀ d, t'.declares d = (d == type.declaration || t.declares d)
  resolve_eq : ∀ d, t'.resolve d = if d = type.declaration then .ok type else t.resolve d

theorem extends_ofTypes (h : (type :: us).Pairwise Apart) :
    (ofTypes us).Extends (ofTypes (type :: us)) type := by
  obtain ⟨hfresh, hapart⟩ := List.pairwise_cons.mp h
  have hfind (d : String) : (ofTypes (type :: us)).find? d
      = if d = type.declaration then some type else (ofTypes us).find? d := by
    refine Option.ext fun u => ?_
    rw [find?_ofTypes h, List.mem_cons]
    split
    · rename_i hd
      subst hd
      refine ⟨?_, ?_⟩
      · rintro ⟨rfl | hu, hd⟩
        · rfl
        · exact absurd hd.symm (hfresh u hu).2
      · intro heq
        cases heq
        exact ⟨.inl rfl, rfl⟩
    · rename_i hd
      rw [find?_ofTypes hapart]
      refine and_congr_left fun hu => or_iff_right ?_
      rintro rfl
      exact hd hu.symm
  refine ⟨fun f u => ?_, rfl, fun f => ?_, hfind, fun d => ?_, fun d => ?_⟩
  · rw [mem_types_ofTypes, mem_types_ofTypes, List.mem_cons, or_and_right]
    refine or_congr ⟨?_, ?_⟩ Iff.rfl
    · rintro ⟨rfl, rfl⟩
      exact ⟨rfl, rfl⟩
    · rintro ⟨rfl, rfl⟩
      exact ⟨rfl, rfl⟩
  · show List.lookup f ((type.fingerprint, type) :: (ofTypes us).types) = _
    rw [List.lookup_cons]
    by_cases hf : f = type.fingerprint
    · rw [if_pos hf, hf, beq_self_eq_true]
    · rw [if_neg hf, beq_eq_false_iff_ne.mpr hf]
      rfl
  · show (List.lookup d ((type.declaration, type.fingerprint) :: (ofTypes us).names)).isSome = _
    rw [List.lookup_cons]
    cases d == type.declaration <;> rfl
  · rw [resolve, hfind d]
    by_cases hd : d = type.declaration
    · rw [if_pos hd, if_pos hd]
    · rw [if_neg hd, if_neg hd]
      rfl

/-- **What registering does.** In a table that arises, the two indexes are inverse to each other. A
type is refused exactly when one of its keys is taken; the fault then names its declaration, and
the attempt leaves the table behind as it was. A type that is not refused is answered with its
fingerprint; the table that is left behind has one type more, and answers everything that is not
about this type as before. -/
theorem indexes_of_reachable (h : t.Reachable) :
    t.Inverse ∧ ∀ type : CType,
      (∀ e, t.register type = .error e ↔ t.Taken type ∧ e = .taken type.declaration) ∧
      (∀ f t', t.register type = .ok (f, t') ↔
        ¬ t.Taken type ∧ f = type.fingerprint ∧ t' = t.insert type) ∧
      (t.Taken type → t.insert type = t) ∧
      (¬ t.Taken type → t.Extends (t.insert type) type) := by
  obtain ⟨us, hapart, rfl⟩ := exists_ofTypes_of_reachable h
  refine ⟨inverse_ofTypes hapart, fun type => ?_⟩
  by_cases htaken : (ofTypes us).Taken type
  · obtain ⟨hregister, hinsert⟩ := register_of_taken htaken
    refine ⟨fun e => ?_, fun f t' => ?_, fun _ => hinsert, fun hnot => absurd htaken hnot⟩
    · rw [hregister, and_iff_right htaken, Except.error.injEq, eq_comm]
    · rw [hregister]
      exact iff_of_false nofun fun hnot => hnot.1 htaken
  · obtain ⟨hregister, hinsert⟩ := register_of_not_taken htaken
    refine ⟨fun e => ?_, fun f t' => ?_, fun hyes => absurd hyes htaken, fun _ => ?_⟩
    · rw [hregister]
      exact iff_of_false nofun fun hyes => htaken hyes.1
    · rw [hregister, hinsert, and_iff_right htaken, Except.ok.injEq, Prod.mk.injEq, eq_comm,
        eq_comm (a := t')]
    · have hfresh := taken_ofTypes_iff.mp htaken
      rw [hinsert, put_ofTypes hfresh]
      exact extends_ofTypes (List.pairwise_cons.mpr ⟨hfresh, hapart⟩)

/-- The standard types and the pointer to one of them, after a second `float` was refused. -/
def header : TypeTable :=
  (standard.insert (.scalar "float" .int)).insert (.pointerTo (.scalar "float" .float))

/-- The table of a header, and a type that is refused by it although its name is new: another
typedef is declared like the pointer. -/
theorem indexes_of_reachable_header :
    header.Reachable ∧ header.size = 17 ∧
    (header.Inverse ∧ ∀ type : CType,
      (∀ e, header.register type = .error e ↔
        header.Taken type ∧ e = .taken type.declaration) ∧
      (∀ f t', header.register type = .ok (f, t') ↔
        ¬ header.Taken type ∧ f = type.fingerprint ∧ t' = header.insert type) ∧
      (header.Taken type → header.insert type = header) ∧
      (¬ header.Taken type → header.Extends (header.insert type) type)) ∧
    header.insert (.typedefPointer "float *" .nothing .raw) = header := by
  have hreach : header.Reachable := (Reachable.standard.insert _).insert _
  have htaken : header.Taken (.typedefPointer "float *" .nothing .raw) := by
    right
    decide +kernel
  obtain ⟨hinverse, hregister⟩ := indexes_of_reachable hreach
  obtain ⟨-, -, hkeep, -⟩ := hregister (.typedefPointer "float *" .nothing .raw)
  exact ⟨hreach, by decide +kernel, ⟨hinverse, hregister⟩, hkeep htaken⟩

end TypeTable

end Interop
