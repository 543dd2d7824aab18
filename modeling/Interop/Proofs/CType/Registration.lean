import Interop.Proofs.CType.Table
import Mathlib.Data.List.Perm.Basic

/-!
# Interop.Proofs.CType.Registration — the order in which types are registered.

The types of a library are registered one after the other, and whether a type is taken depends on
all that came before it. Where no type of a list is refused, that dependence has no effect: a type
enters a table if it is apart from the types in it, so a list is taken without a refusal exactly
when its types are apart from one another and from the types of the table. Being apart is symmetric
and does not speak of places, and the table of a list of types answers by membership. So another
order of the same types is taken as well, every type is answered as before, and no question tells
the two tables apart.

A list with a refusal depends on its order, since of two types that are not apart the first one
wins; nothing is said about such lists here.

## Main statements

* **`registerAll_isOk_iff`** — when all types of a list are taken.
* **`registerAll_perm`** — the order of types that are all taken does not matter.
-/

namespace Interop

namespace TypeTable

open CType (Apart)

/-! ## §1 One type after the other -/

/-- The types of a list registered one after the other: what each of them is answered, and the table
at the end. -/
def registerAll (t : TypeTable) : List CType → List (Except Fault Fingerprint) × TypeTable
  | [] => ([], t)
  | u :: us =>
    let (answers, t') := (t.insert u).registerAll us
    ((t.register u).map Prod.fst :: answers, t')

variable {t : TypeTable} {us vs ws : List CType} {u : CType}

/-- **One type is taken** by the table of a list exactly when it is apart from the types of the
list. -/
theorem register_isOk_iff :
    ((ofTypes ws).register u).isOk = true ↔ ∀ w ∈ ws, u.Apart w := by
  rw [← taken_ofTypes_iff]
  by_cases htaken : (ofTypes ws).Taken u
  · rw [(register_of_taken htaken).1]
    exact iff_of_false Bool.false_ne_true (not_not_intro htaken)
  · rw [(register_of_not_taken htaken).1]
    exact iff_of_true rfl htaken

/-- A type that is taken is answered with its fingerprint and put in front of the list. -/
theorem register_ofTypes (h : ∀ w ∈ ws, u.Apart w) :
    ((ofTypes ws).register u).map Prod.fst = .ok u.fingerprint ∧
      (ofTypes ws).insert u = ofTypes (u :: ws) := by
  obtain ⟨hregister, hinsert⟩ := register_of_not_taken (taken_ofTypes_iff.mpr h)
  rw [hregister, hinsert, put_ofTypes h]
  exact ⟨rfl, rfl⟩

/-! ## §2 Lists without a refusal -/

/-- **Types that are apart are all taken.** Each is answered with its fingerprint, and the table at
the end is that of all types, the last one first. -/
theorem registerAll_of_pairwise (h : (us.reverse ++ ws).Pairwise Apart) :
    (ofTypes ws).registerAll us
      = (us.map fun u => .ok u.fingerprint, ofTypes (us.reverse ++ ws)) := by
  -- the types taken so far are in the table, so the table varies in the induction
  induction us generalizing ws with
  | nil => rfl
  | cons u us ih =>
    rw [List.reverse_cons, List.append_assoc] at h ⊢
    have hcons : (u :: ws).Pairwise Apart := (List.pairwise_append.mp h).2.1
    obtain ⟨hanswer, hinsert⟩ := register_ofTypes (List.pairwise_cons.mp hcons).1
    have hrest : (ofTypes (u :: ws)).registerAll us = _ := ih h
    rw [registerAll, hanswer, hinsert, hrest]
    rfl

/-- **Types that are all taken are apart.** -/
theorem pairwise_of_registerAll (hws : ws.Pairwise Apart)
    (h : ∀ a ∈ ((ofTypes ws).registerAll us).1, a.isOk = true) :
    (us.reverse ++ ws).Pairwise Apart := by
  induction us generalizing ws with
  | nil => exact hws
  | cons u us ih =>
    rw [registerAll, List.forall_mem_cons] at h
    obtain ⟨hfirst, hrest⟩ := h
    have hfree : ∀ w ∈ ws, u.Apart w := by
      refine register_isOk_iff.mp ?_
      cases hregister : (ofTypes ws).register u with
      | error e =>
        rw [hregister] at hfirst
        cases hfirst
      | ok r => rfl
    rw [(register_ofTypes hfree).2] at hrest
    rw [List.reverse_cons, List.append_assoc]
    exact ih (List.pairwise_cons.mpr ⟨hfree, hws⟩) hrest

/-- **When all types of a list are taken.** By the table of types that are apart, exactly when the
types of the list are apart from one another and from those of the table. -/
theorem registerAll_isOk_iff (hws : ws.Pairwise Apart) :
    (∀ a ∈ ((ofTypes ws).registerAll us).1, a.isOk = true) ↔
      (us.reverse ++ ws).Pairwise Apart := by
  refine ⟨pairwise_of_registerAll hws, ?_⟩
  intro h a ha
  rw [registerAll_of_pairwise h] at ha
  obtain ⟨u, -, rfl⟩ := List.mem_map.mp ha
  rfl

/-! ## §3 Another order -/

/-- **No question tells the tables apart.** -/
structure AnswersAlike (t t' : TypeTable) : Prop where
  get?_eq : ∀ f, t.get? f = t'.get? f
  find?_eq : ∀ d, t.find? d = t'.find? d
  resolve_eq : ∀ d, t.resolve d = t'.resolve d
  declares_eq : ∀ d, t.declares d = t'.declares d
  size_eq : t.size = t'.size

/-- The table of a list answers by membership, so it does not show the order of the list. -/
theorem answersAlike_ofTypes (hus : us.Pairwise Apart) (h : us.Perm vs) :
    (ofTypes us).AnswersAlike (ofTypes vs) := by
  have hvs : vs.Pairwise Apart := (h.pairwise_iff Apart.symm).mp hus
  have hfind (d : String) : (ofTypes us).find? d = (ofTypes vs).find? d := by
    refine Option.ext fun u => ?_
    rw [find?_ofTypes hus, find?_ofTypes hvs, h.mem_iff]
  refine ⟨fun f => ?_, hfind, fun d => ?_, fun d => ?_, ?_⟩
  · refine Option.ext fun u => ?_
    rw [get?_ofTypes hus, get?_ofTypes hvs, h.mem_iff]
  · rw [resolve, hfind d]
    rfl
  · rw [Bool.eq_iff_iff, declares_ofTypes, declares_ofTypes]
    exact exists_congr fun u => and_congr_left fun _ => h.mem_iff
  · show ((us.map _).length : Nat) = (vs.map _).length
    rw [List.length_map, List.length_map, h.length_eq]

/-- **The order of registration does not matter.** Let a table have arisen in any way, and let it
take every type of a list. Then it takes every type of the list in any other order as well. A type
is answered with the same fingerprint wherever it stands, and the two tables at the end answer all
questions alike. -/
theorem registerAll_perm (h : t.Reachable) (hperm : us.Perm vs)
    (hok : ∀ a ∈ (t.registerAll us).1, a.isOk = true) :
    (∀ a ∈ (t.registerAll vs).1, a.isOk = true) ∧
    (∀ (i j : Nat) (u : CType), us[i]? = some u → vs[j]? = some u →
      ∃ f, (t.registerAll us).1[i]? = some (.ok f) ∧ (t.registerAll vs).1[j]? = some (.ok f)) ∧
    (t.registerAll us).2.AnswersAlike (t.registerAll vs).2 := by
  obtain ⟨ws, hws, rfl⟩ := exists_ofTypes_of_reachable h
  have hus : (us.reverse ++ ws).Pairwise Apart := (registerAll_isOk_iff hws).mp hok
  have hall : (us.reverse ++ ws).Perm (vs.reverse ++ ws) :=
    ((us.reverse_perm.trans hperm).trans vs.reverse_perm.symm).append_right ws
  have hvs : (vs.reverse ++ ws).Pairwise Apart := (hall.pairwise_iff Apart.symm).mp hus
  refine ⟨(registerAll_isOk_iff hws).mpr hvs, fun i j u hi hj => ⟨u.fingerprint, ?_, ?_⟩, ?_⟩
  · rw [registerAll_of_pairwise hus, List.getElem?_map, hi]
    rfl
  · rw [registerAll_of_pairwise hvs, List.getElem?_map, hj]
    rfl
  · rw [registerAll_of_pairwise hus, registerAll_of_pairwise hvs]
    exact answersAlike_ofTypes hus hall

/-- An unsigned number, the pointer to it and a handle, declared on top of the standard types. -/
def declarations : List CType :=
  [.scalar "GLuint" .int, .pointerTo (.scalar "GLuint" .int), .handle "GLsync"]

/-- A pointer may be registered before the type it leads to, and is found all the same. -/
theorem registerAll_perm_declarations :
    standard.Reachable ∧ declarations.Perm declarations.reverse ∧
    (∀ a ∈ (standard.registerAll declarations).1, a.isOk = true) ∧
    (∀ a ∈ (standard.registerAll declarations.reverse).1, a.isOk = true) ∧
    (∀ (i j : Nat) (u : CType), declarations[i]? = some u → declarations.reverse[j]? = some u →
      ∃ f, (standard.registerAll declarations).1[i]? = some (.ok f) ∧
        (standard.registerAll declarations.reverse).1[j]? = some (.ok f)) ∧
    (standard.registerAll declarations).2.AnswersAlike
      (standard.registerAll declarations.reverse).2 ∧
    (standard.registerAll declarations).2.find? "GLuint *"
      = some (.pointerTo (.scalar "GLuint" .int)) ∧
    (standard.registerAll declarations.reverse).2.find? "GLuint *"
      = some (.pointerTo (.scalar "GLuint" .int)) := by
  have hperm : declarations.Perm declarations.reverse := declarations.reverse_perm.symm
  have hok : ∀ a ∈ (standard.registerAll declarations).1, a.isOk = true := by decide +kernel
  have hfound : (standard.registerAll declarations).2.find? "GLuint *"
      = some (.pointerTo (.scalar "GLuint" .int)) := by
    decide +kernel
  obtain ⟨hokreverse, hanswers, halike⟩ := registerAll_perm .standard hperm hok
  exact ⟨.standard, hperm, hok, hokreverse, hanswers, halike, hfound,
    (halike.find?_eq "GLuint *").symm.trans hfound⟩

end TypeTable

end Interop
