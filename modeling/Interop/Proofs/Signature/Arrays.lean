import Interop.Signature.Prototype

/-!
# Interop.Proofs.Signature.Arrays — for which parameters the caller passes an array.

An output whose length is worked out for the caller can be returned, but only if it is the only one
of its kind; two of them have to be passed as arrays like all others. The signature decides this by
counting: it counts such outputs over all its parameters, and compares the count with one for each
parameter. Here the rule is said without the count, by what stands at the other places. Places are
needed and not names or parameters, since nothing keeps two parameters of a signature from being
equal.

## Main statements

* **`Signature.countP_eq_one_iff`** — a count that takes in a given place is one exactly when
  nothing at any other place is counted.
* **`Signature.takesArray_by_place`** — of the parameters that cross as arrays only a lone output of
  worked-out length is left out, and a second one brings it back.
-/

namespace Interop

/-! ## §1 Counting over places -/

/-- **A count of one.** If the member at place `i` is counted, the count is one exactly when no
member at another place is. -/
theorem Signature.countP_eq_one_iff {α : Type} {g : α → Bool} {as : List α} {i : Nat} {a : α}
    (ha : as[i]? = some a) (hg : g a = true) :
    as.countP g = 1 ↔ ∀ j b, j ≠ i → as[j]? = some b → g b = false := by
  induction as generalizing i with
  | nil => cases ha
  | cons c as ih =>
    cases i with
    | zero =>
      cases ha
      rw [List.countP_cons_of_pos hg, Nat.add_eq_right, List.countP_eq_zero]
      constructor
      · rintro h (_ | j) b hj hb
        · contradiction
        · exact Bool.eq_false_iff.mpr (h b (List.mem_of_getElem? hb))
      · intro h b hb
        obtain ⟨j, hj⟩ := List.mem_iff_getElem?.mp hb
        exact Bool.eq_false_iff.mp (h (j + 1) b (Nat.succ_ne_zero j) hj)
    | succ i =>
      have hrest : 0 < as.countP g := List.countP_pos_iff.mpr ⟨a, List.mem_of_getElem? ha, hg⟩
      cases hc : g c with
      | true =>
        -- the head and the given place are both counted
        rw [List.countP_cons_of_pos hc]
        refine ⟨fun h => by omega, fun h => ?_⟩
        rw [h 0 c (Nat.succ_ne_zero i).symm rfl] at hc
        cases hc
      | false =>
        rw [List.countP_cons_of_neg (Bool.eq_false_iff.mp hc), ih ha]
        constructor
        · rintro h (_ | j) b hj hb
          · cases hb
            exact hc
          · exact h j b (fun hji => hj (congrArg Nat.succ hji)) hb
        · intro h j b hj hb
          exact h (j + 1) b (fun hji => hj (Nat.succ.inj hji)) hb

/-! ## §2 One parameter among others -/

namespace Parameter

variable {ps : List Parameter} {p q : Parameter} {i j : Nat}

/-- The parameter is an output whose length is worked out for the caller. -/
def SizedResult (p : Parameter) : Prop :=
  p.direction = .output ∧ p.qualifiers.has .autoSizeResult = true

theorem isSizedResult_iff : p.isSizedResult = true ↔ p.SizedResult := by
  rw [isSizedResult, Bool.and_eq_true, beq_iff_eq]
  rfl

theorem isSizedResult_eq_false_iff : p.isSizedResult = false ↔ ¬p.SizedResult := by
  rw [← isSizedResult_iff, Bool.not_eq_true]

/-- What does not cross as an array is passed as none, whatever else the function has. -/
theorem isArray_eq_false (h : p.type.crossing.isArray = false) (n : Nat) : p.isArray n = false := by
  rw [isArray, h, Bool.false_and]

/-- **Left out is the lone output of worked-out length.** -/
theorem isArray_eq_false_iff (hp : ps[i]? = some p) (harray : p.type.crossing.isArray = true) :
    p.isArray (ps.countP isSizedResult) = false ↔
      p.SizedResult ∧ ∀ j q, j ≠ i → ps[j]? = some q → ¬q.SizedResult := by
  rw [isArray, harray, Bool.true_and, Bool.not_eq_false', Bool.and_eq_true, beq_iff_eq,
    isSizedResult_iff]
  refine and_congr_right fun hsized => ?_
  rw [Signature.countP_eq_one_iff hp (isSizedResult_iff.mpr hsized)]
  simp only [isSizedResult_eq_false_iff]

/-- **Next to another such output none is left out.** -/
theorem isArray_of_sizedResult (hp : ps[i]? = some p) (harray : p.type.crossing.isArray = true)
    (hij : j ≠ i) (hq : ps[j]? = some q) (hsized : q.SizedResult) :
    p.isArray (ps.countP isSizedResult) = true := by
  rw [← Bool.not_eq_false]
  intro hout
  exact ((isArray_eq_false_iff hp harray).mp hout).2 j q hij hq hsized

end Parameter

/-! ## §3 The rule -/

/-- For which parameters of a list the caller passes an array, told by places. -/
structure ArrayRule (ps : List Parameter) (takesArray : Parameter → Bool) : Prop where
  /-- Of the parameters that cross as arrays, one is left out exactly when it is an output of
  worked-out length and no parameter at another place is. -/
  out_iff : ∀ {i : Nat} {p : Parameter}, ps[i]? = some p → p.type.crossing.isArray = true →
    (takesArray p = false ↔
      p.SizedResult ∧ ∀ (j : Nat) (q : Parameter), j ≠ i → ps[j]? = some q → ¬q.SizedResult)
  /-- What does not cross as an array is passed as none. -/
  plain : ∀ p ∈ ps, p.type.crossing.isArray = false → takesArray p = false
  /-- Of the parameters that cross as arrays, at most one is left out. -/
  unique : ∀ {i j : Nat} {p q : Parameter}, ps[i]? = some p → ps[j]? = some q →
    p.type.crossing.isArray = true → q.type.crossing.isArray = true → takesArray p = false →
    takesArray q = false → i = j

/-- Comparing the count with one follows the rule. -/
theorem Parameter.arrayRule (ps : List Parameter) :
    ArrayRule ps (·.isArray (ps.countP isSizedResult)) where
  out_iff := isArray_eq_false_iff
  plain _ _ h := isArray_eq_false h _
  unique := by
    intro i j p q hp hq hparray hqarray hpout hqout
    have hsized : q.SizedResult := ((isArray_eq_false_iff hq hqarray).mp hqout).1
    -- beside another output of worked-out length none is left out
    by_cases hij : i = j
    · exact hij
    · rw [isArray_of_sizedResult hp hparray (Ne.symm hij) hq hsized] at hpout
      cases hpout

namespace Signature

/-- **For which parameters the caller passes an array.** Signatures and prototypes follow the rule:
of the parameters that cross as arrays, one is left out exactly when it is an output of worked-out
length and no other parameter is, so at most one is; and what does not cross as an array is never
passed as one. When an output of worked-out length is added to a signature, or put in the place of
one of its parameters, every other parameter that crosses as an array is passed as one, also if it
was left out before, and so it stays when the signature is frozen. -/
theorem takesArray_by_place :
    (∀ s : Signature, ArrayRule s.params s.takesArray) ∧
    (∀ f : Prototype, ArrayRule f.params f.takesArray) ∧
    ∀ (s : Signature) (i : Nat) (p q : Parameter), s.params[i]? = some p →
      p.type.crossing.isArray = true → q.SizedResult →
      ∀ t : Signature, t = s.push q ∨ (∃ j, j ≠ i ∧ j < s.params.length ∧ t = s.set j q) →
        t.takesArray p = true ∧
        ∀ references f, t.freeze references = .ok f → f.takesArray p = true := by
  refine ⟨fun s => Parameter.arrayRule s.params, fun f => Parameter.arrayRule f.params,
    fun s i p q hp harray hsized t ht => ?_⟩
  have hi : i < s.params.length := (List.getElem?_eq_some_iff.mp hp).1
  have hback : t.takesArray p = true := by
    rcases ht with rfl | ⟨j, hij, hj, rfl⟩
    · have hold : (s.params ++ [q])[i]? = some p := (List.getElem?_append_left hi).trans hp
      exact Parameter.isArray_of_sizedResult hold harray (Nat.ne_of_gt hi)
        List.getElem?_concat_length hsized
    · have hold : (s.params.set j q)[i]? = some p := (List.getElem?_set_ne hij).trans hp
      exact Parameter.isArray_of_sizedResult hold harray hij (List.getElem?_set_self hj) hsized
  refine ⟨hback, fun references f hf => ?_⟩
  obtain ⟨-, rfl⟩ := freeze_eq_ok_iff.mp hf
  exact hback

/-- A text of a shader with its length, which is worked out for the caller. -/
def infoLog : Signature :=
  { name := "getShaderInfoLog"
    params :=
      [{ name := "length", type := .pointerTo (.scalar "GLsizei" .int), direction := .output,
         qualifiers := .ofList [⟨.autoSizeResult, ()⟩] },
       { name := "infoLog", type := .pointerTo (.scalar "GLchar" .byte), direction := .output }] }

/-- The length of the text is left out while it is the only one, and passed as an array beside a
second one. -/
theorem takesArray_by_place_infoLog :
    ∃ p, infoLog.params[0]? = some p ∧ infoLog.takesArray p = false ∧
      (infoLog.push { p with name := "columns" }).takesArray p = true ∧
      ∀ references f, (infoLog.push { p with name := "columns" }).freeze references = .ok f →
        f.takesArray p = true := by
  obtain ⟨p, hp, harray, hlone⟩ : ∃ p, infoLog.params[0]? = some p ∧
      p.type.crossing.isArray = true ∧
      (p.SizedResult ∧ ∀ q, infoLog.params[1]? = some q → ¬q.SizedResult) := by
    refine ⟨_, rfl, rfl, ⟨rfl, by decide +kernel⟩, ?_⟩
    rintro q hq ⟨-, hhas⟩
    cases hq
    exact absurd hhas (by decide +kernel)
  have hothers : ∀ j q, j ≠ 0 → infoLog.params[j]? = some q → ¬q.SizedResult := by
    rintro (_ | _ | j) q hj hq
    · contradiction
    · exact hlone.2 q hq
    · cases hq
  have hout : infoLog.takesArray p = false :=
    ((takesArray_by_place.1 infoLog).out_iff hp harray).mpr ⟨hlone.1, hothers⟩
  have hsecond : ({ p with name := "columns" } : Parameter).SizedResult := hlone.1
  exact ⟨p, hp, hout, takesArray_by_place.2.2 infoLog 0 p _ hp harray hsecond _ (.inl rfl)⟩

end Signature

end Interop
