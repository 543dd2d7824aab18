import Interop.Overload
import Mathlib.Data.List.DropRight

/-!
# Interop.Proofs.Overload.Texts — the variant that a text stands for.

The text of a variant holds the name of a parameter as it is. Nothing in the name is escaped, and it
may be any text: parentheses may occur in it, the separator, and the words for the forms. So from the
front it does not show where the name ends. From behind it does: the last character is the closing
parenthesis, in front of it stands the word for the form, which has lowercase letters only, and in
front of the word a separator that ends in a blank. The word reaches as far as the letters do.

Here texts are read in this way. What is read is always the variant whose text it is, and the text of
every variant is read, whatever the names in it.

## Main statements

* **`Variant.ofText?_eq_some_iff`** — a text is read as a variant exactly when it is its text.
* **`Variant.text_eq_text_iff`** — variants are told apart by their texts.
-/

namespace Interop

/-! ## §1 The end of a list -/

section

variable {α : Type} {p : α → Bool} {front word : List α} {a : α}

/-- A run of elements with a property begins behind the last element without it. -/
theorem rdropWhile_append_cons (ha : p a = false) (hword : ∀ b ∈ word, p b = true) :
    (front ++ a :: word).rdropWhile p = front ++ [a] := by
  have hreverse : ∀ b ∈ word.reverse, p b = true := fun b hb => hword b (List.mem_reverse.mp hb)
  have hsplit : (front ++ a :: word).reverse = word.reverse ++ (front ++ [a]).reverse := by simp
  rw [List.rdropWhile, hsplit, List.dropWhile_append_of_pos hreverse, ← List.rdropWhile,
    List.rdropWhile_concat_neg _ _ _ (Bool.eq_false_iff.mp ha)]

/-- That run is all that stands behind the element. -/
theorem rtakeWhile_append_cons (ha : p a = false) (hword : ∀ b ∈ word, p b = true) :
    (front ++ a :: word).rtakeWhile p = word := by
  have hparts := List.rdropWhile_append_rtakeWhile (p := p) (l := front ++ a :: word)
  rw [rdropWhile_append_cons ha hword, List.append_assoc, List.append_cancel_left_eq] at hparts
  exact List.tail_eq_of_cons_eq hparts

end

/-! ## §2 Words for forms -/

namespace Pointee

variable {p : Pointee} {word : String}

/-- The form that a word stands for. -/
def ofName? (word : String) : Option Pointee := (handle :: dataForms).find? (·.name = word)

/-- The word for a form has lowercase letters only. -/
theorem isLower_of_mem_name (p : Pointee) : ∀ c ∈ p.name.toList, c.isLower = true := by
  have hall : p.name.toList.all Char.isLower = true := by cases p <;> decide
  exact List.all_eq_true.mp hall

/-- A word is read as the form it is the word for. Some form is found, since the list has them all,
and no other one has the same word. -/
theorem ofName?_eq_some_iff : ofName? word = some p ↔ p.name = word := by
  have hname {q : Pointee} (h : ofName? word = some q) : q.name = word := by
    simpa using List.find?_some h
  refine ⟨hname, ?_⟩
  intro h
  have hmem : p ∈ handle :: dataForms := by
    rw [List.mem_cons, mem_dataForms]
    exact Decidable.em (p = handle)
  cases hfind : ofName? word with
  | none => exact absurd (decide_eq_true h) (List.find?_eq_none.mp hfind p hmem)
  | some q => rw [name_inj q p ((hname hfind).trans h.symm)]

end Pointee

/-! ## §3 The parts of a text -/

namespace Variant

variable {opening text body parameter : String} {form : Pointee} {v : Variant}

/-- What stands between an opening and the closing parenthesis at the end. -/
def enclosed? (opening text : String) : Option String :=
  ((opening.toList.isPrefixOf? text.toList).bind [')'].isSuffixOf?).map String.ofList

theorem enclosed?_eq_some_iff :
    enclosed? opening text = some body ↔ opening ++ body ++ ")" = text := by
  rw [enclosed?, Option.map_eq_some_iff]
  simp only [Option.bind_eq_some_iff, List.isPrefixOf?_eq_some_iff_append_eq,
    List.isSuffixOf?_eq_some_iff_append_eq]
  constructor
  · rintro ⟨inner, ⟨rest, htext, hrest⟩, rfl⟩
    rw [← String.toList_inj, ← htext, ← hrest]
    simp
  · rintro rfl
    exact ⟨body.toList, ⟨body.toList ++ [')'], by simp, rfl⟩, String.ofList_toList⟩

/-- The name and the form with the separator between them. The letters at the end are the word for
the form. -/
def splitForm? (body : String) : Option (String × Pointee) :=
  ([':', ' '].isSuffixOf? (body.toList.rdropWhile Char.isLower)).bind fun parameter =>
    (Pointee.ofName? (String.ofList (body.toList.rtakeWhile Char.isLower))).map
      (String.ofList parameter, ·)

/-- **Cutting from behind.** The parts are those that the text is put together from. -/
theorem splitForm?_eq_some_iff :
    splitForm? body = some (parameter, form) ↔ parameter ++ ": " ++ form.name = body := by
  simp only [splitForm?, Option.bind_eq_some_iff, Option.map_eq_some_iff,
    List.isSuffixOf?_eq_some_iff_append_eq, Pointee.ofName?_eq_some_iff, Prod.mk.injEq]
  constructor
  · rintro ⟨front, hfront, form, hform, rfl, rfl⟩
    rw [← String.toList_inj, hform]
    simp [hfront]
  · rintro rfl
    -- The blank stops the letters, so it does not matter what the name ends in.
    have hblank : Char.isLower ' ' = false := by decide
    have hbody : (parameter ++ ": " ++ form.name).toList =
        (parameter.toList ++ [':']) ++ ' ' :: form.name.toList := by
      simp
    refine ⟨parameter.toList, ?_, form, ?_, String.ofList_toList, rfl⟩
    · rw [hbody, rdropWhile_append_cons hblank form.isLower_of_mem_name, List.append_assoc]
      rfl
    · rw [hbody, rtakeWhile_append_cons hblank form.isLower_of_mem_name, String.ofList_toList]

/-! ## §4 Reading a text -/

/-- The variant that a text stands for. Its first letter shows what is to be read. -/
def ofText? (text : String) : Option Variant :=
  match text.toList.head? with
  | some 'g' => if text = "generic" then some .generic else none
  | some 's' => (enclosed? "single-value(" text).map .singleValue
  | some 'm' =>
    ((enclosed? "multi-type(" text).bind splitForm?).map fun parts => .multiType parts.1 parts.2
  | _ => none

theorem text_singleValue (parameter : String) :
    (singleValue parameter).text = "single-value(" ++ parameter ++ ")" := rfl

theorem text_multiType (parameter : String) (form : Pointee) :
    (multiType parameter form).text = "multi-type(" ++ (parameter ++ ": " ++ form.name) ++ ")" := by
  change "multi-type(" ++ parameter ++ ": " ++ form.name ++ ")" = _
  simp only [String.append_assoc]

/-- The text of every variant is read. -/
theorem ofText?_text (v : Variant) : ofText? v.text = some v := by
  cases v with
  | generic => rfl
  | singleValue parameter =>
    have hfirst : (singleValue parameter).text.toList.head? = some 's' := by simp [text_singleValue]
    have hvalue : enclosed? "single-value(" (singleValue parameter).text = some parameter :=
      enclosed?_eq_some_iff.mpr (text_singleValue parameter).symm
    simp only [ofText?, hfirst, hvalue, Option.map_some]
  | multiType parameter form =>
    have hfirst : (multiType parameter form).text.toList.head? = some 'm' := by simp [text_multiType]
    have hbody : enclosed? "multi-type(" (multiType parameter form).text =
        some (parameter ++ ": " ++ form.name) :=
      enclosed?_eq_some_iff.mpr (text_multiType parameter form).symm
    have hparts : splitForm? (parameter ++ ": " ++ form.name) = some (parameter, form) :=
      splitForm?_eq_some_iff.mpr rfl
    simp only [ofText?, hfirst, hbody, Option.bind_some, hparts, Option.map_some]

/-- What is read is the variant whose text it is. -/
theorem text_of_ofText? (h : ofText? text = some v) : v.text = text := by
  unfold ofText? at h
  split at h
  · obtain ⟨hgeneric, hv⟩ := Option.ite_none_right_eq_some.mp h
    rw [← Option.some.inj hv, hgeneric]
    rfl
  · obtain ⟨parameter, hvalue, rfl⟩ := Option.map_eq_some_iff.mp h
    rw [text_singleValue, enclosed?_eq_some_iff.mp hvalue]
  · obtain ⟨⟨parameter, form⟩, hparts, rfl⟩ := Option.map_eq_some_iff.mp h
    obtain ⟨body, hbody, hsplit⟩ := Option.bind_eq_some_iff.mp hparts
    rw [text_multiType, splitForm?_eq_some_iff.mp hsplit, enclosed?_eq_some_iff.mp hbody]
  · cases h

/-- **Reading.** A text is read as a variant exactly when it is the text of that variant. -/
theorem ofText?_eq_some_iff : ofText? text = some v ↔ v.text = text := by
  refine ⟨text_of_ofText?, ?_⟩
  rintro rfl
  exact ofText?_text v

/-- The name ends in what reads like the end of a text. -/
example : ofText? "multi-type(data: int): float)" = some (.multiType "data: int)" .float) := by
  decide +kernel

/-- **The text of a variant identifies it**, whatever the names of the parameters are: variants with
the same text are the same. -/
theorem text_eq_text_iff (v w : Variant) : v.text = w.text ↔ v = w := by
  refine ⟨fun h => ?_, congrArg Variant.text⟩
  have hread : ofText? v.text = some w := ofText?_eq_some_iff.mpr h.symm
  rw [ofText?_text] at hread
  exact Option.some.inj hread

end Variant

end Interop
