import Interop.Doc
import Interop.Proofs.Text.Words
import Mathlib.Data.List.Forall2

/-!
# Interop.Proofs.Doc.Links — what documentation shows of a string of links.

Links are written as words with blanks around them, and the documentation shows the words. So it does
not matter which blanks there are, and how many. Here the string of links is laid out from given
words (`Text.Spaced`), and what is shown of each word is said by a relation (`Doc.Shows`).

A string of links may be blank without being empty. Then it has no words, but it counts as links: the
lead is shown, with nothing behind it.

## Main statements

* **`Doc.constantList_append`** — the constants of two strings of links with blanks between them.
* **`Doc.links_by_words`** — all that links add to a text, and when there is no documentation.
-/

namespace Interop.Doc

open Text (IsGap Spaced)

/-! ## §1 One constant -/

/-- A word is shown in backquotes, without the number sign it may begin with. Of two number signs the
second is part of the name. -/
inductive Shows : List Char → String → Prop
  | marked (w : List Char) : Shows ('#' :: w) ("`" ++ String.ofList w ++ "`")
  | plain {w : List Char} (h : w.head? ≠ some '#') : Shows w ("`" ++ String.ofList w ++ "`")

variable {w : List Char} {ws vs : List (List Char)} {shown : String} {cs : List String}
  {links a b s : String}

theorem shows_constant (w : List Char) : Shows w (constant w) := by
  unfold constant
  split
  · exact .marked _
  · rename_i hmarked
    refine .plain fun h => ?_
    obtain ⟨rest, rfl⟩ := List.head?_eq_some_iff.mp h
    exact hmarked rest rfl

/-- Of every word one text is shown. -/
theorem shows_iff : Shows w shown ↔ shown = constant w := by
  refine ⟨fun h => ?_, ?_⟩
  · cases h with
    | marked w => rfl
    | plain h =>
      unfold constant
      split
      · exact absurd rfl h
      · rfl
  · rintro rfl
    exact shows_constant w

/-! ## §2 The list of constants -/

theorem forall₂_shows_iff : List.Forall₂ Shows ws cs ↔ cs = ws.map constant := by
  refine ⟨fun h => ?_, ?_⟩
  · induction h with
    | nil => rfl
    | cons hshows _ ih => rw [List.map_cons, shows_iff.mp hshows, ih]
  · rintro rfl
    exact List.forall₂_map_right_iff.mpr (List.forall₂_same.mpr fun w _ => shows_constant w)

/-- What is shown of links, by the words they are laid out from. -/
theorem constantList_of_spaced (hlinks : Spaced ws links.toList) (hshows : List.Forall₂ Shows ws cs) :
    constantList links = ", ".intercalate cs := by
  rw [constantList, constants, hlinks.words_eq, forall₂_shows_iff.mp hshows]

/-- **Two strings of links** with blanks between them show the constants of the one and then those of
the other. -/
theorem constantList_append (ha : Spaced ws a.toList) (hws : ws ≠ []) (hs : IsGap s.toList)
    (hne : s ≠ "") (hb : Spaced vs b.toList) (hvs : vs ≠ []) :
    constantList (a ++ s ++ b) = constantList a ++ ", " ++ constantList b := by
  have hgap : s.toList ≠ [] := fun h => hne (String.toList_eq_nil_iff.mp h)
  have hboth : Spaced (ws ++ vs) (a ++ s ++ b).toList := by
    rw [String.toList_append, String.toList_append, List.append_assoc]
    exact ha.append hb hs hgap
  have hshown (ws : List (List Char)) : List.Forall₂ Shows ws (ws.map constant) :=
    forall₂_shows_iff.mpr rfl
  rw [constantList_of_spaced ha (hshown ws), constantList_of_spaced hb (hshown vs),
    constantList_of_spaced hboth (hshown (ws ++ vs)), List.map_append]
  exact String.intercalate_append_of_ne_nil (mt List.map_eq_nil_iff.mp hws)
    (mt List.map_eq_nil_iff.mp hvs)

/-! ## §3 The documentation -/

/-- What is appended to a text: an empty line if there is a text, the lead, and the constants. -/
theorem appendLinks_eq (mode : LinkMode) (text links : String) :
    appendLinks mode text links =
      (if text = "" then "" else text ++ "\n\n") ++ mode.lead ++ " " ++ constantList links := by
  simp only [appendLinks, String.isEmpty_iff]

/-- The documentation of a text and links, by which of them are empty. -/
theorem withLinks_eq (mode : LinkMode) (text links : String) :
    withLinks mode text links =
      if links = "" then (if text = "" then none else some text)
      else some (appendLinks mode text links) := by
  simp only [withLinks, String.isEmpty_iff]

/-- **Links and their words.** A string of links is laid out from one sequence of words, and of each
word one text is shown. Links add to a text, behind an empty line if there is a text, the lead and
what is shown of their words, with commas between. So two strings of links with the same words add
the same; and if both have words, the two of them with blanks between add what the first one adds,
and behind a comma what is shown of the words of the second. There is no documentation exactly when
text and links are both empty; it is the text as it is if only the links are, and otherwise the text
with the links appended. -/
theorem links_by_words (mode : LinkMode) (text : String) :
    (∀ links : String, ∃! ws, Spaced ws links.toList) ∧
    (∀ w : List Char, ∃! shown, Shows w shown) ∧
    (∀ (links : String) (ws : List (List Char)) (cs : List String),
      Spaced ws links.toList → List.Forall₂ Shows ws cs →
      appendLinks mode text links =
        (if text = "" then "" else text ++ "\n\n") ++ mode.lead ++ " " ++ ", ".intercalate cs) ∧
    (∀ (a b : String) (ws : List (List Char)), Spaced ws a.toList → Spaced ws b.toList →
      appendLinks mode text a = appendLinks mode text b) ∧
    (∀ (a s b : String) (ws vs : List (List Char)) (ds : List String),
      Spaced ws a.toList → ws ≠ [] → IsGap s.toList → s ≠ "" → Spaced vs b.toList → vs ≠ [] →
      List.Forall₂ Shows vs ds →
      appendLinks mode text (a ++ s ++ b) =
        appendLinks mode text a ++ ", " ++ ", ".intercalate ds) ∧
    (∀ links, withLinks mode text links = none ↔ text = "" ∧ links = "") ∧
    (text ≠ "" → withLinks mode text "" = some text) ∧
    (∀ links, links ≠ "" → withLinks mode text links = some (appendLinks mode text links)) := by
  refine ⟨fun links => ?_, fun w => ?_, fun links ws cs hlinks hshows => ?_,
    fun a b ws ha hb => ?_, fun a s b ws vs ds ha hws hs hne hb hvs hshows => ?_, fun links => ?_,
    fun htext => ?_, fun links hlinks => ?_⟩
  · exact ⟨_, Text.spaced_words links.toList, fun ws hws => hws.words_eq.symm⟩
  · exact ⟨_, shows_constant w, fun shown hshown => shows_iff.mp hshown⟩
  · rw [appendLinks_eq, constantList_of_spaced hlinks hshows]
  · have hshows : List.Forall₂ Shows ws (ws.map constant) := forall₂_shows_iff.mpr rfl
    rw [appendLinks_eq, appendLinks_eq, constantList_of_spaced ha hshows,
      constantList_of_spaced hb hshows]
  · rw [appendLinks_eq, appendLinks_eq, constantList_append ha hws hs hne hb hvs,
      constantList_of_spaced hb hshows]
    simp only [String.append_assoc]
  · rw [withLinks_eq_none_iff, String.isEmpty_iff, String.isEmpty_iff]
  · rw [withLinks_eq, if_pos rfl, if_neg htext]
  · rw [withLinks_eq, if_neg hlinks]

/-- Two links with an em space and a line break before the next two, one of them a lone number sign;
and links that are blank. -/
theorem links_by_words_primitives :
    appendLinks .single "The primitive." ("#POINTS\t##LINES" ++ "\u2003\n" ++ "# TRIANGLES ") =
        "The primitive.\n\nOne of: `POINTS`, `#LINES`" ++ ", " ++ "``, `TRIANGLES`" ∧
      withLinks .bitfield "" "\u3000" = some "One or more of: " ∧
      withLinks .bitfield "The mask." "" = some "The mask." := by
  obtain ⟨-, -, happend, -, hjoin, -, -, -⟩ := links_by_words .single "The primitive."
  obtain ⟨-, -, hlead, -, -, -, -, hlinks⟩ := links_by_words .bitfield ""
  obtain ⟨-, -, -, -, -, -, htext, -⟩ := links_by_words .bitfield "The mask."
  refine ⟨?_, ?_, htext (by decide)⟩
  · have hfirst : Spaced ["#POINTS".toList, "##LINES".toList] "#POINTS\t##LINES".toList :=
      Text.words_eq_iff.mp (by decide +kernel)
    have hsecond : Spaced ["#".toList, "TRIANGLES".toList] "# TRIANGLES ".toList :=
      Text.words_eq_iff.mp (by decide +kernel)
    have hgap : IsGap "\u2003\n".toList := by decide +kernel
    have hshows : List.Forall₂ Shows ["#POINTS".toList, "##LINES".toList] ["`POINTS`", "`#LINES`"] :=
      forall₂_shows_iff.mpr (by decide +kernel)
    have hshows' : List.Forall₂ Shows ["#".toList, "TRIANGLES".toList] ["``", "`TRIANGLES`"] :=
      forall₂_shows_iff.mpr (by decide +kernel)
    rw [hjoin _ _ _ _ _ _ hfirst (List.cons_ne_nil _ _) hgap (by decide) hsecond
      (List.cons_ne_nil _ _) hshows', happend _ _ _ hfirst hshows]
    decide +kernel
  · have hblank : Spaced [] "\u3000".toList := .gap (by decide +kernel)
    rw [hlinks _ (by decide), hlead _ _ _ hblank .nil]
    decide +kernel

end Interop.Doc
