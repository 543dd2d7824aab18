import Interop.Text.Blank

/-!
# Interop.Proofs.Text.Words — the words of a text, told by how the text is laid out.

The words of a text are found by reading it character by character. Here the text comes second: given
are the words, and a text is laid out from them by putting blanks in front, behind and between. How
many blanks, and which, is left open, save that two words need at least one between them. Reading a
text gives the words it was laid out from, and every text is laid out from its words.

## Main statements

* **`words_eq_iff`** — the words of a text are those it is laid out from, and no others.
* **`Spaced.append`** — two texts with blanks between them.
-/

namespace Interop.Text

/-! ## §1 Texts laid out from words -/

/-- A run of blanks, which may be empty. -/
def IsGap (g : List Char) : Prop := ∀ c ∈ g, isBlank c = true

instance (g : List Char) : Decidable (IsGap g) :=
  List.decidableBAll (isBlank · = true) g

/-- A word has at least one character, and none that is blank. -/
structure IsWord (w : List Char) : Prop where
  ne_nil : w ≠ []
  solid : ∀ c ∈ w, isBlank c = false

/-- The text consists of the words, in their order, with blanks in front of the first, behind the
last and between any two. Only between two words there has to be one. -/
inductive Spaced : List (List Char) → List Char → Prop
  | gap {g : List Char} (hg : IsGap g) : Spaced [] g
  | last {g w h : List Char} (hg : IsGap g) (hw : IsWord w) (hh : IsGap h) :
      Spaced [w] (g ++ (w ++ h))
  | cons {g w h cs v : List Char} {ws : List (List Char)} (hg : IsGap g) (hw : IsWord w)
      (hh : IsGap h) (hne : h ≠ []) (rest : Spaced (v :: ws) cs) :
      Spaced (w :: v :: ws) (g ++ (w ++ (h ++ cs)))

variable {g s w a b cs : List Char} {ws vs : List (List Char)}

/-! ## §2 Reading what was laid out -/

/-- Blanks in front are skipped. -/
theorem words_gap_append (hg : IsGap g) (cs : List Char) : words (g ++ cs) = words cs := by
  induction g with
  | nil => rfl
  | cons c g ih =>
    obtain ⟨hc, hg⟩ := List.forall_mem_cons.mp hg
    rw [List.cons_append, words_blank_cons hc, ih hg]

/-- There are no words in blanks. -/
theorem words_of_isGap (hg : IsGap g) : words g = [] := by
  rw [← List.append_nil g, words_gap_append hg, words_nil]

/-- Where blanks stand between two texts, no word reaches from the one to the other. -/
theorem words_append_gap (hs : IsGap s) (hne : s ≠ []) (a b : List Char) :
    words (a ++ (s ++ b)) = words a ++ words b := by
  cases s with
  | nil => exact absurd rfl hne
  | cons c s =>
    obtain ⟨hc, hs⟩ := List.forall_mem_cons.mp hs
    rw [List.cons_append, words_append_blank hc, words_gap_append hs]

/-- A word is read to its end. -/
theorem wordsFrom_append (hw : ∀ c ∈ w, isBlank c = false) (word cs : List Char) :
    wordsFrom word (w ++ cs) = wordsFrom (w.reverse ++ word) cs := by
  induction w generalizing word with
  | nil => rfl
  | cons c w ih =>
    obtain ⟨hc, hw⟩ := List.forall_mem_cons.mp hw
    rw [List.cons_append, wordsFrom, if_neg (Bool.eq_false_iff.mp hc), ih hw, List.reverse_cons,
      List.append_assoc, List.singleton_append]

theorem words_of_isWord (hw : IsWord w) : words w = [w] := by
  have hread : words w = wordsFrom w.reverse [] := by
    have happend := wordsFrom_append hw.solid [] []
    rwa [List.append_nil, List.append_nil] at happend
  have hne : w.reverse.isEmpty = false := by
    rw [List.isEmpty_reverse, List.isEmpty_eq_false_iff]
    exact hw.ne_nil
  rw [hread, wordsFrom, hne, if_neg Bool.false_ne_true, List.reverse_reverse]

/-- A word ends where a blank follows it. -/
theorem words_isWord_append (hw : IsWord w) (hs : IsGap s) (hne : s ≠ []) (cs : List Char) :
    words (w ++ (s ++ cs)) = w :: words cs := by
  rw [words_append_gap hs hne, words_of_isWord hw, List.singleton_append]

/-- **Reading gives the words back.** -/
theorem Spaced.words_eq (h : Spaced ws cs) : words cs = ws := by
  induction h with
  | gap hg => exact words_of_isGap hg
  | @last g w h hg hw hh =>
    rw [words_gap_append hg]
    by_cases hne : h = []
    · rw [hne, List.append_nil, words_of_isWord hw]
    · have hread := words_isWord_append hw hh hne []
      rwa [List.append_nil, words_nil] at hread
  | cons hg hw hh hne rest ih => rw [words_gap_append hg, words_isWord_append hw hh hne, ih]

/-! ## §3 Laying out what was read -/

/-- A text without words is blank. -/
theorem Spaced.isGap (h : Spaced [] cs) : IsGap cs := by
  cases h with
  | gap hg => exact hg

/-- One more blank may stand in front. -/
theorem Spaced.blank_cons {c : Char} (hc : isBlank c = true) (h : Spaced ws cs) :
    Spaced ws (c :: cs) := by
  have hmore {g : List Char} (hg : IsGap g) : IsGap (c :: g) := List.forall_mem_cons.mpr ⟨hc, hg⟩
  cases h with
  | gap hg => exact .gap (hmore hg)
  | last hg hw hh => exact .last (hmore hg) hw hh
  | cons hg hw hh hne rest => exact .cons (hmore hg) hw hh hne rest

/-- One more word may stand in front of a blank. -/
theorem Spaced.word_cons {c : Char} (hc : isBlank c = true) (hw : IsWord w) (h : Spaced ws cs) :
    Spaced (w :: ws) (w ++ c :: cs) := by
  have hnone : IsGap [] := nofun
  cases ws with
  | nil => exact .last hnone hw (List.forall_mem_cons.mpr ⟨hc, h.isGap⟩)
  | cons v ws => exact .cons hnone hw (List.forall_mem_singleton.mpr hc) (List.cons_ne_nil c []) h

/-- What has been read of the first word, kept in reverse, stands in front of what is left. -/
theorem spaced_wordsFrom (word cs : List Char) (hword : ∀ c ∈ word, isBlank c = false) :
    Spaced (wordsFrom word cs) (word.reverse ++ cs) := by
  have hsolid : ∀ c ∈ word.reverse, isBlank c = false :=
    fun c hc => hword c (List.mem_reverse.mp hc)
  induction cs generalizing word with
  | nil =>
    cases word with
    | nil => exact .gap nofun
    | cons d word =>
      have hw : IsWord (d :: word).reverse := ⟨by simp, hsolid⟩
      exact .last (g := []) nofun hw nofun
  | cons c cs ih =>
    cases hc : isBlank c with
    | true =>
      have hrest : Spaced (words cs) cs := ih [] nofun nofun
      rw [wordsFrom, if_pos hc]
      cases word with
      | nil => exact hrest.blank_cons hc
      | cons d word => exact hrest.word_cons hc ⟨by simp, hsolid⟩
    | false =>
      have hnext : ∀ d ∈ c :: word, isBlank d = false := List.forall_mem_cons.mpr ⟨hc, hword⟩
      have hread := ih (c :: word) hnext fun d hd => hnext d (List.mem_reverse.mp hd)
      rw [wordsFrom, if_neg (Bool.eq_false_iff.mp hc)]
      rwa [List.reverse_cons, List.append_assoc, List.singleton_append] at hread

/-- **Every text is laid out from its words.** -/
theorem spaced_words (cs : List Char) : Spaced (words cs) cs := spaced_wordsFrom [] cs nofun

/-- **The words of a text** are those it is laid out from. -/
theorem words_eq_iff : words cs = ws ↔ Spaced ws cs := by
  refine ⟨?_, Spaced.words_eq⟩
  rintro rfl
  exact spaced_words cs

/-- With blanks between them, two texts are laid out from the words of both. -/
theorem Spaced.append (ha : Spaced ws a) (hb : Spaced vs b) (hs : IsGap s) (hne : s ≠ []) :
    Spaced (ws ++ vs) (a ++ (s ++ b)) := by
  rw [← words_eq_iff, words_append_gap hs hne, ha.words_eq, hb.words_eq]

end Interop.Text
