import FilterPlan.Proofs.Text.Fields
import FilterPlan.Proofs.Text.Name
import FilterPlan.Proofs.Text.Trim

/-!
# Words

A text is cut into words at each of its blanks (`words_append_blank`). So it does not matter how many blanks stand in front
of a text, behind it (`words_gap_append`, `words_append_trailing`, `words_trim`) and between two words
(`words_append_gap`), and a text with words is its first word with blanks in front and the other words behind
(`exists_of_words_eq_cons`).
-/

namespace FilterPlan.Text

/-- A text of blanks only. -/
def IsGap (t : Text) : Prop :=
  ∀ c ∈ t, isBlank c

/-- A text without blanks that is not empty. -/
def IsSolid (t : Text) : Prop :=
  t ≠ [] ∧ ∀ c ∈ t, isBlank c = false

instance (t : Text) : Decidable (IsGap t) :=
  List.decidableBAll _ t

instance (t : Text) : Decidable (IsSolid t) :=
  @instDecidableAnd _ _ inferInstance (List.decidableBAll _ t)

variable {s t w : Text} {c : Char}

theorem IsGap.cons (h : IsGap t) (hc : isBlank c) : IsGap (c :: t) := fun d hd => by
  rcases List.mem_cons.mp hd with rfl | hd
  · exact hc
  · exact h d hd

theorem IsGap.tail (h : IsGap (c :: t)) : IsGap t := fun d hd => h d (List.mem_cons_of_mem c hd)

/-! ## The words of a text -/

/-- A text is cut at each of its blanks. -/
theorem words_append_blank (hc : isBlank c) (s t : Text) : words (s ++ c :: t) = words s ++ words t := by
  simp only [words, pieces, fields_eq_splitOnP]
  rw [List.splitOnP_append_cons s t hc, List.filter_append]

theorem words_cons_blank (hc : isBlank c) (t : Text) : words (c :: t) = words t :=
  words_append_blank hc [] t

theorem words_gap_append : ∀ {s : Text}, IsGap s → ∀ t, words (s ++ t) = words t
  | [], _, _ => rfl
  | c :: s, h, t => by
    rw [List.cons_append, words_cons_blank (h c List.mem_cons_self), words_gap_append h.tail]

theorem words_of_isGap (h : IsGap t) : words t = [] := by
  have hwords := words_gap_append h []
  rwa [List.append_nil] at hwords

theorem words_of_isSolid (h : IsSolid t) : words t = [t] := by
  rw [words, pieces, fields_eq_splitOnP, List.splitOnP_eq_singleton h.2, List.filter_cons_of_pos (by simp [h.1])]
  rfl

/-- A blank ends the word in front of it. -/
theorem words_append_gap (hw : IsSolid w) (h : IsGap s) (hne : s ≠ []) (t : Text) :
    words (w ++ (s ++ t)) = w :: words t := by
  obtain ⟨c, s, rfl⟩ := List.exists_cons_of_ne_nil hne
  rw [List.cons_append, words_append_blank (h c List.mem_cons_self), words_of_isSolid hw,
    words_gap_append h.tail]
  rfl

theorem words_append_trailing : ∀ {s : Text}, IsGap s → ∀ t, words (t ++ s) = words t
  | [], _, t => by rw [List.append_nil]
  | c :: s, h, t => by
    rw [words_append_blank (h c List.mem_cons_self), words_of_isGap h.tail, List.append_nil]

/-- Trimming leaves the words as they are. -/
theorem words_trim (t : Text) : words t.trim = words t := by
  have hfront : IsGap (t.takeWhile isBlank) := fun c hc => List.mem_takeWhile_imp hc
  have hback : IsGap ((t.dropWhile isBlank).reverse.takeWhile isBlank).reverse := fun c hc =>
    List.mem_takeWhile_imp (List.mem_reverse.mp hc)
  have hrest : t.dropWhile isBlank = t.trim ++ ((t.dropWhile isBlank).reverse.takeWhile isBlank).reverse := by
    rw [trim, ← List.reverse_append, List.takeWhile_append_dropWhile, List.reverse_reverse]
  calc words t.trim
      = words (t.dropWhile isBlank) := by rw [hrest, words_append_trailing hback]
    _ = words (t.takeWhile isBlank ++ t.dropWhile isBlank) := (words_gap_append hfront _).symm
    _ = words t := by rw [List.takeWhile_append_dropWhile]

/-! ## Words found in a text -/

/-- The text up to the first blank is a word, if there is any. -/
theorem exists_words_eq_cons (hc : isBlank c = false) (t : Text) : ∃ w behind, c :: t = w ++ behind ∧ IsSolid w ∧
    Stops (!isBlank ·) behind ∧ words (c :: t) = w :: words behind := by
  obtain ⟨w, behind, hsplit, hword, hbehind⟩ : ∃ w behind, c :: t = w ++ behind ∧ IsSolid w ∧
      Stops (!isBlank ·) behind := by
    refine ⟨(c :: t).takeWhile (!isBlank ·), (c :: t).dropWhile (!isBlank ·), List.takeWhile_append_dropWhile.symm,
      ⟨by simp [hc], fun d hd => ?_⟩, fun d hd => ?_⟩
    · simpa using List.mem_takeWhile_imp hd
    · have hfirst := List.head?_dropWhile_not (!isBlank ·) (c :: t)
      rw [hd] at hfirst
      simpa using hfirst
  refine ⟨w, behind, hsplit, hword, hbehind, ?_⟩
  rw [hsplit]
  cases behind with
  | nil =>
    rw [List.append_nil, words_of_isSolid hword]
    rfl
  | cons d rest =>
    have hblank : isBlank d := by simpa using hbehind d rfl
    rw [words_append_blank hblank, words_of_isSolid hword, words_cons_blank hblank]
    rfl

/-- Up to its first word, a text has nothing but blanks, and there is a blank behind the word if there is anything. -/
theorem exists_of_words_eq_cons {ws : List Text} : ∀ {t : Text}, words t = w :: ws → ∃ before behind,
    t = before ++ (w ++ behind) ∧ IsGap before ∧ IsSolid w ∧ Stops (!isBlank ·) behind ∧ words behind = ws
  | [], h => by cases h
  | c :: t, h => by
    cases hc : isBlank c with
    | true =>
      rw [words_cons_blank hc] at h
      obtain ⟨before, behind, rfl, hbefore, hrest⟩ := exists_of_words_eq_cons h
      exact ⟨c :: before, behind, rfl, hbefore.cons hc, hrest⟩
    | false =>
      obtain ⟨w', behind, ht, hw, hbehind, hwords⟩ := exists_words_eq_cons hc t
      obtain ⟨rfl, rfl⟩ := List.cons.inj (hwords.symm.trans h)
      exact ⟨[], behind, ht, nofun, hw, hbehind, rfl⟩

/-- A text without words has nothing but blanks. -/
theorem isGap_of_words_eq_nil : ∀ {t : Text}, words t = [] → IsGap t
  | [], _ => nofun
  | c :: t, h => by
    cases hc : isBlank c with
    | true =>
      rw [words_cons_blank hc] at h
      exact (isGap_of_words_eq_nil h).cons hc
    | false =>
      obtain ⟨w, behind, -, -, -, hwords⟩ := exists_words_eq_cons hc t
      rw [h] at hwords
      cases hwords

end FilterPlan.Text
