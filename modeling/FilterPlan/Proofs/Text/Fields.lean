import FilterPlan.Proofs.Text.Separable
import FilterPlan.Text.Blank
import Mathlib.Data.List.TakeWhile

/-!
# Fields and blanks

Cutting a text at separators is what `List.splitOnP` does (`fields_eq_splitOnP`), so that joined texts come apart again
(`pieces_joinWith`). Blanks may be put anywhere into a text that has none: taking all of them out gives the text back
(`squeeze_of_spaced`).
-/

namespace FilterPlan.Text

/-! ## Fields -/

theorem fields_eq_splitOnP (isSeparator : Char → Bool) (t : Text) : fields isSeparator t = t.splitOnP isSeparator := by
  induction t with
  | nil => rfl
  | cons d t ih =>
    have hstep : fields isSeparator (d :: t) = fields.step isSeparator d (fields isSeparator t) := rfl
    obtain ⟨field, rest, hs⟩ := List.exists_cons_of_ne_nil (List.splitOnP_ne_nil isSeparator t)
    rw [hstep, ih, List.splitOnP_cons_eq_if_modifyHead, hs]
    rfl

theorem fields_eq_splitOn (c : Char) (t : Text) : fields (· == c) t = t.splitOn c :=
  fields_eq_splitOnP (· == c) t

/-- Texts without a character come apart when they are joined by it and cut at it; only those that are empty get lost. -/
theorem pieces_joinWith {c : Char} {texts : List Text} (h : ∀ t ∈ texts, c ∉ t) :
    pieces (· == c) (joinWith [c] texts) = texts.filter (!·.isEmpty) := by
  rw [pieces, fields_eq_splitOn]
  cases texts with
  | nil => rfl
  | cons t rest => rw [joinWith, List.splitOn_intercalate c h (List.cons_ne_nil t rest)]

theorem mem_joinWith : ∀ {texts : List Text} {c : Char}, c ∈ joinWith "," texts → c = ',' ∨ ∃ t ∈ texts, c ∈ t
  | [], _, h => by cases h
  | [t], c, h => by
    rw [joinWith, List.intercalate_singleton] at h
    exact Or.inr ⟨t, List.mem_cons_self, h⟩
  | t :: t' :: rest, c, h => by
    rw [joinWith_cons_cons, List.mem_append, List.mem_cons] at h
    rcases h with h | rfl | h
    · exact Or.inr ⟨t, List.mem_cons_self, h⟩
    · exact Or.inl rfl
    · refine (mem_joinWith h).imp id fun ⟨u, hu, hc⟩ => ⟨u, List.mem_cons_of_mem t hu, hc⟩

theorem cutAt?_of_not_mem {c : Char} {t : Text} (h : c ∉ t) : cutAt? c t = none := by
  have hdrop : t.dropWhile (· != c) = [] := List.dropWhile_eq_nil_iff.mpr fun d hd => bne_iff_ne.mpr fun he => h (he ▸ hd)
  rw [cutAt?, hdrop]

/-! ## Blanks -/

/-- The second text is the first one with blanks put in anywhere. -/
inductive Spaced : Text → Text → Prop
  | nil : Spaced [] []
  | keep (c : Char) {s t : Text} : Spaced s t → Spaced (c :: s) (c :: t)
  | blank {c : Char} (hc : isBlank c) {s t : Text} : Spaced s t → Spaced s (c :: t)

theorem squeeze_cons_of_blank {c : Char} (hc : isBlank c) (t : Text) : squeeze (c :: t) = t.squeeze :=
  List.filter_cons_of_neg (by rw [hc]; exact Bool.false_ne_true)

theorem squeeze_cons_of_not_blank {c : Char} (hc : isBlank c = false) (t : Text) : squeeze (c :: t) = c :: t.squeeze :=
  List.filter_cons_of_pos (by rw [hc]; rfl)

/-- Blanks can be put back where they have been taken out. -/
theorem spaced_of_squeeze_eq : ∀ {t s : Text}, t.squeeze = s → Spaced s t
  | [], _, h => h ▸ .nil
  | c :: t, s, h => by
    cases hc : isBlank c with
    | false =>
      rw [squeeze_cons_of_not_blank hc] at h
      exact h ▸ .keep c (spaced_of_squeeze_eq rfl)
    | true =>
      rw [squeeze_cons_of_blank hc] at h
      exact .blank hc (spaced_of_squeeze_eq h)

/-- Without its blanks, a text with blanks put in is the one that had none. -/
theorem squeeze_of_spaced {s t : Text} (h : Spaced s t) (hs : ∀ c ∈ s, isBlank c = false) : t.squeeze = s := by
  induction h with
  | nil => rfl
  | keep c _ ih =>
    have hrest := ih fun d hd => hs d (List.mem_cons_of_mem c hd)
    rw [squeeze_cons_of_not_blank (hs c List.mem_cons_self), hrest]
  | blank hc _ ih => rw [squeeze_cons_of_blank hc, ih hs]

end FilterPlan.Text
