import FilterPlan.Text.Blank
import Mathlib.Data.List.TakeWhile

/-!
# Trimming

Trimming finds the first character that is not blank (`head?_trim`), so that nothing is left of a text with blanks only
(`trim_eq_nil_iff`), and it leaves a text without blanks alone (`trim_eq_self`).
-/

namespace FilterPlan.Text

theorem trim_eq_self {t : Text} (h : ∀ c ∈ t, isBlank c = false) : t.trim = t := by
  have hdrop : ∀ s : Text, (∀ c ∈ s, isBlank c = false) → s.dropWhile isBlank = s := fun s hs => by
    cases s with
    | nil => rfl
    | cons c s => exact List.dropWhile_cons_of_neg (by rw [hs c List.mem_cons_self]; exact Bool.false_ne_true)
  rw [trim, hdrop t h, hdrop _ fun c hc => h c (List.mem_reverse.mp hc), List.reverse_reverse]

/-- A text without a blank in front keeps its first character. -/
theorem head?_trim_cons {c : Char} (hc : isBlank c = false) (t : Text) : (trim (c :: t)).head? = some c := by
  have hneg : ¬ isBlank c = true := by
    rw [hc]
    exact Bool.false_ne_true
  rw [trim, List.dropWhile_cons_of_neg hneg, List.reverse_cons, List.dropWhile_append]
  split
  · rw [List.dropWhile_cons_of_neg hneg]
    rfl
  · rw [List.reverse_append]
    rfl

/-- Trimming finds the first character that is not blank. -/
theorem head?_trim (t : Text) : t.trim.head? = (t.dropWhile isBlank).head? := by
  cases h : t.dropWhile isBlank with
  | nil =>
    rw [trim, h]
    rfl
  | cons c rest =>
    have hc : isBlank c = false := by
      have hfirst := List.head?_dropWhile_not isBlank t
      simpa [h] using hfirst
    have hsame : trim t = trim (c :: rest) := by
      rw [trim, trim, h, List.dropWhile_cons_of_neg (by rw [hc]; exact Bool.false_ne_true)]
    rw [hsame, head?_trim_cons hc]
    rfl

theorem trim_eq_nil_iff {t : Text} : t.trim = [] ↔ ∀ c ∈ t, isBlank c := by
  rw [← List.head?_eq_none_iff, head?_trim, List.head?_eq_none_iff, List.dropWhile_eq_nil_iff]

end FilterPlan.Text
