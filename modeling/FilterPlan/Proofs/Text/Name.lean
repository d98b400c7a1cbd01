import FilterPlan.Proofs.Text.Numbered
import FilterPlan.Text.Blank
import FilterPlan.Text.Word
import Mathlib.Data.List.Forall2

/-!
# Names at the beginning of a text

A run of characters of one kind can be read off the beginning of a text, if the rest does not begin with another one
(`takeWhile_append_of_stops`). So a name, which has letters, digits and underscores only, can be told from what follows
it (`IsName.append_inj`), and parts that can be told from what follows them can be told when they are joined
(`joinWith_append_inj`).
-/

namespace FilterPlan.Text

/-! ## Runs of characters -/

/-- The text does not begin with a character of the kind. -/
def Stops (p : Char → Bool) (t : Text) : Prop :=
  ∀ c ∈ t.head?, p c = false

theorem stops_nil (p : Char → Bool) : Stops p [] := nofun

theorem stops_cons {p : Char → Bool} {c : Char} (hc : p c = false) (t : Text) : Stops p (c :: t) := fun d hd => by
  cases hd
  exact hc

theorem takeWhile_append_of_stops {p : Char → Bool} {a r : Text} (ha : ∀ c ∈ a, p c) (hr : Stops p r) :
    (a ++ r).takeWhile p = a := by
  rw [List.takeWhile_append_of_pos ha]
  cases r with
  | nil => exact List.append_nil a
  | cons c r => rw [List.takeWhile_cons_of_neg (by rw [hr c rfl]; exact Bool.false_ne_true), List.append_nil]

theorem dropWhile_append_of_stops {p : Char → Bool} {a r : Text} (ha : ∀ c ∈ a, p c) (hr : Stops p r) :
    (a ++ r).dropWhile p = r := by
  rw [List.dropWhile_append_of_pos ha]
  cases r with
  | nil => rfl
  | cons c r => exact List.dropWhile_cons_of_neg (by rw [hr c rfl]; exact Bool.false_ne_true)

/-! ## Names -/

/-- Whether the character can stand in a name: it is a letter, a digit or an underscore, and in ASCII. -/
def isNameChar (c : Char) : Bool :=
  isIdentifier.isStart c || c.isDigit

theorem isNameChar_iff {c : Char} : isNameChar c ↔ c.isAlphanum ∨ c = '_' := by
  simp only [isNameChar, isIdentifier.isStart, Char.isAlphanum, Bool.or_eq_true, beq_iff_eq]
  exact or_right_comm

theorem toNat_of_isNameChar {c : Char} (h : isNameChar c) : 0x30 ≤ c.toNat ∧ c.toNat < 0x7B := by
  rcases isNameChar_iff.mp h with h | rfl
  · have hrange : ((65 ≤ c.toNat ∧ c.toNat ≤ 90) ∨ (97 ≤ c.toNat ∧ c.toNat ≤ 122)) ∨ (48 ≤ c.toNat ∧ c.toNat ≤ 57) := by
      rcases Bool.or_eq_true_iff.mp h with h | h
      · rcases Bool.or_eq_true_iff.mp h with h | h
        · exact Or.inl (Or.inl (of_decide_eq_true h))
        · have hlower := Bool.and_eq_true_iff.mp h
          exact Or.inl (Or.inr ⟨of_decide_eq_true hlower.1, of_decide_eq_true hlower.2⟩)
      · have hdigit := Bool.and_eq_true_iff.mp h
        exact Or.inr ⟨of_decide_eq_true hdigit.1, of_decide_eq_true hdigit.2⟩
    omega
  · decide

theorem isWordChar_of_isNameChar {c : Char} (h : isNameChar c) : isWordChar c := by
  have hc := toNat_of_isNameChar h
  unfold isWordChar
  simp only
  rw [if_pos (by omega)]
  simpa [beq_iff_eq] using isNameChar_iff.mp h

theorem isBlank_of_isNameChar {c : Char} (h : isNameChar c) : isBlank c = false := by
  have hc := toNat_of_isNameChar h
  simp only [isBlank, Bool.or_eq_false_iff, Bool.and_eq_false_iff, decide_eq_false_iff_not, beq_eq_false_iff_ne, ne_eq]
  omega

/-- All characters can stand in a name. -/
def IsName (t : Text) : Prop :=
  ∀ c ∈ t, isNameChar c

instance (t : Text) : Decidable (IsName t) :=
  List.decidableBAll _ t

variable {a b r s : Text}

theorem IsName.append (ha : IsName a) (hb : IsName b) : IsName (a ++ b) := fun c hc =>
  (List.mem_append.mp hc).elim (ha c) (hb c)

theorem isName_of_isIdentifier (h : a.isIdentifier) : IsName a := by
  cases a with
  | nil => exact nofun
  | cons c rest =>
    obtain ⟨hc, hrest⟩ := Bool.and_eq_true_iff.mp h
    intro d hd
    rcases List.mem_cons.mp hd with rfl | hd
    · exact Bool.or_eq_true_iff.mpr (Or.inl hc)
    · exact List.all_eq_true.mp hrest d hd

theorem isName_ofNat (n : Nat) : IsName (ofNat n) := fun _ hc =>
  Bool.or_eq_true_iff.mpr (Or.inr (isDigit_of_mem_ofNat hc))

/-- A name and what follows it are determined by the text. -/
theorem IsName.append_inj (ha : IsName a) (hb : IsName b) (hr : Stops isNameChar r) (hs : Stops isNameChar s)
    (h : a ++ r = b ++ s) : a = b ∧ r = s := by
  constructor
  · rw [← takeWhile_append_of_stops ha hr, h, takeWhile_append_of_stops hb hs]
  · rw [← dropWhile_append_of_stops ha hr, h, dropWhile_append_of_stops hb hs]

/-! ## Words of letters -/

theorem isAlpha_of_toUpper {c : Char} (h : c.toUpper.isAlpha) : c.isAlpha := by
  by_cases hl : c.isLower
  · exact Bool.or_eq_true_iff.mpr (Or.inr hl)
  · unfold Char.toUpper at h
    split at h
    · next hc => exact absurd (Bool.and_eq_true_iff.mpr ⟨decide_eq_true hc.1, decide_eq_true hc.2⟩) hl
    · exact h

/-- The text is a nonempty run of letters. -/
def IsWord (t : Text) : Prop :=
  t ≠ [] ∧ ∀ c ∈ t, c.isAlpha

theorem isWord_of_upper {t name : Text} (h : t.upper = name) (hname : name.IsWord) : t.IsWord := by
  subst h
  refine ⟨fun hnil => hname.1 (by rw [hnil]; rfl), fun c hc => ?_⟩
  exact isAlpha_of_toUpper (hname.2 _ (List.mem_map_of_mem hc))

/-! ## Joined parts -/

/-- Parts that can be told from what follows them can be told from a text in which they are joined, and so can the
separator if there are at least two of them. What follows the last one must not begin as a separator does. -/
theorem joinWith_append_inj {α : Type} {f : α → Text} {R : α → α → Prop} {c : Char} (sep sep' : Text)
    (hc : isNameChar c = false) (hsep : ∀ r s, c :: sep ++ r = c :: sep' ++ s → sep = sep' ∧ r = s)
    (hr : Stops isNameChar r) (hs : Stops isNameChar s) (hrc : r.head? ≠ some c) (hsc : s.head? ≠ some c) :
    ∀ {l l' : List α}, l ≠ [] → l' ≠ [] →
    (∀ a ∈ l, ∀ b ∈ l', ∀ r s, Stops isNameChar r → Stops isNameChar s → f a ++ r = f b ++ s → R a b ∧ r = s) →
    joinWith (c :: sep) (l.map f) ++ r = joinWith (c :: sep') (l'.map f) ++ s →
    List.Forall₂ R l l' ∧ (1 < l.length → sep = sep') ∧ r = s
  | [], _, hl, _, _, _ => absurd rfl hl
  | _, [], _, hl', _, _ => absurd rfl hl'
  | [a], [b], _, _, hf, h => by
    obtain ⟨hab, rfl⟩ := hf a List.mem_cons_self b List.mem_cons_self r s hr hs (by simpa [joinWith] using h)
    exact ⟨.cons hab .nil, fun hlt => absurd hlt (Nat.lt_irrefl 1), rfl⟩
  | [a], b :: b' :: l', _, _, hf, h => by
    simp only [joinWith, List.map_cons, List.map_nil, List.intercalate_singleton, List.intercalate_cons_cons,
      List.append_assoc, List.cons_append] at h
    obtain ⟨-, rfl⟩ := hf a List.mem_cons_self b List.mem_cons_self _ _ hr (stops_cons hc _) h
    exact absurd rfl hrc
  | a :: a' :: l, [b], _, _, hf, h => by
    simp only [joinWith, List.map_cons, List.map_nil, List.intercalate_singleton, List.intercalate_cons_cons,
      List.append_assoc, List.cons_append] at h
    obtain ⟨-, rfl⟩ := hf a List.mem_cons_self b List.mem_cons_self _ _ (stops_cons hc _) hs h
    exact absurd rfl hsc
  | a :: a' :: l, b :: b' :: l', _, _, hf, h => by
    simp only [joinWith, List.map_cons, List.intercalate_cons_cons, List.append_assoc, List.cons_append] at h
    obtain ⟨hab, hrest⟩ := hf a List.mem_cons_self b List.mem_cons_self _ _ (stops_cons hc _) (stops_cons hc _) h
    obtain ⟨hsame, hrest⟩ := hsep _ _ hrest
    obtain ⟨hall, -, hend⟩ := joinWith_append_inj sep sep' hc hsep hr hs hrc hsc
      (List.cons_ne_nil _ _) (List.cons_ne_nil _ _)
      (fun x hx y hy => hf x (List.mem_cons_of_mem a hx) y (List.mem_cons_of_mem b hy)) hrest
    exact ⟨.cons hab hall, fun _ => hsame, hend⟩

end FilterPlan.Text
