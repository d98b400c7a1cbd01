import FilterPlan.Proofs.Text.Guarding
import FilterPlan.Proofs.Text.Nesting
import FilterPlan.Proofs.Text.Separable

/-!
# Elements of written lists

A text can be an element of a list if its commas outside parentheses are escaped (`escaped`). The scan of the list goes
over it, and drops the backslashes (`passes_escaped`); inside parentheses it goes over whatever nests and has
backslashes in front of commas only, and keeps them (`Nests.goesOver`). So a list can be taken apart into what its
elements stand for, however many empty items there are between them (`segments_items`).
-/

namespace FilterPlan.Text

/-! ## Escaping -/

/-- The text with a backslash in front of each comma at depth zero, for a text behind which `depth` parentheses are
open. -/
def escapedFrom (depth : Nat) : Text → Text
  | [] => []
  | '(' :: t => '(' :: escapedFrom (depth + 1) t
  | ')' :: t => ')' :: escapedFrom (depth - 1) t
  | ',' :: t => if depth = 0 then '\\' :: ',' :: escapedFrom depth t else ',' :: escapedFrom depth t
  | c :: t => c :: escapedFrom depth t

/-- The text with a backslash in front of each comma outside parentheses. -/
def escaped (t : Text) : Text :=
  escapedFrom 0 t

theorem escapedFrom_plain {c : Char} (h₁ : c ≠ '(') (h₂ : c ≠ ')') (h₃ : c ≠ ',') (d : Nat) (t : Text) :
    escapedFrom d (c :: t) = c :: escapedFrom d t := by
  rw [escapedFrom]
  · exact h₁
  · exact h₂
  · exact h₃

theorem escaped_ne_nil {t : Text} (h : t ≠ []) : escaped t ≠ [] := by
  obtain ⟨c, rest, rfl⟩ := List.exists_cons_of_ne_nil h
  by_cases hc : c = '(' ∨ c = ')' ∨ c = ','
  · rcases hc with rfl | rfl | rfl <;> exact List.cons_ne_nil _ _
  · simp only [not_or] at hc
    rw [escaped, escapedFrom_plain hc.1 hc.2.1 hc.2.2]
    exact List.cons_ne_nil _ _

/-- A backslash stands only directly in front of a comma. -/
def EscapesCommas : Text → Prop
  | [] => True
  | c :: t => (c = '\\' → t.head? = some ',') ∧ EscapesCommas t

theorem escapesCommas_of_not_mem : ∀ {t : Text}, '\\' ∉ t → EscapesCommas t
  | [], _ => trivial
  | c :: t, h => by
    rw [List.mem_cons, not_or] at h
    exact ⟨fun hc => absurd hc.symm h.1, escapesCommas_of_not_mem h.2⟩

theorem EscapesCommas.append : ∀ {s t : Text}, EscapesCommas s → EscapesCommas t → EscapesCommas (s ++ t)
  | [], _, _, ht => ht
  | c :: s, t, ⟨hc, hs⟩, ht => by
    refine ⟨fun h => ?_, hs.append ht⟩
    obtain ⟨u, rfl⟩ := List.head?_eq_some_iff.mp (hc h)
    rfl

theorem EscapesCommas.joinWith : ∀ {texts : List Text}, (∀ t ∈ texts, EscapesCommas t) →
    EscapesCommas (joinWith "," texts)
  | [], _ => trivial
  | [t], h => by
    rw [Text.joinWith, List.intercalate_singleton]
    exact h t List.mem_cons_self
  | t :: t' :: rest, h => by
    rw [joinWith_cons_cons]
    have hrest := EscapesCommas.joinWith fun s (hs : s ∈ t' :: rest) => h s (List.mem_cons_of_mem t hs)
    exact (h t List.mem_cons_self).append ⟨fun hc => absurd hc (by decide), hrest⟩

/-! ## The scan inside parentheses -/

/-- Inside a parenthesis the scan goes over a text that nests and escapes commas only. -/
theorem Nests.goesOver {d d' : Nat} {t : Text} (h : Nests d t d') (he : EscapesCommas t) (k : Nat) (u : Text) :
    GoesOver (d + k + 1) t u (d' + k + 1) := by
  induction h with
  | nil d => exact fun _ _ => rfl
  | @escaped d d' t c h ih =>
    obtain ⟨hc, -, ht⟩ := he
    obtain rfl : c = ',' := Option.some.inj (hc rfl)
    exact (goesOver_escapedComma (Nat.succ_ne_zero _) _).append (ih ht)
  | @opening d d' t h ih =>
    have ih := ih he.2
    rw [Nat.add_right_comm d 1 k] at ih
    exact (goesOver_opening _ _).append ih
  | @closing d d' t h ih =>
    rw [Nat.add_right_comm d 1 k]
    exact (goesOver_closing _ _).append (ih he.2)
  | @plain d d' t c h₁ h₂ h₃ h ih =>
    by_cases h₄ : c = ','
    · subst h₄
      exact (goesOver_comma (Nat.succ_ne_zero _) _).append (ih he.2)
    · exact (goesOver_plain (isPlain_of_ne h₁ h₂ h₃ h₄ _) _).append (ih he.2)

/-! ## The scan of elements -/

/-- A text without backslashes that nests does so when it is escaped. -/
theorem Nests.nests_escapedFrom {d d' : Nat} {t : Text} (h : Nests d t d') (hb : '\\' ∉ t) :
    Nests d (escapedFrom d t) d' ∧ EscapesCommas (escapedFrom d t) := by
  induction h with
  | nil d => exact ⟨.nil d, trivial⟩
  | escaped => exact absurd List.mem_cons_self hb
  | opening h ih =>
    obtain ⟨hn, he⟩ := ih fun hm => hb (List.mem_cons_of_mem _ hm)
    exact ⟨.opening hn, fun hc => absurd hc (by decide), he⟩
  | closing h ih =>
    obtain ⟨hn, he⟩ := ih fun hm => hb (List.mem_cons_of_mem _ hm)
    exact ⟨.closing hn, fun hc => absurd hc (by decide), he⟩
  | @plain d d' t c h₁ h₂ h₃ h ih =>
    obtain ⟨hn, he⟩ := ih fun hm => hb (List.mem_cons_of_mem _ hm)
    by_cases h₄ : c = ','
    · subst h₄
      rw [escapedFrom]
      split
      · exact ⟨.escaped ',' hn, fun _ => rfl, fun hc => absurd hc (by decide), he⟩
      · exact ⟨.plain h₁ h₂ h₃ hn, fun hc => absurd hc h₁, he⟩
    · rw [escapedFrom_plain h₂ h₃ h₄]
      exact ⟨.plain h₁ h₂ h₃ hn, fun hc => absurd hc h₁, he⟩

/-- Without backslashes the scan goes as deep as the parentheses nest. -/
theorem Nests.depthBehind_eq {d d' : Nat} {t : Text} (h : Nests d t d') (hb : '\\' ∉ t) : depthBehind d t = d' := by
  induction h with
  | nil => rfl
  | escaped => exact absurd List.mem_cons_self hb
  | opening h ih => exact ih fun hm => hb (List.mem_cons_of_mem _ hm)
  | closing h ih => exact ih fun hm => hb (List.mem_cons_of_mem _ hm)
  | plain h₁ h₂ h₃ h ih =>
    rw [depthBehind_cons ⟨h₂, h₃⟩ fun hc => absurd hc h₁]
    exact ih fun hm => hb (List.mem_cons_of_mem _ hm)

/-- An element without backslashes is guarded by escaping it. -/
theorem guardedFrom_eq {t : Text} (hb : '\\' ∉ t) (d : Nat) : guardedFrom d t = escapedFrom d t := by
  induction t using scanInduction generalizing d with
  | nil => rfl
  | escapedComma => exact absurd List.mem_cons_self hb
  | escapedParenthesis => exact absurd List.mem_cons_self hb
  | opening t ih => exact congrArg ('(' :: ·) (ih (fun hm => hb (List.mem_cons_of_mem _ hm)) (d + 1))
  | closing t ih => exact congrArg (')' :: ·) (ih (fun hm => hb (List.mem_cons_of_mem _ hm)) (d - 1))
  | comma t ih => rw [guardedFrom, escapedFrom, ih fun hm => hb (List.mem_cons_of_mem _ hm)]
  | plain c t hc ih =>
    obtain ⟨h₂, h₃⟩ := ne_parenthesis hc.1
    rw [guardedFrom_plain hc, escapedFrom_plain h₂ h₃ fun h => hc.1 (h ▸ List.mem_cons_self),
      ih fun hm => hb (List.mem_cons_of_mem _ hm)]

theorem passes_escaped {t : Text} (h : Nests 0 t 0) (hb : '\\' ∉ t) : Passes (escaped t) t := by
  have hclosed : IsClosed t := ⟨h.depthBehind_eq hb, fun hs => hb (hs.mem List.mem_cons_self)⟩
  rw [escaped, ← guardedFrom_eq hb]
  exact passes_guarded hclosed

/-- An expression passes as it is: what leads up to its parenthesis has no meaning for the scan, and what is inside
nests and escapes commas only. -/
theorem passes_enclosed {lead inner : Text} (hlead : ∀ c ∈ lead, c ≠ '\\' ∧ c ≠ '(' ∧ c ≠ ')' ∧ c ≠ ',')
    (hn : Nests 0 inner 0) (he : EscapesCommas inner) :
    Passes (lead ++ '(' :: (inner ++ [')'])) (lead ++ '(' :: (inner ++ [')'])) := by
  have hgoes : ∀ lead' : Text, (∀ c ∈ lead', c ∈ lead) → ∀ u, GoesOver 0 lead' u 0 := by
    intro lead' hsub u
    induction lead' with
    | nil => exact fun _ _ => rfl
    | cons c rest ih =>
      obtain ⟨h₁, h₂, h₃, h₄⟩ := hlead c (hsub c List.mem_cons_self)
      exact (goesOver_plain (isPlain_of_ne h₁ h₂ h₃ h₄ _) 0).append
        (ih fun d hd => hsub d (List.mem_cons_of_mem c hd))
  intro segment done u
  refine GoesOver.append (hgoes lead (fun _ h => h) _) ?_ segment done
  exact (goesOver_opening 0 _).append ((hn.goesOver he 0 _).append (goesOver_closing 1 u))

/-! ## Written lists -/

theorem segments_empty_item (u : Text) : segments (',' :: u) = segments u :=
  rfl

theorem segments_item {item value : Text} (h : Passes item value) (hne : value ≠ []) : segments item = [value] := by
  have hscan := h [] [] []
  rw [List.append_nil, List.append_nil] at hscan
  rw [segments, hscan, segmentsFrom, flush, if_neg (by simp [hne]), List.reverse_reverse]
  rfl

theorem segments_item_comma {item value : Text} (h : Passes item value) (hne : value ≠ []) (u : Text) :
    segments (item ++ ',' :: u) = value :: segments u := by
  rw [segments, h, List.append_nil, segmentsFrom, if_pos rfl, segmentsFrom_done, flush, if_neg (by simp [hne]),
    List.reverse_reverse]
  rfl

section Items

variable {α : Type} {write value : α → Text}

/-- The first item is empty, or it is written for the first of the elements. -/
theorem items_cons {t : Text} {items : List Text} {l : List α}
    (h : (t :: items).filter (!·.isEmpty) = l.map write) :
    (t = [] ∧ items.filter (!·.isEmpty) = l.map write) ∨
      ∃ a rest, l = a :: rest ∧ t = write a ∧ items.filter (!·.isEmpty) = rest.map write := by
  by_cases ht : t = []
  · subst ht
    exact Or.inl ⟨rfl, h⟩
  · rw [List.filter_cons_of_pos (by simpa using ht)] at h
    obtain ⟨a, rest, rfl, rfl, hrest⟩ := List.map_eq_cons_iff.mp h.symm
    exact Or.inr ⟨a, rest, rfl, rfl, hrest.symm⟩

/-- **A list can be taken apart** into the values of its elements, whatever empty items are among them. -/
theorem segments_items : ∀ {items : List Text} {l : List α}, items.filter (!·.isEmpty) = l.map write →
    (∀ a ∈ l, Passes (write a) (value a) ∧ value a ≠ []) → segments (joinWith "," items) = l.map value
  | [], l, h, _ => by
    obtain rfl := List.map_eq_nil_iff.mp h.symm
    rfl
  | [t], l, h, hl => by
    rw [joinWith, List.intercalate_singleton]
    rcases items_cons h with ⟨rfl, hrest⟩ | ⟨a, rest, rfl, rfl, hrest⟩
    · obtain rfl := List.map_eq_nil_iff.mp hrest.symm
      rfl
    · obtain rfl := List.map_eq_nil_iff.mp hrest.symm
      obtain ⟨hp, hne⟩ := hl a List.mem_cons_self
      exact segments_item hp hne
  | t :: t' :: items, l, h, hl => by
    rw [joinWith_cons_cons]
    rcases items_cons h with ⟨rfl, hrest⟩ | ⟨a, rest, rfl, rfl, hrest⟩
    · rw [List.nil_append, segments_empty_item]
      exact segments_items hrest hl
    · obtain ⟨hp, hne⟩ := hl a List.mem_cons_self
      rw [segments_item_comma hp hne, segments_items hrest fun b hb => hl b (List.mem_cons_of_mem a hb), List.map_cons]

end Items

end FilterPlan.Text
