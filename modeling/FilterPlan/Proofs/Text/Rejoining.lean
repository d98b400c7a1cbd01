import FilterPlan.Proofs.Text.Escaping

/-!
# Which lists are those of segments

A list whose elements are not empty, and closed but for the last one (`AreSegments`), is taken apart again when its
elements are guarded and joined, whatever further commas are put where the scan is at depth zero
(`segments_of_guarded_items`); and `Text.segments` gives no other lists (`areSegments_segments`). Both are the main result,
`segments_join_guarded`.
-/

namespace FilterPlan.Text

/-- No text is empty, and all but the last are closed. -/
def AreSegments (texts : List Text) : Prop :=
  (∀ t ∈ texts, t ≠ []) ∧ ∀ t ∈ texts.dropLast, IsClosed t

instance (texts : List Text) : Decidable (AreSegments texts) :=
  instDecidableAnd

/-! ## What the scan gives -/

/-- Behind two texts the depth is that behind the second, from the depth behind the first. A backslash at the end of the
first must not meet a parenthesis. -/
theorem depthBehind_append {s t : Text} (d : Nat) (h : ['\\'] <:+ s → ∀ c ∈ t.head?, c ≠ '(' ∧ c ≠ ')') :
    depthBehind d (s ++ t) = depthBehind (depthBehind d s) t := by
  have hrest : ∀ {x s : Text}, (['\\'] <:+ x ++ s → ∀ c ∈ t.head?, c ≠ '(' ∧ c ≠ ')') →
      ['\\'] <:+ s → ∀ c ∈ t.head?, c ≠ '(' ∧ c ≠ ')' := fun h hs => h (hs.trans (List.suffix_append _ _))
  induction s using scanInduction generalizing d with
  | nil => rfl
  | escapedComma s ih => exact ih d (hrest (x := ['\\', ',']) h)
  | escapedParenthesis c s hc ih =>
    have ih := ih d (hrest (x := ['\\', c]) h)
    rcases hc with rfl | rfl
    · exact ih
    · exact ih
  | opening s ih => exact ih (d + 1) (hrest (x := ['(']) h)
  | closing s ih => exact ih (d - 1) (hrest (x := [')']) h)
  | comma s ih => exact ih d (hrest (x := [',']) h)
  | plain c s hc ih =>
    rw [depthBehind_plain hc, ← ih d (hrest (x := [c]) h), List.cons_append]
    refine depthBehind_cons (ne_parenthesis hc.1) (fun hb e he => ?_) d
    cases s with
    | nil =>
      subst hb
      exact h List.suffix_rfl e he
    | cons c' s => exact ne_parenthesis (hc.2 hb e he)

theorem areSegments_nil : AreSegments [] :=
  ⟨List.forall_mem_nil _, List.forall_mem_nil _⟩

theorem areSegments_singleton {t : Text} (hne : t ≠ []) : AreSegments [t] :=
  ⟨List.forall_mem_singleton.mpr hne, List.forall_mem_nil _⟩

theorem areSegments_cons {t : Text} {texts : List Text} (hne : t ≠ []) (ht : IsClosed t) (h : AreSegments texts) :
    AreSegments (t :: texts) := by
  refine ⟨List.forall_mem_cons.mpr ⟨hne, h.1⟩, fun s hs => ?_⟩
  cases texts with
  | nil => cases hs
  | cons t' rest =>
    rcases List.mem_cons.mp hs with rfl | hs
    · exact ht
    · exact h.2 s hs

theorem areSegments_concat_iff {texts : List Text} {t : Text} :
    AreSegments (texts ++ [t]) ↔ (∀ s ∈ texts, s ≠ [] ∧ IsClosed s) ∧ t ≠ [] := by
  rw [AreSegments, List.dropLast_concat, List.forall_mem_append, List.forall_mem_singleton, and_right_comm]
  refine and_congr_left fun _ => ⟨fun h s hs => ⟨h.1 s hs, h.2 s hs⟩, fun h => ?_⟩
  exact ⟨fun s hs => (h s hs).1, fun s hs => (h s hs).2⟩

theorem suffix_backslash_iff {s : Text} : ['\\'] <:+ s.reverse ↔ s.head? = some '\\' := by
  rw [← List.reverse_prefix, List.reverse_reverse]
  cases s with
  | nil => simp
  | cons c s => simp [eq_comm]

/-- What is added to a segment is passed at the depth behind it. -/
theorem depthBehind_push {segment x : Text} {d : Nat} (h : depthBehind 0 segment.reverse = d)
    (hx : segment.head? = some '\\' → ∀ c ∈ x.head?, c ≠ '(' ∧ c ≠ ')') :
    depthBehind 0 (x.reverse ++ segment).reverse = depthBehind d x := by
  rw [List.reverse_append, List.reverse_reverse, depthBehind_append, h]
  exact fun hs => hx (suffix_backslash_iff.mp hs)

/-- The scan goes on with a part of a segment that is as deep as the scan, and with no backslash at its end that would
escape what follows. -/
theorem areSegments_segmentsFrom {t : Text} {d : Nat} {segment : Text} (hdepth : depthBehind 0 segment.reverse = d)
    (hb : segment.head? = some '\\' → ∀ c ∈ t.head?, c ∉ [',', '(', ')']) :
    AreSegments (segmentsFrom d segment [] t) := by
  induction t using scanInduction generalizing d segment with
  | nil =>
    rw [segmentsFrom, flush]
    split
    · exact areSegments_nil
    · next hne => exact areSegments_singleton (by simpa using hne)
  | escapedComma t ih =>
    rw [segmentsFrom]
    split
    · exact ih (depthBehind_push (x := [',']) hdepth fun _ => by simp) (by simp)
    · exact ih (depthBehind_push (x := ['\\', ',']) hdepth fun _ => by simp) (by simp)
  | escapedParenthesis c t hc ih =>
    have hpush := depthBehind_push (x := ['\\', c]) hdepth fun _ => by simp
    rw [depthBehind_escapedParenthesis hc] at hpush
    have ih := ih hpush (fun he => by rcases hc with rfl | rfl <;> cases he)
    rcases hc with rfl | rfl
    · exact ih
    · exact ih
  | opening t ih =>
    exact ih (depthBehind_push (x := ['(']) hdepth fun he => absurd (hb he '(' rfl) (by decide)) (by simp)
  | closing t ih =>
    exact ih (depthBehind_push (x := [')']) hdepth fun he => absurd (hb he ')' rfl) (by decide)) (by simp)
  | comma t ih =>
    have hopen : segment.head? ≠ some '\\' := fun he => absurd (hb he ',' rfl) (by decide)
    rw [segmentsFrom]
    split
    · next hd =>
      subst hd
      have hrest : AreSegments (segmentsFrom 0 [] [] t) := ih rfl fun he => by cases he
      rw [segmentsFrom_done, flush]
      split
      · exact hrest
      · next hne =>
        refine areSegments_cons (by simpa using hne) ⟨hdepth, fun hs => hopen (suffix_backslash_iff.mp hs)⟩ hrest
    · exact ih (depthBehind_push (x := [',']) hdepth fun _ => by simp) (by simp)
  | plain c t hc ih =>
    rw [segmentsFrom_plain hc]
    have hpush := depthBehind_push (x := [c]) hdepth fun _ e he => by
      cases he
      exact ne_parenthesis hc.1
    rw [depthBehind_plain ⟨hc.1, fun _ _ he => by cases he⟩] at hpush
    exact ih hpush fun he => hc.2 (Option.some.inj he)

/-- **Splitting gives segments only.** -/
theorem areSegments_segments (t : Text) : AreSegments (segments t) :=
  areSegments_segmentsFrom rfl nofun

/-! ## Rejoined segments -/

/-- Empty items and closed elements in front of another text add the elements to its segments. -/
theorem segments_items_append {α : Type} {write value : α → Text} {u : Text} : ∀ {items : List Text} {l : List α},
    items.filter (!·.isEmpty) = l.map write → (∀ a ∈ l, Passes (write a) (value a) ∧ value a ≠ []) →
    segments (joinWith "," (items ++ [u])) = l.map value ++ segments u
  | [], l, h, _ => by
    obtain rfl := List.map_eq_nil_iff.mp h.symm
    rw [List.nil_append, joinWith, List.intercalate_singleton]
    rfl
  | t :: items, l, h, hl => by
    have hjoin : joinWith "," (t :: items ++ [u]) = t ++ ',' :: joinWith "," (items ++ [u]) := by
      obtain ⟨s, rest, hs⟩ := List.exists_cons_of_ne_nil (List.append_ne_nil_of_right_ne_nil items (List.cons_ne_nil u []))
      rw [List.cons_append, hs, joinWith_cons_cons]
    rw [hjoin]
    rcases items_cons h with ⟨rfl, hrest⟩ | ⟨a, rest, rfl, rfl, hrest⟩
    · exact segments_items_append hrest hl
    · obtain ⟨hp, hne⟩ := hl a List.mem_cons_self
      rw [segments_item_comma hp hne, segments_items_append hrest fun b hb => hl b (List.mem_cons_of_mem a hb),
        List.map_cons, List.cons_append]

/-- Guarded elements are taken apart, whatever empty items are among them, if a comma behind the last one separates or
there is none. -/
theorem segments_of_guarded_items {items texts : List Text} (h : items.filter (!·.isEmpty) = texts.map guarded)
    (hs : AreSegments texts) (hlast : ∀ t ∈ texts.getLast?, IsClosed t ∨ items.getLast? ≠ some []) :
    segments (joinWith "," items) = texts := by
  have hpasses : ∀ {l : List Text}, (∀ t ∈ l, t ≠ [] ∧ IsClosed t) → ∀ t ∈ l, Passes (guarded t) (id t) ∧ id t ≠ [] :=
    fun hl t ht => ⟨passes_guarded (hl t ht).2, (hl t ht).1⟩
  rcases List.eq_nil_or_concat items with rfl | ⟨front, u, rfl⟩
  · obtain rfl := List.map_eq_nil_iff.mp h.symm
    rfl
  rw [List.concat_eq_append] at h hlast ⊢
  by_cases hu : u = []
  · -- Commas stand behind the last element, so it is closed as the others are.
    subst hu
    rw [List.filter_append, List.filter_cons_of_neg (by simp), List.filter_nil, List.append_nil] at h
    have hclosed : ∀ t ∈ texts, t ≠ [] ∧ IsClosed t := by
      rcases List.eq_nil_or_concat texts with rfl | ⟨rest, last, rfl⟩
      · exact nofun
      · rw [List.concat_eq_append] at hs hlast ⊢
        obtain ⟨hrest, hne⟩ := areSegments_concat_iff.mp hs
        have hend : IsClosed last := (hlast last (by simp)).resolve_right (by simp)
        exact List.forall_mem_append.mpr ⟨hrest, List.forall_mem_singleton.mpr ⟨hne, hend⟩⟩
    rw [segments_items_append h (hpasses hclosed), List.map_id]
    exact List.append_nil texts
  · rw [List.filter_append, List.filter_cons_of_pos (by simpa using hu), List.filter_nil] at h
    obtain ⟨rest, ends, rfl, hrest, hends⟩ := List.map_eq_append_iff.mp h.symm
    obtain ⟨last, rfl, rfl⟩ := List.map_eq_singleton_iff.mp hends
    obtain ⟨hclosed, hne⟩ := areSegments_concat_iff.mp hs
    rw [segments_items_append hrest.symm (hpasses hclosed), List.map_id, segments_guarded hne]

/-- **Splitting undoes joining**, for elements whose separating commas are guarded and that are not empty, and closed but
for the last one. Further commas may stand where no element is behind them that is not closed. And a list of segments is
of this kind, so that it can be joined and taken apart again. -/
theorem segments_join_guarded :
    (∀ texts, AreSegments texts → segments (joinWith "," (texts.map guarded)) = texts) ∧
    (∀ texts items, AreSegments texts → items.filter (!·.isEmpty) = texts.map guarded →
      (∀ t ∈ texts.getLast?, IsClosed t ∨ items.getLast? ≠ some []) → segments (joinWith "," items) = texts) ∧
    (∀ t, AreSegments (segments t)) ∧
    ∀ t, segments (joinWith "," ((segments t).map guarded)) = segments t := by
  have hitems : ∀ texts items, AreSegments texts → items.filter (!·.isEmpty) = texts.map guarded →
      (∀ t ∈ texts.getLast?, IsClosed t ∨ items.getLast? ≠ some []) → segments (joinWith "," items) = texts :=
    fun _ _ hs h hlast => segments_of_guarded_items h hs hlast
  have hplain : ∀ texts, AreSegments texts → segments (joinWith "," (texts.map guarded)) = texts := by
    intro texts hs
    have hne : ∀ t ∈ texts.map guarded, t ≠ [] := List.forall_mem_map.mpr fun t ht => guarded_ne_nil (hs.1 t ht)
    refine hitems texts _ hs (List.filter_eq_self.mpr fun t ht => by simpa using hne t ht) fun t _ => Or.inr fun he => ?_
    exact hne [] (List.mem_of_getLast? he) rfl
  exact ⟨hplain, hitems, areSegments_segments, fun t => hplain _ (areSegments_segments t)⟩

/-- Elements with commas, backslashes and parentheses of all kinds: the last one is not closed. -/
def tangled : List Text :=
  [",(a,b\\))\\(", "c\\,d)", "e(\\"]

theorem segments_join_guarded_tangled : AreSegments tangled ∧
    segments "\\,(a,b\\))\\(,c\\\\,d),e(\\" = tangled ∧ segments ",\\,(a,b\\))\\(,,c\\\\,d),,e(\\" = tangled := by
  have hs : AreSegments tangled := by decide
  obtain ⟨hplain, hitems, -⟩ := segments_join_guarded
  refine ⟨hs, hplain _ hs, ?_⟩
  exact hitems _ ["", "\\,(a,b\\))\\(", "", "c\\\\,d)", "", "e(\\"] hs (by decide) (by decide)

end FilterPlan.Text
