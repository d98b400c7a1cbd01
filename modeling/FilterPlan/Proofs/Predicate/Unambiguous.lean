import FilterPlan.Predicate.Basic
import FilterPlan.Proofs.Text.Name

/-!
# Predicates can be read back

The text of a predicate determines the predicate, and where it ends in a longer text (`render_append_inj`), if the names
in it are `Legible`. The one thing that the text does not show is the connective of a group with a single member;
`normalize` makes it the same everywhere. So `AND` between the bounds of a range and `AND` between the members of a
group are never taken for each other, nor is a group for a comparison with null.
-/

namespace FilterPlan

open Text (IsName Stops isNameChar)

/-! ## Columns -/

/-- The names in the column have characters of names only, and no joined entity has the alias of the root. -/
structure Column.Legible (root : Text) (c : Column) : Prop where
  via : ∀ a, c.via? = some a → IsName a ∧ a ≠ root
  name : IsName c.name

namespace Column

variable {root : Text} {c c' : Column} {r s : Text}

theorem Legible.isName_via (hroot : IsName root) (h : c.Legible root) : IsName (c.via?.getD root) := by
  cases hv : c.via? with
  | none => exact hroot
  | some a => exact (h.via a hv).1

theorem render_append (root : Text) (c : Column) (t : Text) :
    c.render root ++ t = c.via?.getD root ++ '.' :: (c.name ++ t) := by
  simp [render]

theorem render_append_inj (hroot : IsName root) (hc : c.Legible root) (hc' : c'.Legible root) (hr : Stops isNameChar r)
    (hs : Stops isNameChar s) (h : c.render root ++ r = c'.render root ++ s) : c = c' ∧ r = s := by
  rw [render_append, render_append] at h
  obtain ⟨hvia, h⟩ := (hc.isName_via hroot).append_inj (hc'.isName_via hroot)
    (Text.stops_cons rfl _) (Text.stops_cons rfl _) h
  obtain ⟨hname, hrest⟩ := hc.name.append_inj hc'.name hr hs (List.cons.inj h).2
  refine ⟨?_, hrest⟩
  obtain ⟨via?, name⟩ := c
  obtain ⟨via?', name'⟩ := c'
  obtain rfl : name = name' := hname
  -- The alias of the root is no other alias, so both columns are read through the root or neither is.
  cases via? with
  | none =>
    cases via?' with
    | none => rfl
    | some a => exact absurd hvia.symm (hc'.via a rfl).2
  | some a =>
    cases via?' with
    | none => exact absurd hvia (hc.via a rfl).2
    | some b => exact congrArg (Column.mk · name) (congrArg some hvia)

end Column

theorem Connective.name_append_inj {op op' : Connective} {r s : Text} (h : op.name ++ r = op'.name ++ s) :
    op = op' ∧ r = s := by
  cases op <;> cases op' <;> simp [name] at h ⊢ <;> assumption

/-- A separator of members is determined by its connective, if `t` is what stands behind the connective. -/
theorem Connective.separator_append_inj {op op' : Connective} {t r s : Text}
    (h : ' ' :: (op.name ++ t) ++ r = ' ' :: (op'.name ++ t) ++ s) : op.name ++ t = op'.name ++ t ∧ r = s := by
  simp only [List.cons_append, List.append_assoc, List.cons.injEq, true_and] at h
  obtain ⟨rfl, hrest⟩ := name_append_inj h
  exact ⟨rfl, List.append_cancel_left hrest⟩

namespace Predicate

/-! ## What the text does not show -/

mutual

/-- The predicate with `AND` as the connective of every group of a single member. -/
def normalize : Predicate → Predicate
  | group op children => group (if children.length = 1 then .and else op) (normalizeAll children)
  | p => p

/-- The predicates with `AND` as the connective of every group of a single member. -/
def normalizeAll : List Predicate → List Predicate
  | [] => []
  | p :: rest => p.normalize :: normalizeAll rest

end

@[simp] theorem normalizeAll_eq (ps : List Predicate) : normalizeAll ps = ps.map normalize := by
  induction ps with
  | nil => rfl
  | cons p rest ih => rw [normalizeAll, ih, List.map_cons]

theorem map_normalize_of_forall₂ {l l' : List Predicate}
    (h : List.Forall₂ (fun p q => p.normalize = q.normalize) l l') : l.map normalize = l'.map normalize :=
  List.forall₂_eq_eq_eq ▸ List.forall₂_map_left_iff.mpr (List.forall₂_map_right_iff.mpr h)

mutual

theorem render_normalize (root : Text) : ∀ p : Predicate, p.normalize.render root = p.render root
  | compare .. | oneOf .. | between .. | like .. | isNull .. | near .. => rfl
  | group op children => by
    have hall := map_render_normalizeAll root children
    rw [normalize, render_group, render_group, hall]
    split
    · next hone =>
      obtain ⟨c, rfl⟩ := List.length_eq_one_iff.mp hone
      simp only [List.map_cons, List.map_nil, Text.joinWith, List.intercalate_singleton]
    · rfl

theorem map_render_normalizeAll (root : Text) : ∀ ps : List Predicate,
    (normalizeAll ps).map (render root) = ps.map (render root)
  | [] => rfl
  | p :: rest => by
    rw [normalizeAll, List.map_cons, List.map_cons, render_normalize root p, map_render_normalizeAll root rest]

end

/-! ## Legible predicates -/

/-- All names in the predicate have characters of names only, and no group is empty. -/
inductive Legible (root : Text) : Predicate → Prop
  | compare {c : Column} (hc : c.Legible root) (op : Relation) {param : Text} (hp : IsName param) :
      Legible root (.compare c op param)
  | oneOf {c : Column} (hc : c.Legible root) (negated : Bool) {params : List Text} (hp : ∀ p ∈ params, IsName p) :
      Legible root (.oneOf c negated params)
  | between {c : Column} (hc : c.Legible root) (negated : Bool) {low high : Text} (hl : IsName low) (hh : IsName high) :
      Legible root (.between c negated low high)
  | like {c : Column} (hc : c.Legible root) (negated ignoreCase : Bool) {param : Text} (hp : IsName param) :
      Legible root (.like c negated ignoreCase param)
  | isNull {c : Column} (hc : c.Legible root) (negated : Bool) : Legible root (.isNull c negated)
  | near {c : Column} (hc : c.Legible root) (negated : Bool) {longitude latitude radius : Text}
      (hlon : IsName longitude) (hlat : IsName latitude) (hrad : IsName radius) :
      Legible root (.near c negated longitude latitude radius)
  | group (op : Connective) {children : List Predicate} (hne : children ≠ []) (h : ∀ p ∈ children, Legible root p) :
      Legible root (.group op children)

/-- The function that patterns are matched with. -/
def likeFunction : Text :=
  "unaccent"

/-- The function that distances are compared with. -/
def nearFunction : Text :=
  "ST_DWithin"

theorem likeFunction_ne_nil : likeFunction ≠ [] := by decide

theorem nearFunction_ne_nil : nearFunction ≠ [] := by decide

theorem likeFunction_ne_nearFunction : likeFunction ≠ nearFunction := by decide

/-- The first name of the text, which may be empty, and the character behind it. -/
def opening (root : Text) : Predicate → Text × Char
  | compare column _ _ | oneOf column _ _ | between column _ _ _ => (column.via?.getD root, '.')
  | like _ _ _ _ => (likeFunction, '(')
  | near _ _ _ _ _ => (nearFunction, '(')
  | isNull _ _ | group _ _ => ([], '(')

variable {root : Text} {p q : Predicate} {r s : Text}

theorem exists_render_eq_opening (root : Text) (p : Predicate) :
    ∃ t, p.render root = (p.opening root).1 ++ (p.opening root).2 :: t := by
  cases p with
  | compare => simp [render_compare, opening, Column.render_append]
  | oneOf => simp [render_oneOf, opening, Column.render_append]
  | between => simp [render_between, opening, Column.render_append]
  | like _ _ ignoreCase _ =>
    cases ignoreCase with
    | false =>
      simp only [render_like, opening, List.append_assoc]
      exact ⟨_, rfl⟩
    | true =>
      simp only [render_likeIgnoringCase, opening, List.append_assoc]
      exact ⟨_, rfl⟩
  | isNull => simp [render_isNull, opening]
  | near =>
    simp only [render_near, opening, List.append_assoc]
    exact ⟨_, rfl⟩
  | group => simp [render_group, opening]

theorem Legible.isName_opening (hroot : IsName root) (h : p.Legible root) : IsName (p.opening root).1 := by
  cases h with
  | compare hc | oneOf hc | between hc => exact hc.isName_via hroot
  | like => exact (by decide : IsName likeFunction)
  | near => exact (by decide : IsName nearFunction)
  | isNull | group => exact nofun

theorem stops_opening (root : Text) (p : Predicate) (t : Text) : Stops isNameChar ((p.opening root).2 :: t) := by
  cases p <;> exact Text.stops_cons rfl t

/-- A predicate begins with the name that its text begins with. -/
theorem opening_eq_of_append {name t : Text} {c : Char} (hroot : IsName root) (hname : IsName name)
    (hc : isNameChar c = false) (hq : q.Legible root) (h : name ++ c :: t = q.render root ++ s) :
    q.opening root = (name, c) := by
  obtain ⟨u, hu⟩ := exists_render_eq_opening root q
  rw [hu, List.append_assoc] at h
  obtain ⟨hsame, h⟩ := hname.append_inj (hq.isName_opening hroot) (Text.stops_cons hc _) (stops_opening root q _) h
  exact Prod.ext hsame.symm (List.cons.inj h).1.symm

/-- Predicates with texts that begin alike begin with the same name. -/
theorem opening_eq (hroot : IsName root) (hp : p.Legible root) (hq : q.Legible root)
    (h : p.render root ++ r = q.render root ++ s) : q.opening root = p.opening root := by
  obtain ⟨t, ht⟩ := exists_render_eq_opening root p
  rw [ht, List.append_assoc] at h
  exact opening_eq_of_append hroot (hp.isName_opening hroot) (stops_opening root p [] _ rfl) hq h

/-! ## Reading back -/

theorem placeholder_append_inj {a b : Text} (ha : IsName a) (hb : IsName b) (hr : Stops isNameChar r)
    (hs : Stops isNameChar s) (h : placeholder a ++ r = placeholder b ++ s) : a = b ∧ r = s :=
  ha.append_inj hb hr hs (List.cons.inj h).2

/-- A list of parameters ends with its parenthesis. -/
theorem placeholders_append_inj {as bs : List Text} (ha : ∀ a ∈ as, IsName a) (hb : ∀ b ∈ bs, IsName b)
    (h : Text.joinWith ", " (as.map placeholder) ++ ')' :: r = Text.joinWith ", " (bs.map placeholder) ++ ')' :: s) :
    as = bs ∧ r = s := by
  have hbegins : ∀ {as : List Text}, as ≠ [] → ∀ t, ∃ u, Text.joinWith ", " (as.map placeholder) ++ t = ':' :: u := by
    intro as hne t
    obtain ⟨a, rest, rfl⟩ := List.exists_cons_of_ne_nil hne
    cases rest <;> exact ⟨_, rfl⟩
  by_cases has : as = []
  · subst has
    by_cases hbs : bs = []
    · subst hbs
      exact ⟨rfl, (List.cons.inj h).2⟩
    · obtain ⟨u, hu⟩ := hbegins hbs (')' :: s)
      exact absurd (h.trans hu) (by simp [Text.joinWith])
  · by_cases hbs : bs = []
    · subst hbs
      obtain ⟨u, hu⟩ := hbegins has (')' :: r)
      exact absurd (h.symm.trans hu) (by simp [Text.joinWith])
    · obtain ⟨hall, -, hrest⟩ := Text.joinWith_append_inj (R := Eq) (c := ',') " " " " rfl
        (fun _ _ h => ⟨rfl, List.append_cancel_left h⟩) (Text.stops_cons rfl r) (Text.stops_cons rfl s) (by simp)
        (by simp) has hbs (fun a hma b hmb _ _ => placeholder_append_inj (ha a hma) (hb b hmb)) h
      exact ⟨List.forall₂_eq_eq_eq ▸ hall, (List.cons.inj hrest).2⟩

theorem symbol_append_inj {op op' : Relation} (h : op.symbol ++ ' ' :: r = op'.symbol ++ ' ' :: s) :
    op = op' ∧ r = s := by
  cases op <;> cases op' <;> simp [Relation.symbol] at h ⊢ <;> assumption

theorem keyword_append_inj {negated negated' : Bool} (word : Text) (hw : ∀ r s, word ++ r ≠ "NOT " ++ s)
    (h : keyword negated word ++ r = keyword negated' word ++ s) : negated = negated' ∧ r = s := by
  cases negated with
  | false =>
    cases negated' with
    | false => exact ⟨rfl, List.append_cancel_left h⟩
    | true =>
      rw [keyword, keyword, if_pos rfl, List.append_assoc] at h
      exact absurd h (hw r _)
  | true =>
    cases negated' with
    | false =>
      rw [keyword, keyword, if_pos rfl, List.append_assoc] at h
      exact absurd h.symm (hw s _)
    | true => exact ⟨rfl, List.append_cancel_left h⟩

/-- The predicate begins with the column, and with a blank and the text behind it. -/
inductive Continues (c : Column) : Predicate → Text → Prop
  | compare (op : Relation) (param : Text) :
      Continues c (.compare c op param) (op.symbol ++ ' ' :: placeholder param)
  | oneOf (negated : Bool) (params : List Text) : Continues c (.oneOf c negated params)
      (keyword negated "IN" ++ ' ' :: '(' :: (Text.joinWith ", " (params.map placeholder) ++ [')']))
  | between (negated : Bool) (low high : Text) : Continues c (.between c negated low high)
      (keyword negated "BETWEEN" ++ ' ' :: (placeholder low ++ (" AND " ++ placeholder high)))

section Constructors

variable (hroot : IsName root) {c : Column} (hc : c.Legible root) (hq : q.Legible root)
include hroot hc hq

/-- What begins with a column and a blank is one of the predicates that do. -/
theorem exists_continues {t : Text} (h : c.render root ++ ' ' :: t = q.render root ++ s) :
    ∃ u, Continues c q u ∧ t = u ++ s := by
  have ho := opening_eq_of_append hroot (hc.isName_via hroot) (c := '.') rfl hq (by rwa [Column.render_append] at h)
  have hb : Stops isNameChar (' ' :: t) := Text.stops_cons rfl t
  cases hq with
  | compare hc' op =>
    simp only [render_compare, List.append_assoc, String.reduceToList, List.cons_append, List.nil_append] at h
    obtain ⟨rfl, ht⟩ := Column.render_append_inj hroot hc hc' hb (Text.stops_cons rfl _) h
    exact ⟨_, .compare op _, by simpa using ht⟩
  | oneOf hc' negated =>
    simp only [render_oneOf, List.append_assoc, String.reduceToList, List.cons_append, List.nil_append] at h
    obtain ⟨rfl, ht⟩ := Column.render_append_inj hroot hc hc' hb (Text.stops_cons rfl _) h
    exact ⟨_, .oneOf negated _, by simpa using ht⟩
  | between hc' negated =>
    simp only [render_between, List.append_assoc, String.reduceToList, List.cons_append, List.nil_append] at h
    obtain ⟨rfl, ht⟩ := Column.render_append_inj hroot hc hc' hb (Text.stops_cons rfl _) h
    exact ⟨_, .between negated _ _, by simpa using ht⟩
  | like | isNull | near | group => simp [opening] at ho

theorem compare_append_inj {op : Relation} {param : Text} (hp : IsName param) (hr : Stops isNameChar r)
    (hs : Stops isNameChar s) (h : (compare c op param).render root ++ r = q.render root ++ s) :
    compare c op param = q ∧ r = s := by
  simp only [render_compare, List.append_assoc, String.reduceToList, List.cons_append, List.nil_append] at h
  obtain ⟨u, hu, ht⟩ := exists_continues hroot hc hq h
  cases hu with
  | compare op' param' =>
    obtain ⟨rfl, hrest⟩ := symbol_append_inj (by simpa using ht)
    cases hq with
    | compare _ _ hp' =>
      obtain ⟨rfl, rfl⟩ := placeholder_append_inj hp hp' hr hs hrest
      exact ⟨rfl, rfl⟩
  | oneOf negated | between negated => cases op <;> cases negated <;> simp [Relation.symbol, keyword] at ht

theorem oneOf_append_inj {negated : Bool} {params : List Text} (hp : ∀ p ∈ params, IsName p)
    (h : (oneOf c negated params).render root ++ r = q.render root ++ s) : oneOf c negated params = q ∧ r = s := by
  simp only [render_oneOf, List.append_assoc, String.reduceToList, List.cons_append, List.nil_append] at h
  obtain ⟨u, hu, ht⟩ := exists_continues hroot hc hq h
  cases hu with
  | compare op => cases op <;> cases negated <;> simp [Relation.symbol, keyword] at ht
  | oneOf negated' params' =>
    obtain ⟨rfl, hrest⟩ := keyword_append_inj "IN" (by simp) (by simpa using ht)
    cases hq with
    | oneOf _ _ hp' =>
      obtain ⟨rfl, rfl⟩ := placeholders_append_inj hp hp' (List.cons.inj (List.cons.inj hrest).2).2
      exact ⟨rfl, rfl⟩
  | between negated' => cases negated <;> cases negated' <;> simp [keyword] at ht

theorem between_append_inj {negated : Bool} {low high : Text} (hl : IsName low) (hh : IsName high)
    (hr : Stops isNameChar r) (hs : Stops isNameChar s)
    (h : (between c negated low high).render root ++ r = q.render root ++ s) :
    between c negated low high = q ∧ r = s := by
  simp only [render_between, List.append_assoc, String.reduceToList, List.cons_append, List.nil_append] at h
  obtain ⟨u, hu, ht⟩ := exists_continues hroot hc hq h
  cases hu with
  | compare op => cases op <;> cases negated <;> simp [Relation.symbol, keyword] at ht
  | oneOf negated' => cases negated <;> cases negated' <;> simp [keyword] at ht
  | between negated' low' high' =>
    obtain ⟨rfl, hrest⟩ := keyword_append_inj "BETWEEN" (by simp) (by simpa using ht)
    cases hq with
    | between _ _ hl' hh' =>
      obtain ⟨rfl, hhigh⟩ := placeholder_append_inj hl hl' (Text.stops_cons rfl _) (Text.stops_cons rfl _)
        (List.cons.inj hrest).2
      obtain ⟨rfl, rfl⟩ := placeholder_append_inj hh hh' hr hs (by simpa using hhigh)
      exact ⟨rfl, rfl⟩

omit hq in
/-- No column begins as a call within a pattern does. -/
theorem column_ne_lower {t u : Text} : c.render root ++ t ≠ "lower(" ++ u := by
  intro h
  rw [Column.render_append] at h
  have hdot := (hc.isName_via hroot).append_inj (b := "lower") (r := '.' :: _) (s := '(' :: u) (by decide)
    (Text.stops_cons rfl _) (Text.stops_cons rfl _) h
  exact absurd (List.cons.inj hdot.2).1 (by decide)

omit hq in
/-- A column, `LIKE` and a parameter are determined, whatever stands between them. -/
theorem likeOperands_append_inj {c' : Column} {negated negated' : Bool} {param param' t u v : Text}
    (hc' : c'.Legible root) (hp : IsName param) (hp' : IsName param')
    (h : c.render root ++ (')' :: t ++ (keyword negated "LIKE" ++ (u ++ (placeholder param ++ (')' :: v ++ r))))) =
      c'.render root ++ (')' :: t ++ (keyword negated' "LIKE" ++ (u ++ (placeholder param' ++ (')' :: v ++ s)))))) :
    c = c' ∧ negated = negated' ∧ param = param' ∧ r = s := by
  obtain ⟨hcolumn, h⟩ := Column.render_append_inj hroot hc hc' (Text.stops_cons rfl _) (Text.stops_cons rfl _) h
  obtain ⟨hnegated, h⟩ := keyword_append_inj "LIKE" (by simp) (List.append_cancel_left (List.cons.inj h).2)
  obtain ⟨hparam, h⟩ := placeholder_append_inj hp hp' (Text.stops_cons rfl _) (Text.stops_cons rfl _)
    (List.append_cancel_left h)
  exact ⟨hcolumn, hnegated, hparam, List.append_cancel_left (List.cons.inj h).2⟩

theorem like_append_inj {negated ignoreCase : Bool} {param : Text} (hp : IsName param)
    (h : (like c negated ignoreCase param).render root ++ r = q.render root ++ s) :
    like c negated ignoreCase param = q ∧ r = s := by
  have ho := opening_eq hroot (.like hc negated ignoreCase hp) hq h
  cases hq with
  | like hc' negated' ignoreCase' hp' =>
    cases ignoreCase with
    | false =>
      cases ignoreCase' with
      | false =>
        obtain ⟨rfl, rfl, rfl, rfl⟩ := likeOperands_append_inj (t := " ") (u := " unaccent(") (v := []) hroot hc hc'
          hp hp' (by simpa [render_like] using h)
        exact ⟨rfl, rfl⟩
      | true => exact absurd (by simpa [render_like, render_likeIgnoringCase] using h) (column_ne_lower hroot hc)
    | true =>
      cases ignoreCase' with
      | false =>
        exact absurd (by simpa [render_like, render_likeIgnoringCase] using h.symm) (column_ne_lower hroot hc')
      | true =>
        obtain ⟨rfl, rfl, rfl, rfl⟩ := likeOperands_append_inj (t := ") ") (u := " unaccent(lower(") (v := ")") hroot
          hc hc' hp hp' (by simpa [render_likeIgnoringCase] using h)
        exact ⟨rfl, rfl⟩
  | compare | oneOf | between => simp [opening] at ho
  | isNull | group => simp [opening, likeFunction_ne_nil.symm] at ho
  | near => simp [opening, likeFunction_ne_nearFunction.symm] at ho

theorem near_append_inj {negated : Bool} {longitude latitude radius : Text} (hlon : IsName longitude)
    (hlat : IsName latitude) (hrad : IsName radius)
    (h : (near c negated longitude latitude radius).render root ++ r = q.render root ++ s) :
    near c negated longitude latitude radius = q ∧ r = s := by
  have ho := opening_eq hroot (.near hc negated hlon hlat hrad) hq h
  cases hq with
  | near hc' negated' hlon' hlat' hrad' =>
    simp only [render_near, List.append_assoc, String.reduceToList, List.cons_append, List.nil_append,
      List.cons.injEq, true_and] at h
    obtain ⟨hcolumn, h⟩ := Column.render_append_inj hroot hc hc' (Text.stops_cons rfl _) (Text.stops_cons rfl _) h
    simp only [List.cons.injEq, true_and] at h
    obtain ⟨hlongitude, h⟩ := placeholder_append_inj hlon hlon' (Text.stops_cons rfl _) (Text.stops_cons rfl _) h
    obtain ⟨hlatitude, h⟩ := placeholder_append_inj hlat hlat' (Text.stops_cons rfl _) (Text.stops_cons rfl _)
      (List.cons.inj h).2
    simp only [List.cons.injEq, true_and] at h
    obtain ⟨hradius, h⟩ := placeholder_append_inj hrad hrad' (Text.stops_cons rfl _) (Text.stops_cons rfl _) h
    simp only [List.cons.injEq, true_and] at h
    obtain ⟨hop, h⟩ := symbol_append_inj h
    obtain rfl : negated = negated' := by cases negated <;> cases negated' <;> simp at hop ⊢
    obtain rfl : r = s := by simpa using h
    subst hcolumn hlongitude hlatitude hradius
    exact ⟨rfl, rfl⟩
  | compare | oneOf | between => simp [opening] at ho
  | isNull | group => simp [opening, nearFunction_ne_nil.symm] at ho
  | like => simp [opening, likeFunction_ne_nearFunction] at ho

omit hq in
/-- What is in parentheses is a comparison with null or the members of a group, and not both. -/
theorem isNull_ne_group {negated : Bool} {op : Connective} {children : List Predicate} (hne : children ≠ [])
    (hq : ∀ p ∈ children, p.Legible root) :
    (isNull c negated).render root ++ r ≠ (group op children).render root ++ s := by
  obtain ⟨first, rest, rfl⟩ := List.exists_cons_of_ne_nil hne
  obtain ⟨t, ht⟩ : ∃ t, (group op (first :: rest)).render root ++ s = '(' :: (first.render root ++ t) := by
    cases rest <;> simp [render_group, Text.joinWith, List.intercalate_cons_cons]
  rw [ht, render_isNull]
  simp only [List.append_assoc, String.reduceToList, List.cons_append, List.nil_append, ne_eq, List.cons.injEq,
    true_and]
  intro h
  obtain ⟨u, hu, hrest⟩ := exists_continues hroot hc (hq first List.mem_cons_self) h
  cases hu with
  | compare op => cases op <;> simp [Relation.symbol] at hrest
  | oneOf negated | between negated => cases negated <;> simp [keyword] at hrest

theorem isNull_append_inj {negated : Bool} (h : (isNull c negated).render root ++ r = q.render root ++ s) :
    isNull c negated = q ∧ r = s := by
  have ho := opening_eq hroot (.isNull hc negated) hq h
  cases hq with
  | isNull hc' negated' =>
    simp only [render_isNull, List.append_assoc, String.reduceToList, List.cons_append, List.nil_append,
      List.cons.injEq, true_and] at h
    obtain ⟨hcolumn, h⟩ := Column.render_append_inj hroot hc hc' (Text.stops_cons rfl _) (Text.stops_cons rfl _) h
    simp only [List.cons.injEq, true_and] at h
    obtain ⟨hnegated, hrest⟩ := keyword_append_inj "NULL" (by simp) (by simpa using h)
    subst hcolumn hnegated
    exact ⟨rfl, (List.cons.inj hrest).2⟩
  | group op hne hall => exact absurd h (isNull_ne_group hroot hc hne hall)
  | compare | oneOf | between => simp [opening] at ho
  | like => simp [opening, likeFunction_ne_nil] at ho
  | near => simp [opening, nearFunction_ne_nil] at ho

end Constructors

/-- What members of a group share with the members of another group, if the texts are the same. -/
theorem normalize_group {op op' : Connective} {children children' : List Predicate}
    (hall : List.Forall₂ (fun p q => p.normalize = q.normalize) children children')
    (hop : 1 < children.length → op = op') (hne : children ≠ []) :
    (group op children).normalize = (group op' children').normalize := by
  rw [normalize, normalize, normalizeAll_eq, normalizeAll_eq, map_normalize_of_forall₂ hall, ← hall.length_eq]
  split
  · rfl
  · next hmany => rw [hop (lt_of_le_of_ne (List.length_pos_of_ne_nil hne) (Ne.symm hmany))]

/-- **A predicate is determined by its text**, up to the connectives of groups with a single member, and so is the place
where it ends. -/
theorem render_append_inj (hroot : IsName root) (hp : p.Legible root) (hq : q.Legible root) (hr : Stops isNameChar r)
    (hs : Stops isNameChar s) (h : p.render root ++ r = q.render root ++ s) : p.normalize = q.normalize ∧ r = s := by
  induction hp generalizing q r s with
  | compare hc op hp =>
    obtain ⟨rfl, hrest⟩ := compare_append_inj hroot hc hq hp hr hs h
    exact ⟨rfl, hrest⟩
  | oneOf hc negated hp =>
    obtain ⟨rfl, hrest⟩ := oneOf_append_inj hroot hc hq hp h
    exact ⟨rfl, hrest⟩
  | between hc negated hl hh =>
    obtain ⟨rfl, hrest⟩ := between_append_inj hroot hc hq hl hh hr hs h
    exact ⟨rfl, hrest⟩
  | like hc negated ignoreCase hp =>
    obtain ⟨rfl, hrest⟩ := like_append_inj hroot hc hq hp h
    exact ⟨rfl, hrest⟩
  | isNull hc negated =>
    obtain ⟨rfl, hrest⟩ := isNull_append_inj hroot hc hq h
    exact ⟨rfl, hrest⟩
  | near hc negated hlon hlat hrad =>
    obtain ⟨rfl, hrest⟩ := near_append_inj hroot hc hq hlon hlat hrad h
    exact ⟨rfl, hrest⟩
  | group op hne hall ih =>
    have ho := opening_eq hroot (.group op hne hall) hq h
    cases hq with
    | group op' hne' hall' =>
      simp only [render_group, List.append_assoc, String.reduceToList, List.cons_append, List.nil_append,
        List.cons.injEq, true_and] at h
      obtain ⟨hsame, hop, hend⟩ := Text.joinWith_append_inj (R := fun p q => p.normalize = q.normalize) _ _ rfl
        (fun _ _ h => Connective.separator_append_inj h) (Text.stops_cons rfl r) (Text.stops_cons rfl s) (by simp)
        (by simp) hne hne' (fun p hp q hq _ _ hr hs => ih p hp (hall' q hq) hr hs) h
      refine ⟨normalize_group hsame (fun hmany => ?_) hne, (List.cons.inj hend).2⟩
      exact (Connective.name_append_inj (hop hmany)).1
    | isNull hc negated => exact absurd h.symm (isNull_ne_group hroot hc hne hall)
    | compare | oneOf | between => simp [opening] at ho
    | like => simp [opening, likeFunction_ne_nil] at ho
    | near => simp [opening, nearFunction_ne_nil] at ho

end Predicate

end FilterPlan
