import FilterPlan.Proofs.Text.Nesting

/-!
# Byte positions

A text has a part between two byte positions if both stand between characters or at the ends, and in this order
(`slice?_eq_some_iff`). The position that `Text.closing?` finds is that of the parenthesis behind what `Text.enclosed?`
gives (`closing?_append`).
-/

namespace FilterPlan.Text

/-- Cuts the text at a byte position; there is nothing to cut inside a character or beyond the end. -/
def cutBytes? : Nat → Text → Option (Text × Text)
  | 0, t => some ([], t)
  | _ + 1, [] => none
  | n + 1, c :: t =>
    if n + 1 < c.utf8Size then none else (cutBytes? (n + 1 - c.utf8Size) t).map fun (a, b) => (c :: a, b)

/-- The text between two byte positions. -/
def slice? (t : Text) (start stop : Nat) : Option Text :=
  (cutBytes? stop t).bind fun cut => (cutBytes? start cut.1).map Prod.snd

theorem cutBytes?_append (a b : Text) : cutBytes? a.byteSize (a ++ b) = some (a, b) := by
  induction a with
  | nil => rw [byteSize_nil, List.nil_append, cutBytes?]
  | cons c a ih =>
    obtain ⟨n, hn⟩ := Nat.exists_eq_succ_of_ne_zero (Nat.pos_iff_ne_zero.mp (Char.utf8Size_pos c))
    have hsize : byteSize (c :: a) = n + byteSize a + 1 := by
      rw [byteSize_cons, hn]
      omega
    have hrest : n + byteSize a + 1 - c.utf8Size = byteSize a := by
      rw [hn]
      omega
    rw [hsize, List.cons_append, cutBytes?, if_neg (by rw [hn]; omega), hrest, ih]
    rfl

theorem cutBytes?_eq_some_iff {n : Nat} {t a b : Text} : cutBytes? n t = some (a, b) ↔ t = a ++ b ∧ a.byteSize = n := by
  constructor
  · intro h
    induction t generalizing n a with
    | nil =>
      cases n with
      | zero =>
        cases h
        exact ⟨rfl, rfl⟩
      | succ n => cases h
    | cons c t ih =>
      cases n with
      | zero =>
        cases h
        exact ⟨rfl, rfl⟩
      | succ n =>
        rw [cutBytes?] at h
        obtain ⟨hc, h⟩ := Option.ite_none_left_eq_some.mp h
        obtain ⟨⟨a', b'⟩, hcut, he⟩ := Option.map_eq_some_iff.mp h
        cases he
        obtain ⟨rfl, hsize⟩ := ih hcut
        refine ⟨rfl, ?_⟩
        rw [byteSize_cons]
        omega
  · rintro ⟨rfl, rfl⟩
    exact cutBytes?_append a b

/-- Which texts stand between two byte positions. -/
theorem slice?_eq_some_iff {t s : Text} {start stop : Nat} :
    slice? t start stop = some s ↔ ∃ a b, t = a ++ (s ++ b) ∧ a.byteSize = start ∧ (a ++ s).byteSize = stop := by
  constructor
  · intro h
    obtain ⟨⟨front, b⟩, hstop, h⟩ := Option.bind_eq_some_iff.mp h
    obtain ⟨⟨a, s'⟩, hstart, rfl⟩ := Option.map_eq_some_iff.mp h
    obtain ⟨rfl, hsize⟩ := cutBytes?_eq_some_iff.mp hstop
    obtain ⟨hfront, hlead⟩ := cutBytes?_eq_some_iff.mp hstart
    refine ⟨a, b, ?_, hlead, hfront ▸ hsize⟩
    rw [← List.append_assoc, ← hfront]
  · rintro ⟨a, b, rfl, rfl, rfl⟩
    rw [slice?, ← List.append_assoc, cutBytes?_append, Option.bind_some]
    show (cutBytes? a.byteSize (a ++ s)).map Prod.snd = some s
    rw [cutBytes?_append, Option.map_some]

/-! ## The position of a closing parenthesis -/

theorem enclosedFrom?_eq_some_iff {d : Nat} {p t b r : Text} : enclosedFrom? (d + 1) p t = some (b, r) ↔
    ∃ w, b = p.reverse ++ w ∧ t = w ++ ')' :: r ∧ Nests d w 0 := by
  constructor
  · exact nests_of_enclosedFrom?
  · rintro ⟨w, rfl, rfl, hw⟩
    have hscan := enclosedFrom?_append hw 0 p (')' :: r)
    rw [hscan, enclosedFrom?, List.reverse_append, List.reverse_reverse]

/-- What the scan has passed at its start is only put in front of what it finds. -/
theorem enclosedFrom?_passed (d : Nat) (p t : Text) :
    enclosedFrom? (d + 1) p t = (enclosedFrom? (d + 1) [] t).map fun (b, r) => (p.reverse ++ b, r) := by
  ext ⟨b, r⟩
  rw [enclosedFrom?_eq_some_iff, Option.map_eq_some_iff]
  constructor
  · rintro ⟨w, rfl, rfl, hw⟩
    exact ⟨(w, r), enclosedFrom?_eq_some_iff.mpr ⟨w, rfl, rfl, hw⟩, rfl⟩
  · rintro ⟨⟨w, r'⟩, h, he⟩
    cases he
    obtain ⟨w', rfl, rfl, hw⟩ := enclosedFrom?_eq_some_iff.mp h
    exact ⟨_, rfl, rfl, hw⟩

/-- The closing parenthesis stands behind the opening one and what they enclose. -/
theorem closing?_append (lead rest : Text) :
    closing? (lead ++ '(' :: rest) lead.byteSize =
      (enclosed? rest).map fun (inner, _) => lead.byteSize + 1 + inner.byteSize := by
  rw [closing?, dropBytes_byteSize, enclosed?]
  have hopen : enclosedFrom? 0 [] ('(' :: rest) = enclosedFrom? 1 ['('] rest := rfl
  rw [hopen, enclosedFrom?_passed, Option.map_map]
  refine congrArg (Option.map · _) (funext fun (inner, _) => ?_)
  show lead.byteSize + byteSize ('(' :: inner) = lead.byteSize + 1 + inner.byteSize
  rw [byteSize_cons, ← Nat.add_assoc]
  rfl

end FilterPlan.Text
