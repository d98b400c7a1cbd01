import FilterPlan.Proofs.Outcome
import FilterPlan.Proofs.Text.Slices

/-!
# The parenthesis that closes another

A parenthesis is closed by the first one behind it up to which as many are closed as are opened, where a backslash and
the character behind it count for nothing (`ClosesFirst`). The scan from an opening parenthesis finds exactly this one
(`closing?_eq_some_iff`). It never closes more than is open, so it finds nothing only where the text ends before
(`closeFrom_ne_excess`).

Positions are those of bytes. Every byte of a character that needs more than one is above 127, so that a byte which is
an opening parenthesis stands between two characters (`exists_append_of_byte`).
-/

namespace FilterPlan.Text

/-! ## Bytes -/

/-- The text in UTF-8. -/
def bytes (t : Text) : List UInt8 :=
  t.flatMap String.utf8EncodeChar

theorem le_toNat_of_mem_utf8EncodeChar {c : Char} (hc : 128 ≤ c.toNat) {b : UInt8}
    (hb : b ∈ String.utf8EncodeChar c) : 128 ≤ b.toNat := by
  have hc' : ¬ c.val.toNat ≤ 127 := Nat.not_le.mpr hc
  unfold String.utf8EncodeChar at hb
  simp only [if_neg hc'] at hb
  have hle : ∀ {n : Nat}, 128 ≤ n → n < 256 → 128 ≤ (UInt8.ofNat n).toNat := by
    intro n hn hlt
    rw [UInt8.toNat_ofNat', Nat.mod_eq_of_lt hlt]
    exact hn
  split at hb
  · simp only [List.mem_cons, List.not_mem_nil, or_false] at hb
    rcases hb with rfl | rfl
    all_goals exact hle (by omega) (by omega)
  · split at hb
    · simp only [List.mem_cons, List.not_mem_nil, or_false] at hb
      rcases hb with rfl | rfl | rfl
      all_goals exact hle (by omega) (by omega)
    · simp only [List.mem_cons, List.not_mem_nil, or_false] at hb
      rcases hb with rfl | rfl | rfl | rfl
      all_goals exact hle (by omega) (by omega)

theorem utf8EncodeChar_of_lt {c : Char} (hc : c.toNat < 128) : String.utf8EncodeChar c = [c.toUInt8] := by
  apply String.utf8EncodeChar_eq_singleton
  rw [Char.utf8Size_eq_one_iff, UInt32.le_iff_toNat_le]
  exact Nat.le_of_lt_succ hc

theorem toUInt8_inj {c d : Char} (hc : c.toNat < 128) (hd : d.toNat < 128) (h : c.toUInt8 = d.toUInt8) : c = d := by
  have hnat : c.toNat % 256 = d.toNat % 256 := congrArg UInt8.toNat h
  apply Char.toNat_inj.mp
  omega

/-- Where the byte of an ASCII character is, this character stands. -/
theorem exists_append_of_byte {c : Char} (hc : c.toNat < 128) {t : Text} {n : Nat}
    (h : t.bytes[n]? = some c.toUInt8) : ∃ lead rest, t = lead ++ c :: rest ∧ lead.byteSize = n := by
  induction t generalizing n with
  | nil => simp [bytes] at h
  | cons d t ih =>
    have hbytes : bytes (d :: t) = String.utf8EncodeChar d ++ bytes t := List.flatMap_cons
    rw [hbytes, List.getElem?_append] at h
    split at h
    · next hn =>
      have hmem : c.toUInt8 ∈ String.utf8EncodeChar d := List.mem_of_getElem? h
      have hbyte : c.toUInt8.toNat < 128 := by
        have hmod : c.toUInt8.toNat = c.toNat % 256 := rfl
        omega
      have hd : d.toNat < 128 := by
        apply Nat.lt_of_not_le
        intro hd
        have := le_toNat_of_mem_utf8EncodeChar hd hmem
        omega
      rw [utf8EncodeChar_of_lt hd] at hmem hn
      obtain rfl := toUInt8_inj hc hd (List.mem_singleton.mp hmem)
      refine ⟨[], t, rfl, ?_⟩
      rw [List.length_singleton] at hn
      rw [byteSize_nil]
      omega
    · next hn =>
      rw [String.length_utf8EncodeChar] at h hn
      obtain ⟨lead, rest, rfl, hlead⟩ := ih h
      refine ⟨d :: lead, rest, rfl, ?_⟩
      rw [byteSize_cons]
      omega

/-! ## What counts -/

/-- The characters that count, with their positions from the given one on: all but a backslash and the one behind it. -/
def active (position : Nat) : Text → List (Nat × Char)
  | [] => []
  | ['\\'] => []
  | '\\' :: c :: t => active (position + '\\'.utf8Size + c.utf8Size) t
  | c :: t => (position, c) :: active (position + c.utf8Size) t

theorem active_cons {c : Char} (hc : c ≠ '\\') (position : Nat) (t : Text) :
    active position (c :: t) = (position, c) :: active (position + c.utf8Size) t := by
  rw [active]
  · exact fun h => absurd h hc
  · exact fun _ _ h => absurd h hc

/-- Induction along a scan in which a backslash is passed together with the character behind it. -/
theorem escapeInduction {P : Text → Prop} (nil : P []) (lone : P ['\\'])
    (escaped : ∀ c t, P t → P ('\\' :: c :: t)) (plain : ∀ c t, c ≠ '\\' → P t → P (c :: t)) : ∀ t, P t
  | [] => nil
  | c :: t => by
    have ih : ∀ s : Text, s.length < (c :: t).length → P s := fun s hs => escapeInduction nil lone escaped plain s
    by_cases hc : c = '\\'
    · subst hc
      cases t with
      | nil => exact lone
      | cons c t => exact escaped c t (ih t (Nat.lt_add_of_pos_right Nat.two_pos))
    · exact plain c t hc (ih t (Nat.lt_succ_self _))
  termination_by t => t.length
  decreasing_by exact hs

theorem le_of_mem_active {t : Text} {position : Nat} {m : Nat × Char} (h : m ∈ active position t) :
    position ≤ m.1 := by
  induction t using escapeInduction generalizing position with
  | nil => cases h
  | lone => cases h
  | escaped c t ih =>
    have := ih h
    omega
  | plain c t hc ih =>
    rw [active_cons hc, List.mem_cons] at h
    rcases h with rfl | h
    · exact Nat.le_refl _
    · have := ih h
      omega

theorem lt_of_mem_active {t : Text} {c : Char} {position : Nat} {m : Nat × Char}
    (h : m ∈ active (position + c.utf8Size) t) : position < m.1 := by
  have hle := le_of_mem_active h
  have hsize := Char.utf8Size_pos c
  omega

/-- How often the character stands up to the given position, this one included. -/
def countUpTo (c : Char) (stop : Nat) (marks : List (Nat × Char)) : Nat :=
  marks.countP fun m => m.1 ≤ stop && m.2 == c

/-- A parenthesis is closed at the position, and up to it as many are closed as are opened and were open before. -/
def Balances (depth : Nat) (marks : List (Nat × Char)) (i : Nat) : Prop :=
  (i, ')') ∈ marks ∧ countUpTo ')' i marks = countUpTo '(' i marks + depth

/-- The position is the first one at which the parentheses are balanced. -/
def ClosesFirst (depth : Nat) (marks : List (Nat × Char)) (i : Nat) : Prop :=
  Balances depth marks i ∧ ∀ j < i, ¬ Balances depth marks j

section Balances

variable {depth position i : Nat} {marks : List (Nat × Char)}

theorem countUpTo_cons_self (c : Char) {stop : Nat} (h : position ≤ stop) :
    countUpTo c stop ((position, c) :: marks) = countUpTo c stop marks + 1 := by
  simp [countUpTo, h]

theorem countUpTo_cons_of_ne {c d : Char} (h : d ≠ c) (stop : Nat) :
    countUpTo c stop ((position, d) :: marks) = countUpTo c stop marks := by
  simp [countUpTo, h]

theorem countUpTo_eq_zero (c : Char) {stop : Nat} (h : ∀ m ∈ marks, stop < m.1) : countUpTo c stop marks = 0 := by
  apply List.countP_eq_zero.mpr
  intro m hm
  have := h m hm
  simp only [Bool.and_eq_true, decide_eq_true_eq]
  omega

theorem balances_plain {c : Char} (hopen : c ≠ '(') (hclose : c ≠ ')') :
    Balances depth ((position, c) :: marks) i ↔ Balances depth marks i := by
  simp [Balances, countUpTo_cons_of_ne hopen, countUpTo_cons_of_ne hclose, Ne.symm hclose]

/-- An opening parenthesis counts like one that was open before. -/
theorem balances_opening (h : ∀ m ∈ marks, position < m.1) :
    Balances depth ((position, '(') :: marks) i ↔ Balances (depth + 1) marks i := by
  have hmem : (i, ')') ∈ (position, '(') :: marks ↔ (i, ')') ∈ marks := by simp
  rw [Balances, hmem, Balances, countUpTo_cons_of_ne (by decide)]
  refine and_congr_right fun hi => ?_
  have hlt : position < i := h _ hi
  rw [countUpTo_cons_self '(' (Nat.le_of_lt hlt)]
  omega

/-- A closing parenthesis balances the text up to it if it closes the last one that was open. Otherwise it takes one of
these away. -/
theorem balances_closing (h : ∀ m ∈ marks, position < m.1) :
    Balances (depth + 1) ((position, ')') :: marks) i ↔ i = position ∧ depth = 0 ∨ Balances depth marks i := by
  have hmem : (i, ')') ∈ (position, ')') :: marks ↔ i = position ∨ (i, ')') ∈ marks := by simp
  rw [Balances, hmem, Balances, countUpTo_cons_of_ne (c := '(') (by decide), or_and_right]
  refine or_congr (and_congr_right ?_) (and_congr_right fun hi => ?_)
  · rintro rfl
    rw [countUpTo_cons_self ')' (Nat.le_refl i), countUpTo_eq_zero _ h, countUpTo_eq_zero _ h]
    omega
  · have hlt : position < i := h _ hi
    rw [countUpTo_cons_self ')' (Nat.le_of_lt hlt)]
    omega

theorem closesFirst_last (h : ∀ m ∈ marks, position < m.1) :
    ClosesFirst 1 ((position, ')') :: marks) i ↔ i = position := by
  simp only [ClosesFirst, balances_closing h, and_true, not_or]
  constructor
  · rintro ⟨hi | hi, hfirst⟩
    · exact hi
    · exact absurd rfl (hfirst position (h _ hi.1)).1
  · rintro rfl
    refine ⟨Or.inl rfl, fun j hj => ⟨Nat.ne_of_lt hj, fun hbalances => ?_⟩⟩
    have hlt : i < j := h _ hbalances.1
    omega

theorem closesFirst_congr {depth' : Nat} {marks' : List (Nat × Char)}
    (h : ∀ j, Balances depth marks j ↔ Balances depth' marks' j) :
    ClosesFirst depth marks i ↔ ClosesFirst depth' marks' i := by
  simp only [ClosesFirst, h]

end Balances

/-! ## The scan -/

/-- Why a parenthesis is not closed. -/
inductive Unclosed where
  /-- The text ends before. -/
  | ended
  /-- More parentheses are closed than are open. -/
  | excess
deriving DecidableEq, Repr

/-- The scan behind `closing?`, with the position that it has come to in place of the text that it has passed, and with
the reason where it finds nothing. -/
def closeFrom (depth position : Nat) : Text → Except Unclosed Nat
  | [] => .error .ended
  | ['\\'] => .error .ended
  | '\\' :: c :: t => closeFrom depth (position + '\\'.utf8Size + c.utf8Size) t
  | '(' :: t => closeFrom (depth + 1) (position + '('.utf8Size) t
  | ')' :: t =>
    match depth with
    | 0 => .error .excess
    | 1 => .ok position
    | depth + 2 => closeFrom (depth + 1) (position + ')'.utf8Size) t
  | c :: t => closeFrom depth (position + c.utf8Size) t

theorem closeFrom_plain {c : Char} (h₁ : c ≠ '\\') (h₂ : c ≠ '(') (h₃ : c ≠ ')') (depth position : Nat) (t : Text) :
    closeFrom depth position (c :: t) = closeFrom depth (position + c.utf8Size) t := by
  rw [closeFrom]
  · exact fun h => absurd h h₁
  · exact fun _ _ h => absurd h h₁
  · exact h₂
  · exact h₃

theorem byteSize_reverse (t : Text) : byteSize t.reverse = byteSize t := by
  induction t with
  | nil => rfl
  | cons c t ih =>
    rw [List.reverse_cons, byteSize_append, ih, byteSize_cons, byteSize_cons, byteSize_nil]
    omega

/-- The scan is at the position behind what it has passed. -/
theorem toOption_closeFrom (start : Nat) (t : Text) : ∀ depth passed,
    (closeFrom depth (start + byteSize passed) t).toOption =
      (enclosedFrom? depth passed t).map fun (before, _) => start + before.byteSize := by
  induction t using escapeInduction with
  | nil => exact fun _ _ => rfl
  | lone => exact fun _ _ => rfl
  | escaped c t ih =>
    intro depth passed
    have hsize : start + byteSize (c :: '\\' :: passed) = start + byteSize passed + '\\'.utf8Size + c.utf8Size := by
      simp only [byteSize_cons]
      omega
    rw [closeFrom, enclosedFrom?, ← hsize]
    exact ih depth _
  | plain c t hc ih =>
    intro depth passed
    have hsize : start + byteSize (c :: passed) = start + byteSize passed + c.utf8Size := by
      rw [byteSize_cons]
      omega
    by_cases hopen : c = '('
    · subst hopen
      rw [closeFrom, enclosedFrom?, ← hsize]
      exact ih (depth + 1) _
    by_cases hclose : c = ')'
    · subst hclose
      rcases depth with _ | _ | depth
      · rfl
      · show some (start + byteSize passed) = some (start + byteSize passed.reverse)
        rw [byteSize_reverse]
      · rw [closeFrom, enclosedFrom?, ← hsize]
        exact ih (depth + 1) _
    rw [closeFrom_plain hc hopen hclose, enclosedFrom?_plain hc hopen hclose, ← hsize]
    exact ih depth _

/-- What is found, with the reason for nothing left out. -/
theorem closing?_eq_toOption (t : Text) (start : Nat) :
    t.closing? start = (closeFrom 0 start (t.dropBytes start)).toOption :=
  (toOption_closeFrom start (t.dropBytes start) 0 []).symm

/-- **The scan finds the first parenthesis that balances the text.** Going over a character changes what it looks for in
the rest just as the character does. -/
theorem closeFrom_eq_ok_iff {t : Text} {depth position i : Nat} :
    closeFrom (depth + 1) position t = .ok i ↔ ClosesFirst (depth + 1) (active position t) i := by
  induction t using escapeInduction generalizing depth position with
  | nil => simp [closeFrom, ClosesFirst, Balances, active]
  | lone => simp [closeFrom, ClosesFirst, Balances, active]
  | escaped c t ih =>
    rw [closeFrom, active]
    exact ih
  | plain c t hc ih =>
    have hlt : ∀ m ∈ active (position + c.utf8Size) t, position < m.1 := fun m hm => lt_of_mem_active hm
    rw [active_cons hc]
    by_cases hopen : c = '('
    · subst hopen
      rw [closeFrom, ih]
      exact (closesFirst_congr fun j => balances_opening hlt).symm
    by_cases hclose : c = ')'
    · subst hclose
      cases depth with
      | zero =>
        rw [closeFrom, Except.ok.injEq, closesFirst_last hlt]
        exact eq_comm
      | succ depth =>
        rw [closeFrom, ih]
        refine (closesFirst_congr fun j => ?_).symm
        rw [balances_closing hlt]
        simp
    rw [closeFrom_plain hc hopen hclose, ih]
    exact (closesFirst_congr fun j => balances_plain hopen hclose).symm

/-- What is found from an opening parenthesis on. -/
theorem closing?_eq_some_iff {lead rest : Text} {i : Nat} : closing? (lead ++ '(' :: rest) lead.byteSize = some i ↔
    ClosesFirst 0 (active lead.byteSize ('(' :: rest)) i := by
  rw [closing?_eq_toOption, dropBytes_byteSize, Outcome.toOption_eq_some_iff, closeFrom, closeFrom_eq_ok_iff,
    active_cons (by decide)]
  exact (closesFirst_congr fun j => balances_opening fun m hm => lt_of_mem_active hm).symm

/-- The parenthesis that is found stands behind the one that it closes. -/
theorem exists_append_of_closing? {lead rest : Text} {i : Nat}
    (h : closing? (lead ++ '(' :: rest) lead.byteSize = some i) :
    ∃ inner behind, rest = inner ++ ')' :: behind ∧ byteSize (lead ++ '(' :: inner) = i := by
  rw [closing?_append] at h
  obtain ⟨⟨inner, behind⟩, he, rfl⟩ := Option.map_eq_some_iff.mp h
  refine ⟨inner, behind, (enclosed?_eq_some_iff.mp he).1, ?_⟩
  rw [byteSize_append, byteSize_cons, ← Nat.add_assoc]
  rfl

/-- What is found stays the same when the text goes on. -/
theorem closing?_append_right {lead rest : Text} {i : Nat}
    (h : closing? (lead ++ '(' :: rest) lead.byteSize = some i) (u : Text) :
    closing? (lead ++ '(' :: rest ++ u) lead.byteSize = some i := by
  rw [closing?_append] at h
  obtain ⟨⟨inner, behind⟩, he, hi⟩ := Option.map_eq_some_iff.mp h
  rw [List.append_assoc, List.cons_append, closing?_append, enclosed?_append he u]
  exact congrArg some hi

/-- From an opening parenthesis on, never more are closed than are open. -/
theorem closeFrom_ne_excess (t : Text) : ∀ depth position, closeFrom (depth + 1) position t ≠ .error .excess := by
  induction t using escapeInduction with
  | nil => exact fun _ _ => nofun
  | lone => exact fun _ _ => nofun
  | escaped c t ih => exact fun depth position => ih depth _
  | plain c t hc ih =>
    intro depth position
    by_cases hopen : c = '('
    · subst hopen
      exact ih (depth + 1) _
    by_cases hclose : c = ')'
    · subst hclose
      cases depth with
      | zero => nofun
      | succ depth => exact ih depth _
    rw [closeFrom_plain hc hopen hclose]
    exact ih depth _

end FilterPlan.Text
