import Mathlib.Data.List.Forall2

/-!
# Outcomes

Lemmas about computations that may end in an error: what a success of a sequence, of a traversal and of a fold says
about their parts (`bind_eq_ok_iff`, `mapM_eq_ok_iff`, `foldlM_run`), with which error they fail (`error?_mapM`,
`mapM_eq_error_iff`, `error?_foldlM`, `foldlM_eq_error_iff`), and how two runs stay alike (`Alike`).
-/

namespace FilterPlan.Outcome

variable {ε α β γ δ : Type}

/-! ## Lists in step -/

theorem exists_of_mem_right {R : α → β → Prop} {l : List α} {l' : List β} {b : β} (h : List.Forall₂ R l l')
    (hb : b ∈ l') : ∃ a ∈ l, R a b := by
  induction h with
  | nil => cases hb
  | cons hr _ ih =>
    rcases List.mem_cons.mp hb with rfl | hb
    · exact ⟨_, List.mem_cons_self, hr⟩
    · obtain ⟨a, ha, hab⟩ := ih hb
      exact ⟨a, List.mem_cons_of_mem _ ha, hab⟩

theorem forall₂_of_mem {R S : α → β → Prop} {l : List α} {l' : List β} (h : List.Forall₂ R l l') :
    (∀ a ∈ l, ∀ b ∈ l', R a b → S a b) → List.Forall₂ S l l' := by
  induction h with
  | nil => exact fun _ => .nil
  | cons hr _ ih =>
    intro hS
    refine .cons (hS _ List.mem_cons_self _ List.mem_cons_self hr) (ih fun a ha b hb => ?_)
    exact hS a (List.mem_cons_of_mem _ ha) b (List.mem_cons_of_mem _ hb)

/-! ## Successes -/

theorem bind_eq_ok_iff {x : Except ε α} {f : α → Except ε β} {b : β} :
    x >>= f = .ok b ↔ ∃ a, x = .ok a ∧ f a = .ok b := by
  cases x with
  | error e => simp [bind, Except.bind]
  | ok a => simp [bind, Except.bind]

theorem map_eq_ok_iff {x : Except ε α} {f : α → β} {b : β} : x.map f = .ok b ↔ ∃ a, x = .ok a ∧ f a = b := by
  cases x with
  | error e => simp [Except.map]
  | ok a => simp [Except.map]

theorem toOption_eq_some_iff {x : Except ε α} {a : α} : x.toOption = some a ↔ x = .ok a := by
  cases x <;> simp [Except.toOption]

/-- A traversal succeeds where it succeeds at each element. -/
theorem mapM_eq_ok_iff {f : α → Except ε β} : ∀ {l : List α} {l' : List β},
    l.mapM f = .ok l' ↔ List.Forall₂ (fun a b => f a = .ok b) l l'
  | [], l' => by
    rw [List.mapM_nil, List.forall₂_nil_left_iff]
    exact ⟨fun h => (Except.ok.inj h).symm, fun h => congrArg Except.ok h.symm⟩
  | a :: l, l' => by
    rw [List.mapM_cons, bind_eq_ok_iff, List.forall₂_cons_left_iff]
    constructor
    · rintro ⟨b, hb, h⟩
      obtain ⟨rest, hr, he⟩ := bind_eq_ok_iff.mp h
      exact ⟨b, rest, hb, mapM_eq_ok_iff.mp hr, (Except.ok.inj he).symm⟩
    · rintro ⟨b, rest, hb, hr, rfl⟩
      exact ⟨b, hb, bind_eq_ok_iff.mpr ⟨rest, mapM_eq_ok_iff.mpr hr, rfl⟩⟩

theorem mapM_congr {f g : α → Except ε β} : ∀ {l : List α}, (∀ a ∈ l, f a = g a) → l.mapM f = l.mapM g
  | [], _ => rfl
  | a :: l, h => by
    rw [List.mapM_cons, List.mapM_cons, h a List.mem_cons_self,
      mapM_congr fun b hb => h b (List.mem_cons_of_mem a hb)]

/-- A list of outcomes has a success where all of them are successes. -/
theorem mapM_id_eq_ok_iff {l : List (Except ε α)} {l' : List α} : l.mapM id = .ok l' ↔ l = l'.map .ok := by
  rw [mapM_eq_ok_iff, ← List.forall₂_eq_eq_eq, List.forall₂_map_right_iff]
  rfl

/-- What holds at the start of a fold and is kept by each step, for the elements met so far, holds at its end. -/
theorem foldlM_run {f : β → α → Except ε β} {P : List α → β → Prop}
    (hstep : ∀ seen a b b', P seen b → f b a = .ok b' → P (seen ++ [a]) b') :
    ∀ (l seen : List α) {b b' : β}, P seen b → l.foldlM f b = .ok b' → P (seen ++ l) b'
  | [], seen, b, b', hP, h => by
    rw [List.append_nil]
    exact Except.ok.inj h ▸ hP
  | a :: l, seen, b, b', hP, h => by
    rw [List.foldlM_cons] at h
    obtain ⟨c, hc, hr⟩ := bind_eq_ok_iff.mp h
    have := foldlM_run hstep l (seen ++ [a]) (hstep seen a b c hP hc) hr
    rwa [List.append_assoc] at this

/-- Elements that a fold passes over can be left out. -/
theorem foldlM_filter {f : β → α → Except ε β} {keep : α → Bool} (h : ∀ b a, keep a = false → f b a = .ok b) :
    ∀ (l : List α) (b : β), (l.filter keep).foldlM f b = l.foldlM f b
  | [], b => rfl
  | a :: l, b => by
    cases hk : keep a with
    | false =>
      rw [List.filter_cons_of_neg (by rw [hk]; exact Bool.false_ne_true), List.foldlM_cons, h b a hk,
        foldlM_filter h l b]
      rfl
    | true =>
      rw [List.filter_cons_of_pos hk, List.foldlM_cons, List.foldlM_cons]
      exact congrArg (f b a >>= ·) (funext (foldlM_filter h l))

/-! ## Failures -/

/-- The error of a computation that fails. -/
def error? : Except ε α → Option ε
  | .error e => some e
  | .ok _ => none

theorem error?_eq_some_iff {x : Except ε α} {e : ε} : error? x = some e ↔ x = .error e := by
  cases x <;> simp [error?]

theorem error?_eq_none_iff {x : Except ε α} : error? x = none ↔ ∃ a, x = .ok a := by
  cases x <;> simp [error?]

theorem bind_eq_error_iff {x : Except ε α} {f : α → Except ε β} {e : ε} :
    x >>= f = .error e ↔ x = .error e ∨ ∃ a, x = .ok a ∧ f a = .error e := by
  cases x with
  | error e' => simp [bind, Except.bind]
  | ok a => simp [bind, Except.bind]

@[simp] theorem error?_map (x : Except ε α) (f : α → β) : error? (x.map f) = error? x := by
  cases x <;> rfl

/-- A traversal whose steps fail with other errors fails with the other error. -/
theorem mapM_mapError {ε' : Type} (g : ε → ε') (f : α → Except ε β) : ∀ l : List α,
    l.mapM (fun a => (f a).mapError g) = (l.mapM f).mapError g
  | [] => rfl
  | a :: l => by
    rw [List.mapM_cons, List.mapM_cons, mapM_mapError g f l]
    cases f a with
    | error e => rfl
    | ok b => cases l.mapM f <;> rfl

/-- A traversal fails as the first element that fails. -/
theorem error?_mapM (f : α → Except ε β) : ∀ l : List α, error? (l.mapM f) = l.findSome? fun a => error? (f a)
  | [] => rfl
  | a :: l => by
    rw [List.mapM_cons, List.findSome?_cons, ← error?_mapM f l]
    cases f a with
    | error e => rfl
    | ok b => cases l.mapM f <;> rfl

/-- A traversal fails where it succeeds at all elements before some element and fails at this one. -/
theorem mapM_eq_error_iff {f : α → Except ε β} {l : List α} {e : ε} : l.mapM f = .error e ↔
    ∃ before a after, l = before ++ a :: after ∧ (∀ a' ∈ before, ∃ b, f a' = .ok b) ∧ f a = .error e := by
  rw [← error?_eq_some_iff, error?_mapM, List.findSome?_eq_some_iff]
  constructor
  · rintro ⟨before, a, after, rfl, ha, hbefore⟩
    exact ⟨before, a, after, rfl, fun a' h => error?_eq_none_iff.mp (hbefore a' h), error?_eq_some_iff.mp ha⟩
  · rintro ⟨before, a, after, rfl, hbefore, ha⟩
    exact ⟨before, a, after, rfl, error?_eq_some_iff.mpr ha, fun a' h => error?_eq_none_iff.mpr (hbefore a' h)⟩

/-- If an element fails in the same way wherever a fold stands, the fold fails as the first element that fails. -/
theorem error?_foldlM {f : β → α → Except ε β} {fault? : α → Option ε} (h : ∀ b a, error? (f b a) = fault? a) :
    ∀ (l : List α) (b : β), error? (l.foldlM f b) = l.findSome? fault?
  | [], b => rfl
  | a :: l, b => by
    rw [List.foldlM_cons, List.findSome?_cons, ← h b a]
    cases f b a with
    | error e => rfl
    | ok c => exact error?_foldlM h l c

/-- A fold fails where it succeeds up to some element and the step at this element fails. -/
theorem foldlM_eq_error_iff {f : β → α → Except ε β} {e : ε} : ∀ {l : List α} {b : β}, l.foldlM f b = .error e ↔
    ∃ before a after c, l = before ++ a :: after ∧ before.foldlM f b = .ok c ∧ f c a = .error e
  | [], b => by
    constructor
    · exact nofun
    · rintro ⟨before, a, after, c, h, -, -⟩
      exact absurd h.symm (List.append_ne_nil_of_right_ne_nil before (List.cons_ne_nil a after))
  | a :: l, b => by
    constructor
    · intro h
      cases hf : f b a with
      | error e' =>
        rw [List.foldlM_cons, hf] at h
        cases h
        exact ⟨[], a, l, b, rfl, rfl, hf⟩
      | ok c =>
        rw [List.foldlM_cons, hf] at h
        obtain ⟨before, a', after, d, rfl, hb, ha⟩ := foldlM_eq_error_iff.mp h
        refine ⟨a :: before, a', after, d, rfl, ?_, ha⟩
        rw [List.foldlM_cons, hf]
        exact hb
    · rintro ⟨before, a', after, c, h, hb, ha⟩
      rw [h, List.foldlM_append, hb]
      show (a' :: after).foldlM f c = .error e
      rw [List.foldlM_cons, ha]
      rfl

/-! ## Two runs -/

/-- Two outcomes are alike if both are the same error, or both are results that are related. -/
inductive Alike (R : α → β → Prop) : Except ε α → Except ε β → Prop
  | error (e : ε) : Alike R (.error e) (.error e)
  | ok {a : α} {b : β} (h : R a b) : Alike R (.ok a) (.ok b)

theorem alike_eq_iff {x y : Except ε α} : Alike Eq x y ↔ x = y := by
  constructor
  · rintro (_ | rfl)
    · rfl
    · rfl
  · rintro rfl
    cases x with
    | error e => exact .error e
    | ok a => exact .ok rfl

theorem Alike.exists_right {R : α → β → Prop} {a : α} {y : Except ε β} (h : Alike R (.ok a) y) :
    ∃ b, y = .ok b ∧ R a b := by
  cases h with
  | ok h => exact ⟨_, rfl, h⟩

theorem Alike.bind {R : α → β → Prop} {S : γ → δ → Prop} {x : Except ε α} {y : Except ε β}
    {f : α → Except ε γ} {g : β → Except ε δ} (h : Alike R x y) (hf : ∀ a b, R a b → Alike S (f a) (g b)) :
    Alike S (x >>= f) (y >>= g) := by
  cases h with
  | error e => exact .error e
  | ok h => exact hf _ _ h

/-- Two folds whose steps stay alike stay alike. -/
theorem Alike.foldlM {R : α → β → Prop} {S : γ → δ → Prop} {f : α → γ → Except ε α} {g : β → δ → Except ε β}
    (hstep : ∀ a b c d, R a b → S c d → Alike R (f a c) (g b d)) {l : List γ} {l' : List δ}
    (hl : List.Forall₂ S l l') : ∀ {a : α} {b : β}, R a b → Alike R (l.foldlM f a) (l'.foldlM g b) := by
  induction hl with
  | nil => exact fun h => .ok h
  | cons hcd _ ih =>
    intro a b h
    rw [List.foldlM_cons, List.foldlM_cons]
    exact (hstep a b _ _ h hcd).bind fun _ _ h' => ih h'

/-- Two outcomes agree if both are errors, whichever these are, or both are results that are related. -/
inductive Agree (R : α → β → Prop) : Except ε α → Except ε β → Prop
  | error (e e' : ε) : Agree R (.error e) (.error e')
  | ok {a : α} {b : β} (h : R a b) : Agree R (.ok a) (.ok b)

theorem Agree.of_iff {R : α → β → Prop} {x : Except ε α} {y : Except ε β}
    (hiff : (∃ a, x = .ok a) ↔ ∃ b, y = .ok b) (h : ∀ a b, x = .ok a → y = .ok b → R a b) : Agree R x y := by
  cases x with
  | error e =>
    cases y with
    | error e' => exact .error e e'
    | ok b => exact nomatch (hiff.mpr ⟨b, rfl⟩).choose_spec
  | ok a =>
    obtain ⟨b, rfl⟩ := hiff.mp ⟨a, rfl⟩
    exact .ok (h a b rfl rfl)

theorem Agree.exists_right {R : α → β → Prop} {a : α} {y : Except ε β} (h : Agree R (.ok a) y) :
    ∃ b, y = .ok b ∧ R a b := by
  cases h with
  | ok h => exact ⟨_, rfl, h⟩

end FilterPlan.Outcome
