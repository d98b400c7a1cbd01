import FilterPlan.Text.Basic

/-!
# Shortest decimals

The shortest decimal of a float is the one with the fewest digits among those that read back as the
float, and the nearest to it of these. A float is `m * 2 ^ q` for natural `m`, and the reals that read
back as it reach halfway to its neighbours. On the grid of decimals with `k` digits only the two
neighbours of the float need to be looked at.
-/

namespace FilterPlan

/-- The decimal `digits * 10 ^ exponent`. -/
structure Decimal where
  /-- The digits, as a number. -/
  digits : Nat
  /-- The power of ten of the last digit. -/
  exponent : Int
deriving DecidableEq, Repr

namespace Decimal

/-- The reals that read back as a float, in quarters of the gap above it, all scaled by a common
factor to natural numbers. -/
structure Window where
  /-- The float itself. -/
  value : Nat
  /-- The lower end. -/
  low : Nat
  /-- The upper end. -/
  high : Nat
  /-- Whether the ends belong to it. -/
  isClosed : Bool

/-- Whether a number lies in the window. -/
def Window.contains (w : Window) (x : Nat) : Bool :=
  if w.isClosed then w.low ≤ x && x ≤ w.high else w.low < x && x < w.high

/-- The multiple of `step` in the window that is next to the value, counted in steps: of two the
nearer one, of two as near the even one. -/
def Window.nearest? (w : Window) (step : Nat) : Option Nat :=
  let n := w.value / step
  let below := w.value - n * step
  let above := (n + 1) * step - w.value
  match w.contains (n * step), w.contains ((n + 1) * step) with
  | true, true =>
    if below < above then some n
    else if above < below then some (n + 1)
    else some (if n % 2 = 0 then n else n + 1)
  | true, false => some n
  | false, true => some (n + 1)
  | false, false => none

/-- The power `base ^ e` for exponents of either sign, as a fraction. -/
def power (base : Nat) (e : Int) : Nat × Nat :=
  if 0 ≤ e then (Nat.pow base e.toNat, 1) else (1, Nat.pow base (-e).toNat)

/-- The greatest `e` with `10 ^ e ≤ num / den`. -/
def magnitude (num den : Nat) : Int :=
  let e : Int := (Nat.toDigits 10 num).length - (Nat.toDigits 10 den).length
  let (up, down) := power 10 e
  if up * den ≤ num * down then e else e - 1

/-- Drops zeros at the end of the digits. -/
def trimZeros (d : Decimal) : Decimal :=
  if h : d.digits = 0 then ⟨0, 0⟩
  else if d.digits % 10 = 0 then trimZeros ⟨d.digits / 10, d.exponent + 1⟩
  else d
termination_by d.digits
decreasing_by omega

/-- The shortest decimal of the positive float `m * 2 ^ q`. The gap below it is half the gap above it
if `isPower` holds. -/
def shortest (m : Nat) (q : Int) (isPower : Bool) : Decimal :=
  let (up, down) := power 2 (q - 2)
  let top := magnitude (4 * m * up) down
  let attempt (k : Nat) : Option Decimal :=
    let e := top - k
    let (tens, tenths) := power 10 e
    let w : Window :=
      ⟨4 * m * up * tenths, (4 * m - if isPower then 1 else 2) * up * tenths, (4 * m + 2) * up * tenths,
        m % 2 == 0⟩
    (w.nearest? (tens * down)).map (⟨·, e⟩)
  trimZeros (((List.range 17).findSome? attempt).getD ⟨m, q⟩)

/-- The shortest decimal of the absolute value of a finite float. -/
def ofFloat (x : Float) : Decimal :=
  let bits := x.toBits.toNat
  let e : Nat := bits / Nat.pow 2 52 % Nat.pow 2 11
  let f : Nat := bits % Nat.pow 2 52
  if e = 0 then (if f = 0 then ⟨0, 0⟩ else shortest f (-1074) false)
  else shortest (Nat.pow 2 52 + f) ((e : Int) - 1075) (f == 0 && 1 < e)

end Decimal

end FilterPlan
