import SfcTheme.Number

/-!
The decimal with the fewest digits that reads back to a number. A number stands for the reals that
round to it, from halfway to its neighbour below to halfway to its neighbour above, and the decimals
on the coarsest grid that has one of them are the shortest. Main statement: what is chosen reads
back.
-/

set_option autoImplicit false

namespace SfcTheme

/-- The size `digits * 10 ^ exponent`. -/
structure Decimal where
  digits : Nat
  exponent : Int
  deriving DecidableEq, Repr

namespace Binary

/-- A quarter of the step from `x` to its neighbour above, measured in `10 ^ k`, as a fraction. -/
def quarter (x : Binary) (k : Int) : Nat × Nat :=
  let e := x.exponent - 2
  (Nat.pow 2 e.toNat * Nat.pow 10 (-k).toNat, Nat.pow 2 (-e).toNat * Nat.pow 10 k.toNat)

/-- The quarters from `x` halfway to its neighbour below, which is nearer where the exponent
changes. -/
def below (x : Binary) : Nat :=
  if x.coefficient = leadingBit ∧ leastExponent < x.exponent then 1 else 2

/-- Whether `d` is one of the reals that round to `x`. Those halfway to a neighbour go to the even
coefficient. -/
def readsBack (x : Binary) (d : Decimal) : Bool :=
  let (step, unit) := x.quarter d.exponent
  let least := (4 * x.coefficient - x.below) * step
  let greatest := (4 * x.coefficient + 2) * step
  let place := d.digits * unit
  if x.coefficient % 2 = 0 then least ≤ place && place ≤ greatest
  else least < place && place < greatest

/-- The closer multiple of `10 ^ k` that reads back. Of two that are equally close it is the even
one. -/
def nearestOn? (x : Binary) (k : Int) : Option Decimal :=
  let (step, unit) := x.quarter k
  let value := 4 * x.coefficient * step
  let n := value / unit
  let middle := (2 * n + 1) * unit
  let closer := if 2 * value < middle ∨ 2 * value = middle ∧ n % 2 = 0 then n else n + 1
  [closer, 2 * n + 1 - closer].findSome? fun m =>
    if x.readsBack ⟨m, k⟩ then some ⟨m, k⟩ else none

def exact (x : Binary) : Decimal :=
  ⟨x.coefficient * Nat.pow 2 x.exponent.toNat * Nat.pow 5 (-x.exponent).toNat, min x.exponent 0⟩

def grids (x : Binary) : List Int :=
  (List.range (310 - x.exact.exponent).toNat).map fun i => 309 - Int.ofNat i

def shortest (x : Binary) : Decimal := (x.grids.findSome? x.nearestOn?).getD x.exact

theorem readsBack_nearestOn? {x : Binary} {k : Int} {d : Decimal} (h : x.nearestOn? k = some d) :
    x.readsBack d = true := by
  obtain ⟨m, -, hm⟩ := List.exists_of_findSome?_eq_some h
  split at hm
  · next hb => cases hm; exact hb
  · cases hm

theorem below_pos (x : Binary) : 0 < x.below := by unfold below; split <;> decide

theorem pow_ten (n : Nat) : Nat.pow 10 n = Nat.pow 2 n * Nat.pow 5 n := Nat.mul_pow 2 5 n

theorem pow_two_add_two (n : Nat) : Nat.pow 2 (n + 2) = 4 * Nat.pow 2 n := by
  change Nat.pow 2 n * 2 * 2 = 4 * Nat.pow 2 n
  generalize Nat.pow 2 n = p
  omega

theorem exact_quarter (x : Binary) :
    x.exact.digits * (x.quarter x.exact.exponent).2 =
      4 * x.coefficient * (x.quarter x.exact.exponent).1 := by
  obtain ⟨c, e⟩ := x
  simp only [exact, quarter]
  by_cases h : 0 ≤ e
  · rw [show min e 0 = 0 by omega, show (-e).toNat = 0 by omega]
    change c * Nat.pow 2 e.toNat * 1 * (Nat.pow 2 (-(e - 2)).toNat * 1) =
      4 * c * (Nat.pow 2 (e - 2).toNat * 1)
    by_cases h2 : 2 ≤ e
    · rw [show e.toNat = (e - 2).toNat + 2 by omega, pow_two_add_two,
        show (-(e - 2)).toNat = 0 by omega]
      change c * (4 * Nat.pow 2 (e - 2).toNat) * 1 * 1 = 4 * c * (Nat.pow 2 (e - 2).toNat * 1)
      simp only [Nat.mul_one, Nat.mul_comm c, Nat.mul_assoc]
    · obtain rfl | rfl : e = 0 ∨ e = 1 := by omega
      · change c * 1 * 1 * 4 = 4 * c * 1; omega
      · change c * 2 * 1 * 2 = 4 * c * 1; omega
  · rw [show min e 0 = e by omega, show e.toNat = 0 by omega, show (e - 2).toNat = 0 by omega,
      show (-(e - 2)).toNat = (-e).toNat + 2 by omega, pow_two_add_two,
      pow_ten (-e).toNat]
    change c * 1 * Nat.pow 5 (-e).toNat * (4 * Nat.pow 2 (-e).toNat * 1) =
      4 * c * (1 * (Nat.pow 2 (-e).toNat * Nat.pow 5 (-e).toNat))
    generalize Nat.pow 2 (-e).toNat = p
    generalize Nat.pow 5 (-e).toNat = q
    simp only [Nat.mul_one, Nat.one_mul, Nat.mul_assoc, Nat.mul_left_comm, Nat.mul_comm]

theorem quarter_pos (x : Binary) (k : Int) : 0 < (x.quarter k).1 :=
  Nat.mul_pos (Nat.pow_pos (by decide)) (Nat.pow_pos (by decide))

theorem readsBack_exact {x : Binary} (h : 0 < x.coefficient) : x.readsBack x.exact = true := by
  have hp := x.below_pos
  have hq := x.quarter_pos x.exact.exponent
  have hl : (4 * x.coefficient - x.below) * (x.quarter x.exact.exponent).1 <
      4 * x.coefficient * (x.quarter x.exact.exponent).1 :=
    Nat.mul_lt_mul_of_pos_right (by omega) hq
  have hg : 4 * x.coefficient * (x.quarter x.exact.exponent).1 <
      (4 * x.coefficient + 2) * (x.quarter x.exact.exponent).1 :=
    Nat.mul_lt_mul_of_pos_right (by omega) hq
  simp only [readsBack, exact_quarter]
  split <;> simp only [Bool.and_eq_true, decide_eq_true_eq] <;> omega

theorem readsBack_shortest {x : Binary} (h : 0 < x.coefficient) : x.readsBack x.shortest = true := by
  unfold shortest
  cases hs : x.grids.findSome? x.nearestOn? with
  | none => exact readsBack_exact h
  | some d =>
    obtain ⟨k, -, hk⟩ := List.exists_of_findSome?_eq_some hs
    exact readsBack_nearestOn? hk

example : shortest ⟨1, -1074⟩ = ⟨5, -324⟩ := by decide +kernel
example : shortest ⟨0x1999999999999A, -56⟩ = ⟨1, -1⟩ := by decide +kernel
example : shortest ⟨0x10000000000000, -77⟩ = ⟨29802322387695312, -24⟩ := by decide +kernel

end Binary

end SfcTheme
