import RecordStore.Decimal.Shortest
import Mathlib.Algebra.Order.Field.Rat
import Mathlib.Order.Monotone.Basic
import Mathlib.Tactic.Linarith
import Mathlib.Tactic.Ring

/-!
# Which reals round to a double

Without their signs, the finite doubles are numbered in the order of their values: the number is the
bits themselves. Each double lies between its neighbours, and the reals that round to it reach half
way to them (`roundingInterval_eq`). A number half way between two doubles rounds to the one with
the even number, so no number rounds to two doubles (`Attracts.unique`).
-/

namespace RecordStore.Double

/-- The bits without the sign. -/
def rank (x : Double) : Nat := x.bits.toNat % 0x8000000000000000

/-- How many times the distance to the next double is that of the smallest ones, as a power of
    two. -/
def gapExponent (n : Nat) : Nat := max (n / fractionCount) 1 - 1

/-- The value of a double, in units of the smallest positive one. -/
def units (n : Nat) : Nat :=
  (if n / fractionCount = 0 then n % fractionCount else fractionCount + n % fractionCount)
    * 2 ^ gapExponent n

/-! ### Fields -/

theorem exponentField_eq (x : Double) : x.exponentField = x.rank / fractionCount := by
  simp only [exponentField, rank, fractionCount]
  omega

theorem fraction_eq (x : Double) : x.fraction = x.rank % fractionCount := by
  simp only [fraction, rank, fractionCount]
  omega

theorem significand_eq (x : Double) : x.significand * 2 ^ gapExponent x.rank = units x.rank := by
  rw [significand, units, exponentField_eq, fraction_eq]

theorem significand_mod_two (x : Double) : x.significand % 2 = x.rank % 2 := by
  rw [significand, fraction_eq]
  split
  all_goals
    simp only [fractionCount]
    omega

theorem isZero_iff (x : Double) : x.isZero = true ↔ x.rank = 0 := decide_eq_true_iff

/-- The sign and the other bits make up the double. -/
theorem ext_rank {x y : Double} (hsign : x.isNegative = y.isNegative) (hrank : x.rank = y.rank) :
    x = y := by
  have hx := x.bits.toNat_lt
  have hy := y.bits.toNat_lt
  have hiff := decide_eq_decide.1 hsign
  simp only [rank] at hrank
  have hbits : x.bits.toNat = y.bits.toNat := by omega
  cases x
  cases y
  exact congrArg mk (UInt64.toNat_inj.1 hbits)

/-! ### Neighbours -/

/-- The next double is one gap away, also where the gap changes. -/
theorem units_succ (n : Nat) : units (n + 1) = units n + 2 ^ gapExponent n := by
  by_cases hcarry : n % fractionCount + 1 = fractionCount
  · have hdiv : (n + 1) / fractionCount = n / fractionCount + 1 := by
      simp only [fractionCount] at hcarry ⊢
      omega
    have hmod : (n + 1) % fractionCount = 0 := by
      simp only [fractionCount] at hcarry ⊢
      omega
    simp only [units, gapExponent, hdiv, hmod]
    rw [if_neg (Nat.succ_ne_zero _)]
    rcases hexp : n / fractionCount with _ | e
    · simpa using hcarry.symm
    · rw [if_neg (Nat.succ_ne_zero _)]
      have hhalf : fractionCount + n % fractionCount + 1 = fractionCount * 2 := by omega
      calc _ = fractionCount * 2 ^ (e + 1) := by simp
        _ = fractionCount * 2 * 2 ^ e := by ring
        _ = _ := by
          rw [← hhalf]
          simp
          ring
  · have hdiv : (n + 1) / fractionCount = n / fractionCount := by
      simp only [fractionCount] at hcarry ⊢
      omega
    have hmod : (n + 1) % fractionCount = n % fractionCount + 1 := by
      simp only [fractionCount] at hcarry ⊢
      omega
    simp only [units, gapExponent, hdiv, hmod]
    split <;> ring

theorem units_strictMono : StrictMono units := by
  refine strictMono_nat_of_lt_succ fun n => ?_
  rw [units_succ]
  exact Nat.lt_add_of_pos_right (Nat.two_pow_pos _)

theorem units_pos {n : Nat} (h : n ≠ 0) : 0 < units n :=
  (Nat.zero_le _).trans_lt (units_strictMono (Nat.pos_of_ne_zero h))

/-! ### Intervals -/

/-- A number between two others, or one of them if the interval is closed. -/
def Between (closed : Prop) (low v high : ℚ) : Prop :=
  (low < v ∨ closed ∧ low = v) ∧ (v < high ∨ closed ∧ v = high)

/-- The number, in quarters of the smallest double, rounds to the double of this rank. -/
def Attracts (n : Nat) (v : ℚ) : Prop :=
  Between (n % 2 = 0) (2 * (units (n - 1) + units n)) v (2 * (units n + units (n + 1)))

theorem Between.le {closed : Prop} {low v high : ℚ} (h : Between closed low v high) :
    low ≤ v ∧ v ≤ high :=
  ⟨h.1.elim le_of_lt fun h => h.2.le, h.2.elim le_of_lt fun h => h.2.le⟩

/-- A number rounds to no double behind the one that it rounds to. -/
theorem Attracts.not_lt {m n : Nat} {v : ℚ} (hm : Attracts m v) (hn : Attracts n v) : ¬ m < n := by
  intro hlt
  have hle : (units m : ℚ) ≤ units (n - 1) :=
    Nat.cast_le.2 (units_strictMono.monotone (Nat.le_sub_one_of_lt hlt))
  have hle' : (units (m + 1) : ℚ) ≤ units n := Nat.cast_le.2 (units_strictMono.monotone hlt)
  have hhigh := hm.le.2
  have hlow := hn.le.1
  -- Only the point half way between two neighbours is left, and one of the two has an odd rank.
  have heven : m % 2 = 0 := by
    rcases hm.2 with h | h
    · linarith
    · exact h.1
  have heven' : n % 2 = 0 := by
    rcases hn.1 with h | h
    · linarith
    · exact h.1
  have hapart : (units m : ℚ) < units (n - 1) := Nat.cast_lt.2 (units_strictMono (by omega))
  linarith

/-- A number rounds to one double. -/
theorem Attracts.unique {m n : Nat} {v : ℚ} (hm : Attracts m v) (hn : Attracts n v) : m = n :=
  Nat.le_antisymm (Nat.le_of_not_lt (hn.not_lt hm)) (Nat.le_of_not_lt (hm.not_lt hn))

/-- The gap below a double is that of its lower neighbour, half of its own above a power of two. -/
theorem gap_below (n : Nat) :
    2 * 2 ^ gapExponent (n - 1) =
      (if n % fractionCount = 0 ∧ 1 < n / fractionCount then 1 else 2) * 2 ^ gapExponent n := by
  split
  next hpower =>
    have hgap : gapExponent n = gapExponent (n - 1) + 1 := by
      simp only [gapExponent, fractionCount] at hpower ⊢
      omega
    rw [hgap]
    ring
  next hpower =>
    have hgap : gapExponent n = gapExponent (n - 1) := by
      simp only [gapExponent, fractionCount] at hpower ⊢
      omega
    rw [hgap]

/-- The ends of the interval lie half way to the neighbours. -/
theorem roundingInterval_eq {x : Double} (h : x.rank ≠ 0) :
    ∃ low high, x.roundingInterval = (low, 4 * x.significand, high) ∧
      low * 2 ^ gapExponent x.rank = 2 * (units (x.rank - 1) + units x.rank) ∧
      high * 2 ^ gapExponent x.rank = 2 * (units x.rank + units (x.rank + 1)) := by
  refine ⟨_, _, rfl, ?_, ?_⟩
  · have hpred := units_succ (x.rank - 1)
    rw [Nat.sub_add_cancel (Nat.pos_of_ne_zero h)] at hpred
    have hgap := gap_below x.rank
    rw [fraction_eq, exponentField_eq, Nat.sub_mul, Nat.mul_assoc, significand_eq]
    omega
  · rw [units_succ, Nat.add_mul, Nat.mul_assoc, significand_eq]
    ring

end RecordStore.Double
