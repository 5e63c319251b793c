import RecordStore.Proofs.Decimal.Rounding
import Mathlib.Algebra.Order.Field.Power
import Mathlib.Data.Rat.Cast.Order
import Mathlib.Tactic.FieldSimp
import Mathlib.Tactic.NormNum
import Mathlib.Tactic.Positivity

/-!
# Shortest digits

The search for shortest digits goes over finer and finer decimal grids. What it finds lies in the
interval of the double (`onGrid_between`), and it finds something, since at seventeen digits the
grid is finer than the interval is wide (`onGrid_isSome`). So the shortest digits of a double round
to it and to no other (`attracts_shortest`).
-/

namespace RecordStore.Double

/-- The number that digits with an exponent stand for. -/
def Decimal.value (d : Decimal) : ℚ := d.digits * 10 ^ d.exponent

/-- Zeros moved into the exponent change nothing. -/
theorem Decimal.value_trim (d : Decimal) (fuel : Nat) : (d.trim fuel).value = d.value := by
  induction fuel generalizing d with
  | zero => rfl
  | succ fuel ih =>
    rw [trim]
    split
    next hzero =>
      have hdigits : d.digits = d.digits / 10 * 10 := by omega
      rw [ih, value, value, zpow_add_one₀ (by norm_num)]
      conv_rhs => rw [hdigits]
      push_cast
      ring
    next => rfl

/-! ### One grid -/

section Grid

variable {low value high num den : Nat} {closed : Bool} {e : Int}

/-- A power of ten is a quotient of natural ones. -/
theorem ten_zpow_mul (e : Int) : (10 : ℚ) ^ e * 10 ^ (-e).toNat = 10 ^ e.toNat := by
  rw [← zpow_natCast, ← zpow_natCast, ← zpow_add₀ (by norm_num)]
  congr 1
  omega

/-- A grid point is compared with a bound after both are multiplied. -/
theorem bound_le_iff (hden : 0 < den) (bound d : Nat) :
    ((bound : ℚ) * (num / den) ≤ d * 10 ^ e ↔
      bound * (num * 10 ^ (-e).toNat) ≤ d * (10 ^ e.toNat * den)) ∧
    ((d : ℚ) * 10 ^ e ≤ bound * (num / den) ↔
      d * (10 ^ e.toNat * den) ≤ bound * (num * 10 ^ (-e).toNat)) := by
  have hscale : (0 : ℚ) < den * 10 ^ (-e).toNat := by positivity
  have hbound : (bound : ℚ) * (num / den) * (den * 10 ^ (-e).toNat) =
      (bound * (num * 10 ^ (-e).toNat) : Nat) := by
    push_cast
    field_simp
  have hpoint : (d : ℚ) * 10 ^ e * (den * 10 ^ (-e).toNat) = (d * (10 ^ e.toNat * den) : Nat) := by
    push_cast
    rw [← ten_zpow_mul e]
    ring
  constructor
  · rw [← mul_le_mul_iff_left₀ hscale, hbound, hpoint, Nat.cast_le]
  · rw [← mul_le_mul_iff_left₀ hscale, hbound, hpoint, Nat.cast_le]

/-- The comparison of a grid point with the ends of an interval. -/
def covers (low high : Nat) (closed : Bool) (unit step d : Nat) : Bool :=
  if closed then low * unit ≤ d * step && d * step ≤ high * unit
  else low * unit < d * step && d * step < high * unit

/-- One of the two neighbours of the value is found, if the interval covers one. -/
theorem onGrid_cases (low value high : Nat) (closed : Bool) (num den : Nat) (e : Int) :
    match onGrid low value high closed num den e with
    | some d => d.exponent = e ∧ covers low high closed (num * 10 ^ (-e).toNat)
        (10 ^ e.toNat * den) d.digits = true
    | none => ∃ lower, lower = value * (num * 10 ^ (-e).toNat) / (10 ^ e.toNat * den) ∧
        covers low high closed (num * 10 ^ (-e).toNat) (10 ^ e.toNat * den) lower = false ∧
        covers low high closed (num * 10 ^ (-e).toNat) (10 ^ e.toNat * den) (lower + 1) =
          false := by
  unfold onGrid
  dsimp only
  split
  next d hfound =>
    split at hfound
    · cases hfound
    next hlower _ =>
      cases hfound
      exact ⟨rfl, hlower⟩
    next _ hupper =>
      cases hfound
      exact ⟨rfl, hupper⟩
    next hlower hupper =>
      split at hfound
      · cases hfound
        exact ⟨rfl, hlower⟩
      · split at hfound
        · cases hfound
          exact ⟨rfl, hupper⟩
        · split at hfound
          · cases hfound
            exact ⟨rfl, hlower⟩
          · cases hfound
            exact ⟨rfl, hupper⟩
  next hnone =>
    split at hnone
    next hlower hupper => exact ⟨_, rfl, hlower, hupper⟩
    next => cases hnone
    next => cases hnone
    next =>
      split at hnone
      · cases hnone
      · split at hnone
        · cases hnone
        · split at hnone <;> cases hnone

theorem covers_iff (hden : 0 < den) (d : Nat) :
    covers low high closed (num * 10 ^ (-e).toNat) (10 ^ e.toNat * den) d = true ↔
      Between (closed = true) (low * (num / den)) (⟨d, e⟩ : Decimal).value
        (high * (num / den)) := by
  obtain ⟨hlow, hlow'⟩ := @bound_le_iff num den e hden low d
  obtain ⟨hhigh, hhigh'⟩ := @bound_le_iff num den e hden high d
  rw [covers, Decimal.value]
  cases closed with
  | true =>
    rw [if_pos rfl, Bool.and_eq_true, decide_eq_true_iff, decide_eq_true_iff, ← hlow, ← hhigh',
      le_iff_lt_or_eq, le_iff_lt_or_eq]
    simp [Between]
  | false =>
    rw [if_neg Bool.false_ne_true, Bool.and_eq_true, decide_eq_true_iff, decide_eq_true_iff,
      ← not_le, ← not_le, ← hlow', ← hhigh, not_le, not_le]
    simp [Between]

/-- What is found on a grid lies in the interval. -/
theorem onGrid_between (hden : 0 < den) {d : Decimal}
    (h : onGrid low value high closed num den e = some d) :
    Between (closed = true) (low * (num / den)) d.value (high * (num / den)) := by
  have hcases := onGrid_cases low value high closed num den e
  rw [h] at hcases
  obtain ⟨rfl, hcovers⟩ := hcases
  exact (covers_iff hden d.digits).1 hcovers

/-- On a grid that is finer than the interval is wide, one of the neighbours of the value is in the
    interval. -/
theorem onGrid_isSome (hnum : 0 < num) (hden : 0 < den) (hlow : low ≤ value) (hhigh : value < high)
    (hfine : (10 : ℚ) ^ e < (high - low) * (num / den)) :
    ∃ d, onGrid low value high closed num den e = some d := by
  have hcases := onGrid_cases low value high closed num den e
  cases hfound : onGrid low value high closed num den e with
  | some d => exact ⟨d, rfl⟩
  | none =>
    rw [hfound] at hcases
    obtain ⟨lower, hlower, hbelow, habove⟩ := hcases
    rw [← Bool.not_eq_true, covers_iff hden] at hbelow habove
    have hstep : 0 < 10 ^ e.toNat * den := by positivity
    have hq : (0 : ℚ) < num / den := by positivity
    have hfloor : (lower : ℚ) * 10 ^ e ≤ value * (num / den) := by
      rw [(bound_le_iff hden value lower).2, hlower]
      exact Nat.div_mul_le_self _ _
    have hceil : (value : ℚ) * (num / den) < (lower + 1 : Nat) * 10 ^ e := by
      rw [← not_le, (bound_le_iff hden value (lower + 1)).2, not_le, hlower,
        Nat.mul_comm (_ + 1)]
      exact Nat.lt_mul_div_succ _ hstep
    -- Neither neighbour is in the interval, so the interval fits between them.
    have hleft : (lower : ℚ) * 10 ^ e ≤ low * (num / den) := by
      refine not_lt.1 fun hlt => hbelow ⟨.inl hlt, .inl (hfloor.trans_lt ?_)⟩
      exact mul_lt_mul_of_pos_right (Nat.cast_lt.2 hhigh) hq
    have hright : (high : ℚ) * (num / den) ≤ (lower + 1 : Nat) * 10 ^ e := by
      refine not_lt.1 fun hlt => habove ⟨.inl (lt_of_le_of_lt ?_ hceil), .inl hlt⟩
      exact mul_le_mul_of_nonneg_right (Nat.cast_le.2 hlow) hq.le
    push_cast at hright
    linarith

end Grid

/-! ### All grids -/

theorem den_le_of_go {num den : Nat} (fuel j : Nat) (h : den ≤ num * 10 ^ (j + fuel)) :
    ∃ k : Nat, decimalExponent.go num den fuel j = -k ∧ den ≤ num * 10 ^ k := by
  induction fuel generalizing j with
  | zero => exact ⟨j, rfl, h⟩
  | succ fuel ih =>
    rw [decimalExponent.go]
    split
    next hfound => exact ⟨j, rfl, hfound⟩
    next =>
      refine ih (j + 1) ?_
      rwa [Nat.add_right_comm]

/-- The first digit of a quotient stands at this power of ten or above. -/
theorem ten_zpow_decimalExponent_le {num den : Nat} (hden : 0 < den)
    (h : den ≤ num * 10 ^ (1 + 400)) : (10 : ℚ) ^ decimalExponent num den ≤ num / den := by
  have hpos : (0 : ℚ) < den := Nat.cast_pos.2 hden
  rw [decimalExponent, le_div_iff₀ hpos]
  split
  next hle =>
    have hquot : num / den ≠ 0 := (Nat.div_pos hle hden).ne'
    have hlength : 10 ^ ((Nat.toDigits 10 (num / den)).length - 1) ≤ num / den := by
      rcases hcases : (Nat.toDigits 10 (num / den)).length - 1 with _ | k
      · exact Nat.pos_of_ne_zero hquot
      · have hiff := @Nat.length_toDigits_le_iff 10 (num / den) (k + 1) (by decide) (by simp)
        exact Nat.le_of_not_lt fun hlt => by omega
    have hcast : (((Nat.toDigits 10 (num / den)).length : Int) - 1) =
        (((Nat.toDigits 10 (num / den)).length - 1 : Nat) : Int) := by
      have := @Nat.length_toDigits_pos 10 (num / den)
      omega
    rw [hcast, zpow_natCast]
    exact_mod_cast (Nat.mul_le_mul_right den hlength).trans (Nat.div_mul_le_self num den)
  next =>
    obtain ⟨k, hk, hle⟩ := den_le_of_go 400 1 h
    rw [hk, zpow_neg, zpow_natCast, inv_mul_le_iff₀ (by positivity)]
    rw [mul_comm]
    exact_mod_cast hle

/-! ### The digits of a double -/

theorem significand_lt (x : Double) :
    x.significand < 2 * fractionCount ∧ (x.fraction = 0 → x.significand ≤ fractionCount) := by
  have hfraction : x.fraction < fractionCount := Nat.mod_lt _ (by decide)
  rw [significand]
  split <;> omega

/-- At seventeen digits a grid is finer than the interval is wide. -/
theorem roundingInterval_wide {x : Double} {low value high : Nat}
    (h : x.roundingInterval = (low, value, high)) :
    low ≤ value ∧ value < high ∧ value + low * 10 ^ 16 < high * 10 ^ 16 := by
  obtain ⟨hlt, hpower⟩ := x.significand_lt
  simp only [roundingInterval, Prod.mk.injEq] at h
  obtain ⟨rfl, rfl, rfl⟩ := h
  simp only [fractionCount] at hlt hpower
  refine ⟨Nat.sub_le _ _, by omega, ?_⟩
  split
  next hzero =>
    have hle := hpower hzero.1
    omega
  next => omega

/-- The unit of the interval, counted in quarters of the smallest double. -/
theorem unit_mul {s : Int} {k n : Nat} (h : s + n = k) :
    ((2 ^ s.toNat : Nat) / (2 ^ (-s).toNat : Nat) : ℚ) * 2 ^ n = 2 ^ k := by
  push_cast
  rw [div_mul_eq_mul_div, div_eq_iff (by positivity), ← pow_add, ← pow_add]
  congr 1
  omega

theorem scale_add (x : Double) : x.scale - 2 + (1076 : Nat) = gapExponent x.rank := by
  rw [scale, exponentField_eq, gapExponent]
  omega

theorem eight_pow_le (n : Nat) : 2 ^ (3 * n) ≤ 10 ^ n := by
  rw [Nat.pow_mul]
  exact Nat.pow_le_pow_left (by decide) n

theorem den_le (x : Double) {numerator : Nat} (h : 0 < numerator) :
    2 ^ (-(x.scale - 2)).toNat ≤ numerator * 10 ^ (1 + 400) := by
  have hscale := x.scale_add
  calc 2 ^ (-(x.scale - 2)).toNat ≤ 2 ^ (3 * (1 + 400)) :=
        Nat.pow_le_pow_right (by decide) (by omega)
    _ ≤ 10 ^ (1 + 400) := eight_pow_le _
    _ ≤ numerator * 10 ^ (1 + 400) := Nat.le_mul_of_pos_left _ h

/-- What `shortest` finds on the grids below a power of ten. -/
def found (x : Double) (low value high num den : Nat) (top : Int) : Option Decimal :=
  ((List.range 17).map fun (n : Nat) => top - n).findSome?
    (onGrid low value high (x.significand % 2 = 0) num den)

theorem shortest_eq {x : Double} {low value high : Nat}
    (h : x.roundingInterval = (low, value, high)) {num den : Nat}
    (hnum : 2 ^ (x.scale - 2).toNat = num) (hden : 2 ^ (-(x.scale - 2)).toNat = den) :
    x.shortest = ((x.found low value high num den (decimalExponent (value * num) den)).getD
      ⟨value * num / den, 0⟩).trim 17 := by
  rw [shortest, h, ← hnum, ← hden]
  rfl

/-- The search finds digits in the interval. -/
theorem found_between {x : Double} {low value high : Nat}
    (h : x.roundingInterval = (low, value, high)) {num den : Nat} (hnum : 0 < num) (hden : 0 < den)
    {top : Int} (htop : (10 : ℚ) ^ top ≤ value * (num / den)) :
    ∃ d, x.found low value high num den top = some d ∧ Between (x.significand % 2 = 0)
      (low * (num / den)) d.value (high * (num / den)) := by
  obtain ⟨hlow, hhigh, hwide⟩ := roundingInterval_wide h
  have hq : (0 : ℚ) < num / den := by positivity
  have hfine : (10 : ℚ) ^ (top - 16) < (high - low) * (num / den) := by
    have hcast : (value : ℚ) < (high - low) * 10 ^ 16 := by
      have hlt : (value + low * 10 ^ 16 : ℚ) < high * 10 ^ 16 := by exact_mod_cast hwide
      linarith
    rw [zpow_sub₀ (by norm_num), div_lt_iff₀ (by positivity)]
    calc (10 : ℚ) ^ top ≤ value * (num / den) := htop
      _ < (high - low) * 10 ^ 16 * (num / den) := mul_lt_mul_of_pos_right hcast hq
      _ = (high - low) * (num / den) * 10 ^ (16 : ℤ) := by
        rw [show (10 : ℚ) ^ (16 : ℤ) = 10 ^ 16 from zpow_natCast 10 16]
        ring
  have hsome : x.found low value high num den top ≠ none := by
    -- If not before, then on the last grid, which is the finest.
    intro hnone
    have hall := List.findSome?_eq_none_iff.1 hnone (top - 16) (List.mem_map.2 ⟨16, by simp, rfl⟩)
    obtain ⟨d, hd⟩ := onGrid_isSome hnum hden hlow hhigh hfine
    rw [hd] at hall
    cases hall
  obtain ⟨d, hfound⟩ := Option.ne_none_iff_exists'.1 hsome
  obtain ⟨e, -, he⟩ := List.exists_of_findSome?_eq_some hfound
  have hbetween := onGrid_between hden he
  rw [decide_eq_true_iff] at hbetween
  exact ⟨d, hfound, hbetween⟩

theorem Between.mul {closed : Prop} {low v high c : ℚ} (h : Between closed low v high)
    (hc : 0 < c) : Between closed (low * c) (v * c) (high * c) := by
  refine ⟨h.1.imp (mul_lt_mul_of_pos_right · hc) ?_, h.2.imp (mul_lt_mul_of_pos_right · hc) ?_⟩
  · rintro ⟨hclosed, rfl⟩
    exact ⟨hclosed, rfl⟩
  · rintro ⟨hclosed, rfl⟩
    exact ⟨hclosed, rfl⟩

/-- The shortest digits of a double round to it. -/
theorem attracts_shortest {x : Double} (h : x.rank ≠ 0) :
    Attracts x.rank (x.shortest.value * 2 ^ 1076) := by
  obtain ⟨low, high, hinterval, hlow, hhigh⟩ := roundingInterval_eq h
  generalize hnum : 2 ^ (x.scale - 2).toNat = num
  generalize hden : 2 ^ (-(x.scale - 2)).toNat = den
  have hnumPos : 0 < num := hnum ▸ Nat.two_pow_pos _
  have hdenPos : 0 < den := hden ▸ Nat.two_pow_pos _
  -- In quarters of the smallest double, the interval has the ends that `Attracts` speaks of.
  have hunit : (num / den : ℚ) * 2 ^ 1076 = 2 ^ gapExponent x.rank := by
    rw [← hnum, ← hden]
    exact unit_mul x.scale_add
  have hvalue : 0 < 4 * x.significand := by
    have hpos := units_pos h
    rw [← significand_eq] at hpos
    exact Nat.mul_pos (by decide) (Nat.pos_of_mul_pos_right hpos)
  have htop := ten_zpow_decimalExponent_le hdenPos (hden ▸ x.den_le (Nat.mul_pos hvalue hnumPos))
  rw [Nat.cast_mul, mul_div_assoc] at htop
  obtain ⟨d, hfound, hbetween⟩ := found_between hinterval hnumPos hdenPos htop
  have hscaled := hbetween.mul (c := 2 ^ 1076) (by positivity)
  rw [mul_assoc, mul_assoc, hunit] at hscaled
  rw [shortest_eq hinterval hnum hden, hfound, Option.getD_some, Decimal.value_trim, Attracts,
    ← significand_mod_two]
  have hlow' : (low : ℚ) * 2 ^ gapExponent x.rank = 2 * (units (x.rank - 1) + units x.rank) := by
    exact_mod_cast hlow
  have hhigh' : (high : ℚ) * 2 ^ gapExponent x.rank = 2 * (units x.rank + units (x.rank + 1)) := by
    exact_mod_cast hhigh
  rwa [hlow', hhigh'] at hscaled

/-- The shortest digits of a double that is not zero are not all zero. -/
theorem shortest_pos {x : Double} (h : x.rank ≠ 0) : 0 < x.shortest.value := by
  have hlow := (attracts_shortest h).le.1
  have hunits : (0 : ℚ) < units x.rank := Nat.cast_pos.2 (units_pos h)
  have hpos : (0 : ℚ) < x.shortest.value * 2 ^ 1076 := lt_of_lt_of_le (by positivity) hlow
  exact pos_of_mul_pos_left hpos (by positivity)

end RecordStore.Double
