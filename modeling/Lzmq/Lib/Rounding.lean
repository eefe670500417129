/-
  Rounding to `p` significant bits.

  `roundTo p n` is the number with at most `p` significant bits that is nearest to `n`, the one with the
  even last bit when two are equally near.  With `p = 53` this is the rounding of IEEE double arithmetic:
  the value of a positive double operation is the exact value rounded, and since rounding does not depend
  on the position of the binary point, a value `n / 2^k` is rounded by rounding `n`.

  The lemmas bound the error, and say when it has a known sign.
-/
import Mathlib.Algebra.Order.Ring.Nat
import Mathlib.Data.Nat.Log

namespace Lzmq.Rounding

/-- The number of bits of `n` beyond the first `p`. -/
def excess (p n : Nat) : Nat := n.log2 + 1 - p

def roundTo (p n : Nat) : Nat :=
  let ulp := 2 ^ excess p n
  let q := n / ulp
  let r := n % ulp
  if ulp < 2 * r ∨ ulp = 2 * r ∧ q % 2 = 1 then (q + 1) * ulp else q * ulp

section Bounds

variable {p n m : Nat}

/-- The result is one of the two neighbours. -/
theorem roundTo_bounds (p n : Nat) : n / 2 ^ excess p n * 2 ^ excess p n ≤ roundTo p n ∧
    roundTo p n ≤ n / 2 ^ excess p n * 2 ^ excess p n + 2 ^ excess p n := by
  unfold roundTo
  dsimp only
  split
  · rw [Nat.add_mul, Nat.one_mul]
    exact ⟨Nat.le_add_right _ _, Nat.le_refl _⟩
  · exact ⟨Nat.le_refl _, Nat.le_add_right _ _⟩

theorem roundTo_le_add (p n : Nat) : roundTo p n ≤ n + 2 ^ excess p n := by
  have hq := Nat.div_mul_le_self n (2 ^ excess p n)
  have := (roundTo_bounds p n).2
  omega

theorem le_roundTo_add (p n : Nat) : n ≤ roundTo p n + 2 ^ excess p n := by
  have hlt := Nat.lt_div_mul_add (a := n) (Nat.two_pow_pos (excess p n))
  have := (roundTo_bounds p n).1
  omega

/-- Rounding does not go below a number that needs no rounding at that size. -/
theorem le_roundTo (hm : 2 ^ excess p n ∣ m) (hle : m ≤ n) : m ≤ roundTo p n := by
  obtain ⟨k, rfl⟩ := hm
  have hk : k ≤ n / 2 ^ excess p n := by
    rw [Nat.le_div_iff_mul_le (Nat.two_pow_pos _), Nat.mul_comm]
    exact hle
  rw [Nat.mul_comm]
  exact Nat.le_trans (Nat.mul_le_mul_right _ hk) (roundTo_bounds p n).1

/-- Numbers of at most `p` bits stay as they are. -/
theorem roundTo_eq_self (hp : 0 < p) (h : n < 2 ^ p) : roundTo p n = n := by
  have hexcess : excess p n = 0 := by
    unfold excess
    by_cases h0 : n = 0
    · rw [h0, Nat.log2_zero]
      omega
    · have := (Nat.log2_lt h0).mpr h
      omega
  unfold roundTo
  rw [hexcess]
  dsimp only
  rw [Nat.pow_zero, Nat.mod_one, if_neg (by omega), Nat.div_one, Nat.mul_one]

/-- The last place is small against the number. -/
theorem excess_mul_le (hp : 0 < p) (hexcess : 0 < excess p n) : 2 ^ excess p n * 2 ^ (p - 1) ≤ n := by
  have h0 : n ≠ 0 := by
    rintro rfl
    rw [excess, Nat.log2_zero] at hexcess
    omega
  rw [← Nat.pow_add, show excess p n + (p - 1) = n.log2 from by unfold excess at hexcess ⊢; omega]
  exact Nat.log2_self_le h0

/-- So the relative error is. -/
theorem mul_le_mul_roundTo (hp : 0 < p) (n : Nat) : n * (2 ^ (p - 1) - 1) ≤ roundTo p n * 2 ^ (p - 1) := by
  rcases Nat.eq_zero_or_pos (excess p n) with hexcess | hexcess
  · have hle : n ≤ roundTo p n := le_roundTo (by rw [hexcess]; exact one_dvd _) (Nat.le_refl _)
    exact Nat.mul_le_mul hle (Nat.sub_le _ _)
  · have hulp := excess_mul_le hp hexcess
    have hmul := Nat.mul_le_mul_right (2 ^ (p - 1)) (le_roundTo_add p n)
    rw [Nat.add_mul] at hmul
    rw [Nat.mul_sub, Nat.mul_one]
    omega

/-- Below a power of two the last place is known. -/
theorem excess_le (hp : 0 < p) {k : Nat} (h : n < 2 ^ (p + k)) : excess p n ≤ k := by
  unfold excess
  by_cases h0 : n = 0
  · rw [h0, Nat.log2_zero]
    omega
  · have := (Nat.log2_lt h0).mpr h
    omega

end Bounds

end Lzmq.Rounding
