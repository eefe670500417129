/-
  Words in memory: a natural number as a given number of bytes, in either byte order, and back.

  Reading gives back what was written, for the numbers that fit (`read_write`).
-/
import Mathlib.Algebra.Group.Nat.Defs
import Mathlib.Data.List.Basic

namespace Lzmq.Bytes

/-- The byte order of a machine. -/
inductive Order
  | little
  | big
deriving DecidableEq, Repr

/-- The `w` low bytes of `n`, the lowest first. -/
def lowFirst : Nat → Nat → List UInt8
  | 0, _ => []
  | w + 1, n => UInt8.ofNat n :: lowFirst w (n / 256)

/-- The number of which these are the bytes, the lowest first. -/
def value : List UInt8 → Nat
  | [] => 0
  | b :: bs => b.toNat + 256 * value bs

/-- The bytes of a word of `w` bytes. -/
def Order.write : Order → Nat → Nat → List UInt8
  | .little, w, n => lowFirst w n
  | .big, w, n => (lowFirst w n).reverse

/-- The word with these bytes. -/
def Order.read : Order → List UInt8 → Nat
  | .little, bs => value bs
  | .big, bs => value bs.reverse

example : Order.write .big 2 258 = [1, 2] := by decide
example : Order.read .little [1, 2] = 513 := by decide

theorem length_lowFirst : ∀ (w n : Nat), (lowFirst w n).length = w := by
  intro w
  induction w with
  | zero => exact fun _ => rfl
  | succ w ih => exact fun n => congrArg (· + 1) (ih (n / 256))

theorem length_write (o : Order) (w n : Nat) : (o.write w n).length = w := by
  cases o with
  | little => exact length_lowFirst w n
  | big => rw [Order.write, List.length_reverse, length_lowFirst]

theorem value_lowFirst : ∀ (w n : Nat), n < 256 ^ w → value (lowFirst w n) = n := by
  intro w
  induction w with
  | zero =>
    intro n hn
    exact (Nat.lt_one_iff.mp hn).symm
  | succ w ih =>
    intro n hn
    have hrest := ih (n / 256) (Nat.div_lt_of_lt_mul (by rwa [Nat.pow_succ, Nat.mul_comm] at hn))
    rw [lowFirst, value, hrest, UInt8.toNat_ofNat']
    exact Nat.mod_add_div n 256

/-- **Reading** what has been written. -/
theorem read_write (o : Order) {w n : Nat} (hn : n < 256 ^ w) : o.read (o.write w n) = n := by
  cases o with
  | little => exact value_lowFirst w n hn
  | big => rw [Order.write, Order.read, List.reverse_reverse, value_lowFirst w n hn]

end Lzmq.Bytes
