/-
  The monotonic clocks of Windows (ztimer.c).

  Three variants are compiled: a 32-bit tick count, a 64-bit tick count, and a performance counter with
  `freq` counts per millisecond.  Each has a type of times and a type of differences, `IncMonotonic` and
  `GetMonotonicDelta`.  The arithmetic is the machine's: unsigned numbers wrap around, a conversion
  to a signed type keeps the bits, and a signed operation whose result does not fit is undefined (`none`).

  The difference of a time and its increment should be what it was incremented by.  The two 64-bit
  variants get this right for all times, across the wrap-around as well.  The 32-bit variant measures a
  wrapped interval as `(MAXDWORD - StartTime) + EndTime`, which is one too small: `MAXDWORD` is the last
  time before the wrap-around, and the step to 0 is not counted.
-/
import Lzmq.Loop.Timer
import Mathlib.Algebra.Group.Int.Defs
import Mathlib.Algebra.Group.Nat.Defs

namespace Lzmq.WinClock

/-! ## Signed arithmetic -/

/-- `-a` -/
def neg64 (a : Int64) : Option Int64 := if a = Int64.minValue then none else some (-a)

/-- `a * b` -/
def mul64 (a b : Int64) : Option Int64 :=
  if -2 ^ 63 ≤ a.toInt * b.toInt ∧ a.toInt * b.toInt < 2 ^ 63 then some (a * b) else none

/-- `a / b` -/
def div64 (a b : Int64) : Option Int64 :=
  if b = 0 ∨ a = Int64.minValue ∧ b = -1 then none else some (a / b)

/-! ## The clocks -/

/-- `U64Delta` -/
def u64Delta (s e : UInt64) : Option Int64 :=
  if e > s then some (e - s).toInt64 else neg64 (s - e).toInt64

namespace TickCount

/-- `MAXDWORD` -/
def maxdword : UInt32 := 0xFFFFFFFF

def getMonotonicDelta (startTime endTime : UInt32) : UInt32 :=
  if startTime > endTime then (maxdword - startTime) + endTime else endTime - startTime

def incMonotonic (startTime delta : UInt32) : UInt32 := startTime + delta

end TickCount

namespace TickCount64

def getMonotonicDelta (startTime endTime : UInt64) : Option Int64 := u64Delta startTime endTime

def incMonotonic (startTime : UInt64) (delta : Int64) : UInt64 := startTime + delta.toUInt64

end TickCount64

namespace PerfCount

/-- `freq` is `PerfFreq.QuadPart`. -/
def getMonotonicDelta (freq : Int64) (startTime endTime : UInt64) : Option Int64 :=
  (u64Delta startTime endTime).bind fun diff => div64 diff freq

def incMonotonic (freq : Int64) (startTime : UInt64) (delta : Int64) : Option UInt64 :=
  (mul64 delta freq).map fun counts => startTime + counts.toUInt64

end PerfCount

/-! ## The 64-bit clocks -/

theorem minValue_toInt : Int64.minValue.toInt = -2 ^ 63 := rfl

theorem ne_minValue {d : Int64} (h : -2 ^ 63 < d.toInt) : d ≠ Int64.minValue := by
  rintro rfl
  rw [minValue_toInt] at h
  exact Int.lt_irrefl _ h

/-- Both branches give the same bits. -/
theorem u64Delta_add {s : UInt64} {d : Int64} (h : -2 ^ 63 < d.toInt) :
    u64Delta s (s + d.toUInt64) = some d := by
  have hsub : s + d.toUInt64 - s = d.toUInt64 := by rw [UInt64.add_comm, UInt64.add_sub_cancel]
  have hsub' : s - (s + d.toUInt64) = -d.toUInt64 := by rw [← UInt64.neg_sub, hsub]
  unfold u64Delta
  split
  · rw [hsub, Int64.toInt64_toUInt64]
  · have hneg : -d ≠ Int64.minValue := fun heq => ne_minValue h (by
      rw [← Int64.neg_neg (a := d), heq]
      rfl)
    rw [hsub', UInt64.toInt64_neg, Int64.toInt64_toUInt64, neg64, if_neg hneg, Int64.neg_neg]

theorem mul64_eq {d f : Int64} (h : -2 ^ 63 < d.toInt * f.toInt ∧ d.toInt * f.toInt < 2 ^ 63) :
    mul64 d f = some (d * f) ∧ (d * f).toInt = d.toInt * f.toInt := by
  refine ⟨if_pos ⟨Int.le_of_lt h.1, h.2⟩, ?_⟩
  rw [Int64.toInt_mul]
  exact Int.bmod_eq_of_le (by omega) (by omega)

/-- Dividing the counts by their frequency. -/
theorem div64_mul {d f : Int64} (hf : 0 < f.toInt)
    (h : -2 ^ 63 < d.toInt * f.toInt ∧ d.toInt * f.toInt < 2 ^ 63) : div64 (d * f) f = some d := by
  have hmul := (mul64_eq h).2
  have hmin : d * f ≠ Int64.minValue := ne_minValue (by rw [hmul]; exact h.1)
  have hzero : f ≠ 0 := by
    rintro rfl
    exact absurd hf (by decide)
  have hdiv : (d * f / f).toInt = d.toInt := by
    rw [Int64.toInt_div_of_ne_left _ _ hmin, hmul]
    exact Int.mul_tdiv_cancel _ (Int.ne_of_gt hf)
  unfold div64
  rw [if_neg (by rintro (h | ⟨h, -⟩); exacts [hzero h, hmin h]), Int64.toInt_inj.mp hdiv]

theorem perfCount_delta {f : Int64} {s : UInt64} {d : Int64} (hf : 0 < f.toInt)
    (h : -2 ^ 63 < d.toInt * f.toInt ∧ d.toInt * f.toInt < 2 ^ 63) :
    (PerfCount.incMonotonic f s d).bind (PerfCount.getMonotonicDelta f s) = some d := by
  obtain ⟨hmul, hint⟩ := mul64_eq h
  rw [PerfCount.incMonotonic, hmul]
  show (u64Delta s (s + (d * f).toUInt64)).bind _ = _
  rw [u64Delta_add (by rw [hint]; exact h.1)]
  exact div64_mul hf h

/-! ## The 32-bit clock -/

/-- A wrapped interval is measured one millisecond too short. -/
theorem tickCount_delta (s d : UInt32) : TickCount.getMonotonicDelta s (TickCount.incMonotonic s d) =
    if s.toNat + d.toNat < 2 ^ 32 then d else d - 1 := by
  have hs := s.toNat_lt
  have hd := d.toNat_lt
  have hsum : (s + d).toNat = (s.toNat + d.toNat) % 2 ^ 32 := UInt32.toNat_add s d
  have hwrap : s > s + d ↔ ¬ s.toNat + d.toNat < 2 ^ 32 := by
    rw [gt_iff_lt, UInt32.lt_iff_toNat_lt, hsum]
    omega
  unfold TickCount.getMonotonicDelta TickCount.incMonotonic
  by_cases h : s.toNat + d.toNat < 2 ^ 32
  · rw [if_neg (fun hlt => hwrap.mp hlt h), if_pos h, UInt32.add_comm, UInt32.add_sub_cancel]
  · have hmax : TickCount.maxdword = -1 := rfl
    rw [if_pos (hwrap.mpr h), if_neg h, ← UInt32.add_assoc, UInt32.sub_add_cancel, hmax, UInt32.add_comm,
      UInt32.sub_eq_add_neg]

theorem sub_one_ne (d : UInt32) : d - 1 ≠ d := by
  intro h
  have h0 : d - 1 = d - 0 := h.trans (UInt32.sub_zero d).symm
  exact absurd ((UInt32.sub_right_inj d).mp h0) (by decide)

/-! ## All three -/

/-- **Increment and difference.**  On the 32-bit clock the difference of a time and its increment is the
    increment if and only if the clock does not wrap around in between; on the 64-bit clocks it always
    is. -/
theorem monotonic_delta (s d : UInt32) (s64 : UInt64) (d64 freq : Int64) :
    (TickCount.getMonotonicDelta s (TickCount.incMonotonic s d) = d ↔ s.toNat + d.toNat < 2 ^ 32) ∧
    (-2 ^ 63 < d64.toInt → TickCount64.getMonotonicDelta s64 (TickCount64.incMonotonic s64 d64) = some d64) ∧
    (0 < freq.toInt → (d64.toInt * freq.toInt).natAbs < 2 ^ 63 →
      (PerfCount.incMonotonic freq s64 d64).bind (PerfCount.getMonotonicDelta freq s64) = some d64) := by
  refine ⟨?_, fun h => u64Delta_add h, fun hf h => perfCount_delta hf (by omega)⟩
  rw [tickCount_delta]
  by_cases h : s.toNat + d.toNat < 2 ^ 32
  · rw [if_pos h]
    exact iff_of_true rfl h
  · rw [if_neg h]
    exact iff_of_false (sub_one_ne d) h

/-- A second before the 32-bit clock wraps around, for two milliseconds; and across the wrap-around of the
    64-bit clocks, the performance counter running at 10 MHz. -/
theorem monotonic_delta_at :
    TickCount.getMonotonicDelta 4294966296 (TickCount.incMonotonic 4294966296 2) = 2 ∧
    TickCount64.getMonotonicDelta 18446744073709551615
      (TickCount64.incMonotonic 18446744073709551615 5) = some 5 ∧
    (PerfCount.incMonotonic 10000 18446744073709551615 5).bind
      (PerfCount.getMonotonicDelta 10000 18446744073709551615) = some 5 :=
  have h := monotonic_delta 4294966296 2 18446744073709551615 5 10000
  ⟨h.1.mpr (by decide), h.2.1 (by decide), h.2.2 (by decide) (by decide)⟩

/-- The last time before the wrap-around, for one millisecond. -/
theorem tickCount_wrapped :
    ¬ TickCount.getMonotonicDelta 0xFFFFFFFF (TickCount.incMonotonic 0xFFFFFFFF 1) = 1 := by
  decide

/-! ## The clocks of the event loop -/

/-- For times below 2^63 `U64Delta` is the difference that the timers of the loop compute with. -/
theorem u64Delta_toInt {s e : UInt64} (hs : s.toNat < 2 ^ 63) (he : e.toNat < 2 ^ 63) :
    (u64Delta s e).map Int64.toInt = some (Loop.u64Delta s.toNat e.toNat) := by
  have hint : ∀ x : UInt64, x.toNat < 2 ^ 63 → x.toInt64.toInt = x.toNat := fun x hx => by
    rw [← Int64.toInt_toBitVec, UInt64.toBitVec_toInt64]
    exact BitVec.toInt_eq_toNat_of_lt (by rw [UInt64.toNat_toBitVec]; omega)
  have hdiff : (e - s).toInt64.toInt = e.toNat - s.toNat := by
    rw [UInt64.toInt64_sub, Int64.toInt_sub, hint e he, hint s hs]
    exact Int.bmod_eq_of_le (by omega) (by omega)
  have hsum : s + (e - s).toInt64.toUInt64 = e := by
    rw [UInt64.toUInt64_toInt64, UInt64.add_comm, UInt64.sub_add_cancel]
  have hdelta := u64Delta_add (s := s) (d := (e - s).toInt64) (by omega)
  rw [hsum] at hdelta
  rw [hdelta, Loop.u64Delta_eq, ← hdiff]
  rfl

end Lzmq.WinClock
