/-
  Buffers, as lists, and what writing into one does.

  `overwrite dst pos src` is the buffer `dst` after `src` has been written at offset `pos`, which may be
  negative.  What falls outside of the buffer is lost here, so that the length never changes; whether
  something does is said by `Fits`.
-/
import Mathlib.Data.List.Basic
import Mathlib.Logic.Nontrivial.Basic

namespace Lzmq.Buffer

variable {B : Type}

/-- The buffer after a write. -/
def overwrite (dst : List B) (pos : Int) (src : List B) : List B :=
  dst.mapIdx fun i b => if pos ≤ i then src[((i : Int) - pos).toNat]?.getD b else b

/-- A write that stays inside. -/
def Fits (size : Nat) (pos : Int) (n : Nat) : Prop := 0 ≤ pos ∧ pos + n ≤ size

instance (size : Nat) (pos : Int) (n : Nat) : Decidable (Fits size pos n) :=
  inferInstanceAs (Decidable (_ ∧ _))

/-- A buffer of `n` bytes that nothing has been written to. -/
def uninit (junk : Nat → B) (n : Nat) : List B := (List.range n).map junk

section Write

variable (dst : List B) (pos : Int) (src : List B)

@[simp] theorem length_overwrite : (overwrite dst pos src).length = dst.length := List.length_mapIdx

@[simp] theorem length_uninit (junk : Nat → B) (n : Nat) : (uninit junk n).length = n := by
  rw [uninit, List.length_map, List.length_range]

variable {pos src}

/-- A byte that is written. -/
theorem get_overwrite_at {i : Nat} (hdst : i < dst.length) (hpos : pos ≤ i) (hi : (i : Int) < pos + src.length) :
    (overwrite dst pos src)[i]? = src[((i : Int) - pos).toNat]? := by
  have hget : dst[i]? = some dst[i] := List.getElem?_eq_getElem hdst
  have hsrc : src[((i : Int) - pos).toNat]? = some src[((i : Int) - pos).toNat] :=
    List.getElem?_eq_getElem (by omega)
  rw [overwrite, List.getElem?_mapIdx, hget, Option.map_some, if_pos hpos, hsrc, Option.getD_some]

/-- What is written is there. -/
theorem get_overwrite_inside {i : Nat} (hfits : Fits dst.length pos src.length) (hpos : pos ≤ i)
    (hi : (i : Int) < pos + src.length) : (overwrite dst pos src)[i]? = src[((i : Int) - pos).toNat]? := by
  have hend := hfits.2
  exact get_overwrite_at dst (by omega) hpos hi

/-- All else is as it was. -/
theorem get_overwrite_outside {i : Nat} (hi : (i : Int) < pos ∨ pos + src.length ≤ i) :
    (overwrite dst pos src)[i]? = dst[i]? := by
  rw [overwrite, List.getElem?_mapIdx]
  have hkeep : ∀ b, (if pos ≤ i then src[((i : Int) - pos).toNat]?.getD b else b) = b := by
    intro b
    by_cases hpos : pos ≤ i
    · rw [if_pos hpos, List.getElem?_eq_none (by omega), Option.getD_none]
    · rw [if_neg hpos]
  cases dst[i]? with
  | none => rfl
  | some b => rw [Option.map_some, hkeep]

/-- What is to be written is there already, as far as there is room for it. -/
def Holds (dst : List B) (pos : Int) (src : List B) : Prop :=
  ∀ i < dst.length, pos ≤ i → (i : Int) < pos + src.length → dst[i]? = src[((i : Int) - pos).toNat]?

/-- Only then does a write change nothing. -/
theorem overwrite_eq_self_iff : overwrite dst pos src = dst ↔ Holds dst pos src := by
  constructor
  · intro heq i hdst hpos hi
    rw [← get_overwrite_at dst hdst hpos hi, heq]
  · intro hholds
    refine List.ext_getElem? fun i => ?_
    by_cases hin : i < dst.length ∧ pos ≤ i ∧ (i : Int) < pos + src.length
    · rw [get_overwrite_at dst hin.1 hin.2.1 hin.2.2]
      exact (hholds i hin.1 hin.2.1 hin.2.2).symm
    · by_cases hdst : i < dst.length
      · exact get_overwrite_outside dst (by omega)
      · rw [List.getElem?_eq_none (by rw [length_overwrite]; omega), List.getElem?_eq_none (by omega)]

/-- Writing right behind what has been written. -/
theorem overwrite_append (pre rest : List B) (h : src.length ≤ rest.length) :
    overwrite (pre ++ rest) pre.length src = pre ++ src ++ rest.drop src.length := by
  have hfits : Fits (pre ++ rest).length pre.length src.length := by
    rw [List.length_append]
    exact ⟨by omega, by omega⟩
  refine List.ext_getElem? fun i => ?_
  by_cases hin : (pre.length : Int) ≤ i ∧ (i : Int) < pre.length + src.length
  · have hoff : ((i : Int) - pre.length).toNat = i - pre.length := by omega
    rw [get_overwrite_inside _ hfits hin.1 hin.2, hoff, List.append_assoc, List.getElem?_append_right
      (by omega),
      List.getElem?_append_left (by omega)]
  · rw [get_overwrite_outside _ (by omega)]
    by_cases hpre : i < pre.length
    · rw [List.append_assoc, List.getElem?_append_left hpre, List.getElem?_append_left hpre]
    · have hlen : (pre ++ src).length ≤ i := by rw [List.length_append]; omega
      rw [List.getElem?_append_right (by omega), List.getElem?_append_right hlen, List.getElem?_drop,
        List.length_append]
      congr 1
      omega

theorem get_uninit (junk : Nat → B) {n i : Nat} (hi : i < n) : (uninit junk n)[i]? = some (junk i) := by
  rw [uninit, List.getElem?_map, List.getElem?_range hi]
  rfl

/-- **What a reader sees of a buffer that was written from its start.**  The first `m` bytes do not depend on
    what the buffer held before if and only if the write reaches that far. -/
theorem take_overwrite_uninit_iff [Nontrivial B] (src : List B) {n m : Nat} (hsrc : src.length ≤ n) (hm : m ≤ n) :
    (∀ junk junk' : Nat → B, (overwrite (uninit junk n) 0 src).take m =
      (overwrite (uninit junk' n) 0 src).take m) ↔ m ≤ src.length := by
  constructor
  · intro h
    by_contra hlt
    rw [Nat.not_le] at hlt
    obtain ⟨b, b', hne⟩ := exists_pair_ne B
    have hget : ∀ junk : Nat → B, ((overwrite (uninit junk n) 0 src).take m)[src.length]? =
        some (junk src.length) := fun junk => by
      rw [List.getElem?_take_of_lt hlt, get_overwrite_outside _ (.inr (by omega)), get_uninit junk (by omega)]
    have heq := congrArg (·[src.length]?) (h (fun _ => b) fun _ => b')
    rw [hget, hget] at heq
    exact hne (Option.some.inj heq)
  · intro hle junk junk'
    refine List.ext_getElem? fun i => ?_
    by_cases hi : i < m
    · have hread : ∀ junk : Nat → B, (overwrite (uninit junk n) 0 src)[i]? = src[i]? := fun junk => by
        have hfits : Fits (uninit junk n).length 0 src.length := ⟨Int.le_refl 0, by rw [length_uninit]; omega⟩
        exact get_overwrite_inside _ hfits (by omega) (by omega)
      rw [List.getElem?_take_of_lt hi, List.getElem?_take_of_lt hi, hread, hread]
    · rw [List.getElem?_eq_none (by rw [List.length_take]; omega),
        List.getElem?_eq_none (by rw [List.length_take]; omega)]

end Write

end Lzmq.Buffer
