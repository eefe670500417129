/-
  A counter that keeps up with a list: the number of its live entries.

  Entries are appended and replaced, never removed.  Each rule says what the counter has to do for it to be
  right again: nothing when an entry stays live or stays dead, one up or one down when it changes.
-/
import Mathlib.Data.List.Basic

namespace Lzmq.Ledger

variable {α : Type} {live : α → Bool} {l : List α} {n : Int}

/-- The counter is right. -/
def Balanced (live : α → Bool) (l : List α) (n : Int) : Prop := n = l.countP live

theorem balanced_nil : Balanced live [] 0 := rfl

theorem Balanced.nonneg (h : Balanced live l n) : 0 ≤ n := by
  rw [h]
  exact Int.natCast_nonneg _

/-- A live entry has been counted. -/
theorem Balanced.pos (h : Balanced live l n) {a : α} (ha : a ∈ l) (hlive : live a = true) : 1 ≤ n := by
  have hpos : 0 < l.countP live := List.countP_pos_iff.mpr ⟨a, ha, hlive⟩
  rw [h]
  omega

theorem Balanced.append (h : Balanced live l n) (a : α) :
    Balanced live (l ++ [a]) (n + if live a then 1 else 0) := by
  rw [Balanced, List.countP_append, List.countP_singleton, h]
  by_cases ha : live a = true
  · rw [if_pos ha, if_pos ha]
    rfl
  · rw [if_neg ha, if_neg ha]
    rfl

section Set

variable {i : Nat} {a b : α} (h : Balanced live l n) (ha : l[i]? = some a)
include h ha

/-- The replacement of an entry. -/
theorem Balanced.set :
    Balanced live (l.set i b) (n - (if live a then 1 else 0) + if live b then 1 else 0) := by
  obtain ⟨hi, hget⟩ := List.getElem?_eq_some_iff.mp ha
  rw [Balanced, List.countP_set hi, hget]
  by_cases hlive : live a = true
  · have hpos := h.pos (List.mem_of_getElem? ha) hlive
    rw [Balanced] at h
    rw [if_pos hlive, if_pos hlive]
    by_cases hb : live b = true
    · rw [if_pos hb, if_pos hb]
      omega
    · rw [if_neg hb, if_neg hb]
      omega
  · rw [Balanced] at h
    rw [if_neg hlive, if_neg hlive]
    by_cases hb : live b = true
    · rw [if_pos hb, if_pos hb]
      omega
    · rw [if_neg hb, if_neg hb]
      omega

theorem Balanced.set_same (hb : live b = live a) : Balanced live (l.set i b) n := by
  have hset := h.set ha (b := b)
  rw [hb] at hset
  rwa [Int.sub_add_cancel] at hset

theorem Balanced.set_dead (hlive : live a = true) (hb : live b = false) :
    Balanced live (l.set i b) (n - 1) := by
  have hset := h.set ha (b := b)
  rwa [if_pos hlive, if_neg (Bool.eq_false_iff.mp hb), Int.add_zero] at hset

/-- The replacement of an entry, when the counter does not move: it stays right only if the entry stays live
    or stays dead. -/
theorem Balanced.set_iff : Balanced live (l.set i b) n ↔ live b = live a := by
  refine ⟨fun hn => ?_, h.set_same ha⟩
  have hset := h.set ha (b := b)
  rw [Balanced] at hset hn
  rw [← hn] at hset
  by_cases hlive : live a = true
  · by_cases hb : live b = true
    · rw [hlive, hb]
    · rw [if_pos hlive, if_neg hb] at hset
      omega
  · by_cases hb : live b = true
    · rw [if_neg hlive, if_pos hb] at hset
      omega
    · rw [Bool.eq_false_iff.mpr hlive, Bool.eq_false_iff.mpr hb]

end Set

end Lzmq.Ledger
