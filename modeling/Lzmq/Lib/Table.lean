/-
  Lua tables at integer keys.

  A table maps integers to values or nil; only finitely many keys are set, which the structure carries
  as a bound above which every key is nil.  The length operator `#t` returns a BORDER: 0 if `t[1]` is
  nil, else a positive `n` with `t[n]` set and `t[n+1]` nil.  A table may have several borders and Lua
  may return any of them; `border` is the least one, and where the positive keys that are set are
  exactly `1 … n`, `n` is the only border (`IsBorder.eq_of_filled`).

  `Holds t l` says that `t` stores the list `l` at the keys `0, 1, …` and nothing elsewhere: C indices
  used as Lua keys.  `shiftDown` is the loop `for i = i, n do t[i] = t[i+1] end`; `Holds.shiftDown`
  says that run up to the border it deletes one element, although `#t` does not count key 0.
-/
import Mathlib.Data.List.Basic

namespace Lzmq

variable {V : Type}

/-- A Lua table at integer keys. -/
structure LuaTable (V : Type) where
  get : Int → Option V
  top : Nat
  /-- Keys above `top` are nil. -/
  above : ∀ i : Int, top < i → get i = none

namespace LuaTable

def empty : LuaTable V := ⟨fun _ => none, 0, fun _ _ => rfl⟩

/-- `t[i] = v`; `none` stores nil. -/
def set (t : LuaTable V) (i : Int) (v : Option V) : LuaTable V where
  get j := if j = i then v else t.get j
  top := max t.top i.toNat
  above j hj := by
    have h1 : t.top ≤ max t.top i.toNat := Nat.le_max_left _ _
    have h2 : i.toNat ≤ max t.top i.toNat := Nat.le_max_right _ _
    rw [if_neg (by omega)]
    exact t.above j (by omega)

@[simp] theorem get_empty (i : Int) : (empty : LuaTable V).get i = none := rfl

theorem get_set (t : LuaTable V) (i j : Int) (v : Option V) :
    (t.set i v).get j = if j = i then v else t.get j := rfl

/-! ## The length operator -/

/-- What Lua's manual asks of the value of `#t`. -/
def IsBorder (t : LuaTable V) (n : Nat) : Prop :=
  (n = 0 ∨ t.get n ≠ none) ∧ t.get ((n : Int) + 1) = none

/-- Scan upwards from `n`. -/
def borderFrom (t : LuaTable V) : Nat → Nat → Nat
  | n, 0 => n
  | n, k + 1 => if (t.get ((n : Int) + 1)).isSome then borderFrom t (n + 1) k else n

/-- `#t` -/
def border (t : LuaTable V) : Nat := borderFrom t 0 t.top

theorem borderFrom_isBorder (t : LuaTable V) :
    ∀ k n : Nat, t.top ≤ n + k → (n = 0 ∨ t.get n ≠ none) → t.IsBorder (borderFrom t n k) := by
  intro k
  induction k with
  | zero =>
    intro n hn h
    have hlt : (t.top : Int) < (n : Int) + 1 := by omega
    exact ⟨h, t.above _ hlt⟩
  | succ k ih =>
    intro n hn h
    rw [borderFrom]
    by_cases hs : (t.get ((n : Int) + 1)).isSome = true
    · rw [if_pos hs]
      refine ih (n + 1) (by omega) (Or.inr ?_)
      intro hnone
      rw [Int.natCast_add, Int.natCast_one] at hnone
      rw [hnone] at hs
      exact Bool.noConfusion hs
    · rw [if_neg hs]
      exact ⟨h, by simpa using hs⟩

theorem border_isBorder (t : LuaTable V) : t.IsBorder t.border :=
  borderFrom_isBorder t t.top 0 (by omega) (Or.inl rfl)

/-- Where the positive keys that are set are exactly `1 … n`, the only border is `n`. -/
theorem IsBorder.eq_of_filled {t : LuaTable V} {m n : Nat} (hm : t.IsBorder m)
    (hset : ∀ i : Nat, 0 < i → (t.get i ≠ none ↔ i ≤ n)) : m = n := by
  obtain ⟨hlast, hnext⟩ := hm
  have h1 : ¬ m + 1 ≤ n := by
    intro hle
    have := (hset (m + 1) (by omega)).mpr hle
    rw [Int.natCast_add, Int.natCast_one] at this
    exact this hnext
  rcases hlast with h0 | h0
  · omega
  · rcases Nat.eq_zero_or_pos m with hz | hz
    · omega
    · have := (hset m hz).mp h0
      omega

/-! ## Lists at the keys 0, 1, … -/

/-- The table stores `l` at the keys `0 … l.length - 1` and nothing at any other integer key. -/
def Holds (t : LuaTable V) (l : List V) : Prop :=
  ∀ j : Int, t.get j = if 0 ≤ j then l[j.toNat]? else none

theorem Holds.get_nat {t : LuaTable V} {l : List V} (h : t.Holds l) (i : Nat) : t.get i = l[i]? := by
  rw [h, if_pos (Int.natCast_nonneg i), Int.toNat_natCast]

theorem Holds.get_neg {t : LuaTable V} {l : List V} (h : t.Holds l) {j : Int} (hj : j < 0) :
    t.get j = none := by
  rw [h, if_neg (by omega)]

theorem holds_empty : (empty : LuaTable V).Holds [] := by
  intro j
  rw [get_empty]
  split <;> rfl

/-- `#` misses key 0: it is one less than the number of elements. -/
theorem Holds.border_eq {t : LuaTable V} {l : List V} (h : t.Holds l) : t.border = l.length - 1 := by
  refine t.border_isBorder.eq_of_filled fun i hi => ?_
  rw [h.get_nat, ne_eq, List.getElem?_eq_none_iff]
  omega

theorem Holds.append {t : LuaTable V} {l : List V} (h : t.Holds l) (v : V) :
    (t.set l.length (some v)).Holds (l ++ [v]) := by
  intro j
  rw [get_set, h]
  by_cases hj : 0 ≤ j
  · rw [if_pos hj, if_pos hj, List.getElem?_append]
    rcases Int.lt_trichotomy j l.length with hlt | heq | hgt
    · rw [if_neg (by omega), if_pos (by omega)]
    · rw [if_pos heq, if_neg (by omega), heq, Int.toNat_natCast, Nat.sub_self]; rfl
    · rw [if_neg (by omega), if_neg (by omega), List.getElem?_eq_none (by omega),
        List.getElem?_eq_none (by rw [List.length_singleton]; omega)]
  · rw [if_neg hj, if_neg hj, if_neg (by omega)]

theorem Holds.set {t : LuaTable V} {l : List V} (h : t.Holds l) {i : Nat} (hi : i < l.length) (v : V) :
    (t.set i (some v)).Holds (l.set i v) := by
  intro j
  rw [get_set, h]
  by_cases hj : 0 ≤ j
  · rw [if_pos hj, if_pos hj]
    by_cases hji : j = i
    · rw [if_pos hji, hji, Int.toNat_natCast, List.getElem?_set_self hi]
    · rw [if_neg hji, List.getElem?_set_ne (by omega)]
  · rw [if_neg hj, if_neg hj, if_neg (by omega)]

/-! ## The shifting loop -/

/-- `k` iterations of `t[i] = t[i+1]`, from `i` upwards. -/
def shiftDown (t : LuaTable V) (i : Int) : Nat → LuaTable V
  | 0 => t
  | k + 1 => shiftDown (t.set i (t.get (i + 1))) (i + 1) k

theorem get_shiftDown :
    ∀ (k : Nat) (t : LuaTable V) (i j : Int),
      (t.shiftDown i k).get j = if i ≤ j ∧ j < i + k then t.get (j + 1) else t.get j := by
  intro k
  induction k with
  | zero => intro t i j; rw [shiftDown, if_neg (by omega)]
  | succ k ih =>
    intro t i j
    rw [shiftDown, ih]
    by_cases hin : i + 1 ≤ j ∧ j < i + 1 + k
    · rw [if_pos hin, if_pos (by omega), get_set, if_neg (by omega)]
    · rw [if_neg hin, get_set]
      by_cases hji : j = i
      · rw [if_pos hji, if_pos (by omega), hji]
      · rw [if_neg hji, if_neg (by omega)]

/-- `for i = i, #t do t[i] = t[i+1] end` -/
def shiftFrom (t : LuaTable V) (i : Int) : LuaTable V := t.shiftDown i ((t.border : Int) - i + 1).toNat

/-- Shifting from an index in use deletes the element stored there. -/
theorem Holds.shiftFrom {t : LuaTable V} {l : List V} (h : t.Holds l) {i : Nat} (hi : i < l.length) :
    (t.shiftFrom i).Holds (l.eraseIdx i) := by
  intro j
  rw [LuaTable.shiftFrom, h.border_eq, get_shiftDown]
  by_cases hj : 0 ≤ j
  · rw [if_pos hj, List.getElem?_eraseIdx]
    by_cases hji : j < i
    · rw [if_neg (by omega), if_pos (by omega), h, if_pos hj]
    · have hnext : t.get (j + 1) = l[j.toNat + 1]? := by
        rw [h, if_pos (by omega), Int.toNat_add hj (by omega)]; rfl
      rw [if_neg (show ¬ j.toNat < i by omega), ← hnext]
      by_cases hend : j < l.length
      · rw [if_pos (by omega)]
      · rw [if_neg (by omega), h, h, if_pos hj, if_pos (by omega), List.getElem?_eq_none (by omega),
          List.getElem?_eq_none (by omega)]
  · rw [if_neg hj, if_neg (by omega), h.get_neg (by omega)]

/-- Shifting from -1 moves the first element below 0: what a search that found nothing does. -/
theorem Holds.get_shiftFrom_neg {t : LuaTable V} {l : List V} (h : t.Holds l) :
    (t.shiftFrom (-1)).get (-1) = l[0]? := by
  rw [LuaTable.shiftFrom, get_shiftDown, if_pos (by omega)]
  exact h.get_nat 0

end LuaTable

end Lzmq
