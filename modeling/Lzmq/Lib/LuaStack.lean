/-
  The stack of the Lua C API, as a list with the top first.

  C code names a slot from the bottom (a positive index, fixed while the stack grows) or from the top (a
  negative one, which moves with every push).  `Idx.abs n` is the index `n`, `Idx.top n` the index `-n`.
  The lemmas say what a slot holds when the slots around it are known; all else is list arithmetic.
-/
import Mathlib.Data.List.Basic

namespace Lzmq.LuaStack

/-- `n`, or `-n`. -/
inductive Idx
  | abs (n : Nat)
  | top (n : Nat)

variable {V : Type}

/-- The value in a slot; `none` is LUA_TNONE. -/
def get (st : List V) : Idx → Option V
  | .abs n => if 0 < n ∧ n ≤ st.length then st[st.length - n]? else none
  | .top n => if 0 < n then st[n - 1]? else none

/-- `lua_settop` -/
def settop (nil : V) (n : Nat) (st : List V) : List V :=
  if st.length ≤ n then List.replicate (n - st.length) nil ++ st else st.drop (st.length - n)

/-- `lua_insert(L, -n)` -/
def insert (n : Nat) : List V → List V
  | [] => []
  | x :: st => st.take (n - 1) ++ x :: st.drop (n - 1)

/-- What a call that asks for `n` results gets of the results returned. -/
def adjust (nil : V) (n : Nat) (results : List V) : List V :=
  (results ++ List.replicate (n - results.length) nil).take n

/-- The stack after results have been pushed, the first one first. -/
def pushResults (results st : List V) : List V := results.reverse ++ st

/-- What a C function returns with `return n`. -/
def results (n : Nat) (st : List V) : List V := (st.take n).reverse

/-! ## Slots next to the top -/

section Slots

variable (a b c x : V) (st : List V)

@[simp] theorem get_top_one : get (a :: st) (.top 1) = some a := rfl

@[simp] theorem get_top_two : get (a :: b :: st) (.top 2) = some b := rfl

@[simp] theorem get_top_three : get (a :: b :: c :: st) (.top 3) = some c := rfl

/-- A slot that is known from the bottom. -/
theorem get_abs (pre : List V) {n : Nat} (h : n = st.length + 1) :
    get (pre ++ x :: st) (.abs n) = some x := by
  have hlen : (pre ++ x :: st).length = pre.length + n := by rw [List.length_append, List.length_cons, h]
  rw [get, if_pos ⟨by omega, by omega⟩, hlen, Nat.add_sub_cancel, List.getElem?_append_right (Nat.le_refl _),
    Nat.sub_self]
  rfl

@[simp] theorem get_abs_top : get (x :: st) (.abs (st.length + 1)) = some x := get_abs x st [] rfl

@[simp] theorem get_abs_one : get (a :: x :: st) (.abs (st.length + 1)) = some x := get_abs x st [a] rfl

@[simp] theorem get_abs_two : get (a :: b :: x :: st) (.abs (st.length + 1)) = some x :=
    get_abs x st [a, b] rfl

@[simp] theorem get_abs_three : get (a :: b :: c :: x :: st) (.abs (st.length + 1)) = some x :=
  get_abs x st [a, b, c] rfl

/-- More values do not move a slot that is named from the bottom. -/
theorem get_abs_append (pre : List V) {n : Nat} (h : n ≤ st.length) :
    get (pre ++ st) (.abs n) = get st (.abs n) := by
  rw [get, get, List.length_append]
  by_cases hn : 0 < n
  · rw [if_pos ⟨hn, by omega⟩, if_pos ⟨hn, h⟩, List.getElem?_append_right (by omega)]
    congr 1
    omega
  · rw [if_neg fun hp => hn hp.1, if_neg fun hp => hn hp.1]

theorem le_length_of_get {n : Nat} (h : get st (.abs n) = some x) : n ≤ st.length := by
  rw [get] at h
  split at h
  next hn => exact hn.2
  · cases h

/-- The arguments of a call, from the bottom. -/
theorem get_reverse (args : List V) (n : Nat) : get args.reverse (.abs (n + 1)) = args[n]? := by
  rw [get, List.length_reverse]
  by_cases hn : n < args.length
  · rw [if_pos ⟨by omega, by omega⟩, List.getElem?_reverse (by omega)]
    congr 1
    omega
  · rw [if_neg (by omega), List.getElem?_eq_none (by omega)]

theorem settop_length (nil : V) (pre : List V) : settop nil st.length (pre ++ st) = st := by
  rw [settop, List.length_append]
  by_cases h : pre.length + st.length ≤ st.length
  · have hpre : pre = [] := List.length_eq_zero_iff.mp (by omega)
    subst hpre
    simp
  · rw [if_neg h, Nat.add_sub_cancel, List.drop_left]

@[simp] theorem insert_two : insert 2 (a :: b :: st) = b :: a :: st := rfl

@[simp] theorem insert_three : insert 3 (a :: b :: c :: st) = b :: c :: a :: st := rfl

end Slots

end Lzmq.LuaStack
