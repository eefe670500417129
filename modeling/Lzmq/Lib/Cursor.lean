/-
  A walk by index over a list that changes while it is walked.

  The walk stands at index `i` of the list `l`, and `pending l i` is what it has still to look at.  It
  passes the element at `i` (`pending_succ`), or removes it and stays where it is (`pending_eraseIdx`:
  the same elements are left), and things may be appended (`mem_pending_append`).  So an element that is
  listed once stays pending until it is looked at, and is not pending after that (`not_mem_pending`).

  `removeDown` is the other walk, from the end, that removes what satisfies a test: downwards a removal
  only moves what was already looked at, and the result is a filter.
-/
import Mathlib.Data.List.Induction
import Mathlib.Data.List.Nodup

namespace Lzmq.Cursor

variable {α : Type}

/-! ## Upwards -/

/-- What a walk at index `i` has still to look at. -/
def pending (l : List α) (i : Nat) : List α := l.drop i

theorem pending_eq_cons {l : List α} {i : Nat} {x : α} (h : l[i]? = some x) :
    pending l i = x :: pending l (i + 1) := by
  obtain ⟨hi, hx⟩ := List.getElem?_eq_some_iff.mp h
  unfold pending
  rw [List.drop_eq_getElem_cons hi, hx]

theorem pending_eq_nil {l : List α} {i : Nat} (h : l[i]? = none) : pending l i = [] :=
  List.drop_eq_nil_of_le (List.getElem?_eq_none_iff.mp h)

/-- The walk passes an element: every other one is still pending. -/
theorem pending_succ {l : List α} {i : Nat} {x y : α} (h : l[i]? = some x) (hy : y ∈ pending l i)
    (hne : y ≠ x) : y ∈ pending l (i + 1) := by
  rw [pending_eq_cons h] at hy
  exact (List.mem_cons.mp hy).resolve_left hne

/-- Removing the element at the index leaves the same elements pending as passing it. -/
theorem pending_eraseIdx (l : List α) (i : Nat) : pending (l.eraseIdx i) i = pending l (i + 1) := by
  unfold pending
  rcases Nat.lt_or_ge i l.length with hi | hi
  · rw [List.eraseIdx_eq_take_drop_succ, List.drop_append, List.length_take, Nat.min_eq_left (by omega),
      Nat.sub_self, List.drop_zero, List.drop_eq_nil_of_le, List.nil_append]
    rw [List.length_take]
    omega
  · rw [List.eraseIdx_of_length_le hi, List.drop_eq_nil_of_le hi, List.drop_eq_nil_of_le (by omega)]

/-- A removal keeps every other element. -/
theorem mem_eraseIdx_of_ne {l : List α} {i : Nat} {x y : α} (hy : l[i]? = some y) (hx : x ∈ l)
    (hne : x ≠ y) : x ∈ l.eraseIdx i := by
  obtain ⟨j, hj⟩ := List.getElem?_of_mem hx
  refine List.mem_eraseIdx_iff_getElem?.mpr ⟨j, ?_, hj⟩
  rintro rfl
  exact hne (Option.some.inj (hj.symm.trans hy))

theorem mem_pending_append {l : List α} {i : Nat} {x : α} (xs : List α) (h : x ∈ pending l i) :
    x ∈ pending (l ++ xs) i := by
  unfold pending at h ⊢
  rw [List.drop_append]
  exact List.mem_append_left _ h

theorem not_mem_pending_append {l xs : List α} {i : Nat} {x : α} (h : x ∉ pending l i) (hxs : x ∉ xs) :
    x ∉ pending (l ++ xs) i := by
  unfold pending at h ⊢
  rw [List.drop_append, List.mem_append, not_or]
  exact ⟨h, fun hmem => hxs (List.mem_of_mem_drop hmem)⟩

theorem not_mem_pending_succ {l : List α} {i : Nat} {x : α} (h : x ∉ pending l i) :
    x ∉ pending l (i + 1) := by
  have hdrop : pending l (i + 1) = (pending l i).drop 1 := by
    unfold pending
    rw [List.drop_drop]
  rw [hdrop]
  exact fun hmem => h (List.mem_of_mem_drop hmem)

/-- **Looked at once.**  What the walk has passed is not pending any more. -/
theorem not_mem_pending {l : List α} (hnd : l.Nodup) {i : Nat} {x : α} (h : l[i]? = some x) :
    x ∉ pending l (i + 1) := by
  have hdrop : (pending l i).Nodup := (List.drop_sublist i l).nodup hnd
  rw [pending_eq_cons h, List.nodup_cons] at hdrop
  exact hdrop.1

/-! ## Downwards -/

/-- `for i = n-1, 0, -1`: remove the element at `i` if it satisfies `p`. -/
def removeDown (p : α → Bool) : Nat → List α → List α
  | 0, l => l
  | i + 1, l =>
    match l[i]? with
    | none => removeDown p i l
    | some x => if p x then removeDown p i (l.eraseIdx i) else removeDown p i l

theorem removeDown_append (p : α → Bool) : ∀ l r : List α,
    removeDown p l.length (l ++ r) = l.filter (fun x => !p x) ++ r := by
  intro l
  induction l using List.reverseRecOn with
  | nil => intro r; rfl
  | append_singleton l x ih =>
    intro r
    have hget : (l ++ [x] ++ r)[l.length]? = some x := by
      rw [List.append_assoc, List.getElem?_append_right (Nat.le_refl _), Nat.sub_self]
      rfl
    have herase : (l ++ [x] ++ r).eraseIdx l.length = l ++ r := by
      rw [List.append_assoc, List.eraseIdx_append_of_length_le (Nat.le_refl _), Nat.sub_self]
      rfl
    rw [List.length_append, List.length_singleton, removeDown, hget, List.filter_append]
    show (if p x = true then removeDown p l.length ((l ++ [x] ++ r).eraseIdx l.length)
      else removeDown p l.length (l ++ [x] ++ r)) = _
    by_cases hp : p x = true
    · rw [if_pos hp, herase, ih r, List.filter_cons_of_neg (by rw [hp]; decide), List.filter_nil,
        List.append_nil]
    · rw [if_neg hp, List.append_assoc, ih ([x] ++ r),
        List.filter_cons_of_pos (by rw [Bool.not_eq_true] at hp; rw [hp]; rfl), List.filter_nil,
        List.append_assoc]

/-- The whole list walked down is a filter. -/
theorem removeDown_eq_filter (p : α → Bool) (l : List α) :
    removeDown p l.length l = l.filter fun x => !p x := by
  have h := removeDown_append p l []
  rwa [List.append_nil, List.append_nil] at h

end Lzmq.Cursor
