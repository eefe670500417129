/-
  A list of keys and a table that says where each key is.

  `Indexed l pos` says that the two are inverse to each other: every key of the list has a position in
  the table, and every position in the table holds its key.  A key may occur several times; the table
  knows one of its positions.

  Appending keeps the two inverse when the table is pointed at the new position.  Removal by swapping
  with the last element (`swapRemove`) does so exactly when the removed key occurs once: the table
  forgets the key, and a second occurrence would be left without a position.
-/
import Mathlib.Data.List.Basic
import Mathlib.Data.List.InsertIdx
import Mathlib.Data.List.Nodup
import Mathlib.Logic.Function.Basic

namespace Lzmq.Positions

/-! ## Swapping with the last element -/

variable {α : Type}

/-- Overwrite position `i` by the last element and drop the last position. -/
def swapRemove (l : List α) (i : Nat) : List α :=
  match l.getLast? with
  | none => []
  | some x => (l.set i x).dropLast

theorem swapRemove_concat (l : List α) (x : α) (i : Nat) :
    swapRemove (l ++ [x]) i = ((l ++ [x]).set i x).dropLast := by
  rw [swapRemove, List.getLast?_concat]

/-- What is left, position by position. -/
theorem getElem?_swapRemove {l : List α} {i j : Nat} (hj : j + 1 < l.length) :
    (swapRemove l i)[j]? = if j = i then l[l.length - 1]? else l[j]? := by
  rcases List.eq_nil_or_concat l with rfl | ⟨l, x, rfl⟩
  · simp at hj
  · rw [List.concat_eq_append] at hj ⊢
    rw [List.length_append, List.length_singleton] at hj ⊢
    rw [swapRemove_concat, List.getElem?_dropLast, List.length_set, List.length_append,
      List.length_singleton, if_pos (by omega), List.getElem?_set, Nat.add_sub_cancel,
      List.getElem?_append_right (Nat.le_refl _), Nat.sub_self]
    by_cases hji : j = i
    · rw [if_pos hji.symm, if_pos hji, if_pos (by rw [List.length_append, List.length_singleton]; omega)]
      rfl
    · rw [if_neg (Ne.symm hji), if_neg hji]

theorem map_swapRemove {β : Type} (f : α → β) (l : List α) (i : Nat) :
    (swapRemove l i).map f = swapRemove (l.map f) i := by
  rcases List.eq_nil_or_concat l with rfl | ⟨l, x, rfl⟩
  · rfl
  · rw [List.concat_eq_append, swapRemove_concat, List.map_append, List.map_singleton, swapRemove_concat,
      List.map_dropLast, List.map_set, List.map_append, List.map_singleton]

/-- The element at position `i` is gone and the others stay, in some order. -/
theorem swapRemove_perm {l : List α} {i : Nat} (hi : i < l.length) :
    (swapRemove l i).Perm (l.eraseIdx i) := by
  rcases List.eq_nil_or_concat l with rfl | ⟨l, x, rfl⟩
  · cases hi
  · rw [List.concat_eq_append] at hi ⊢
    rw [List.length_append, List.length_singleton] at hi
    rw [swapRemove_concat]
    rcases Nat.lt_or_ge i l.length with hlt | hge
    · rw [List.set_append_left _ _ hlt, List.dropLast_concat, List.eraseIdx_append_of_lt_length hlt,
        List.set_eq_take_append_cons_drop, if_pos hlt, List.eraseIdx_eq_take_drop_succ, List.append_assoc]
      apply List.Perm.append_left _
      exact (List.perm_append_singleton x (l.drop (i + 1))).symm
    · obtain rfl : i = l.length := by omega
      rw [List.set_append_right _ _ (Nat.le_refl _), Nat.sub_self, List.set_cons_zero,
        List.dropLast_concat, List.eraseIdx_append_of_length_le (Nat.le_refl _), Nat.sub_self]
      simp

/-- In a list without repetitions an element has one position. -/
theorem position_unique {l : List α} (h : l.Nodup) {a : α} {i j : Nat} (hi : l[i]? = some a)
    (hj : l[j]? = some a) : i = j := by
  obtain ⟨hlt, rfl⟩ := List.getElem?_eq_some_iff.mp hi
  obtain ⟨_, hget⟩ := List.getElem?_eq_some_iff.mp hj
  exact (h.getElem_inj_iff.mp hget).symm

/-! ## Tables of positions -/

variable {κ : Type} [DecidableEq κ]

/-- The table `pos` and the list `l` are inverse to each other. -/
structure Indexed (l : List κ) (pos : κ → Option Nat) : Prop where
  total : ∀ k ∈ l, pos k ≠ none
  sound : ∀ k i, pos k = some i → l[i]? = some k

omit [DecidableEq κ] in
theorem indexed_nil : Indexed ([] : List κ) fun _ => none where
  total _ h := absurd h List.not_mem_nil
  sound _ _ h := by cases h

/-- Appending a key and pointing the table at it. -/
theorem Indexed.append {l : List κ} {pos : κ → Option Nat} (h : Indexed l pos) (k : κ) :
    Indexed (l ++ [k]) (Function.update pos k (some l.length)) where
  total j hj := by
    by_cases hjk : j = k
    · rw [hjk, Function.update_self]
      simp
    · rw [Function.update_of_ne hjk]
      rcases List.mem_append.mp hj with hj | hj
      · exact h.total j hj
      · exact absurd (List.mem_singleton.mp hj) hjk
  sound j i hj := by
    by_cases hjk : j = k
    · rw [hjk, Function.update_self, Option.some.injEq] at hj
      rw [hjk, ← hj, List.getElem?_concat_length]
    · rw [Function.update_of_ne hjk] at hj
      have hget := h.sound j i hj
      obtain ⟨hlt, -⟩ := List.getElem?_eq_some_iff.mp hget
      rw [List.getElem?_append_left hlt, hget]

/-- Forget `k`, then point the key that was last at position `i`. -/
def moved (pos : κ → Option Nat) (k last : κ) (i : Nat) : κ → Option Nat :=
  Function.update (Function.update pos k none) last (some i)

theorem count_eraseIdx_succ {l : List κ} {k : κ} {i : Nat} (hi : l[i]? = some k) :
    l.count k = (l.eraseIdx i).count k + 1 := by
  obtain ⟨hlt, hget⟩ := List.getElem?_eq_some_iff.mp hi
  have hperm := List.erase_getElem hlt
  rw [hget] at hperm
  have hcount := hperm.count_eq k
  rw [List.count_erase_self] at hcount
  have hpos : 0 < l.count k := List.count_pos_iff.mpr (List.mem_of_getElem? hi)
  omega

/-- **Removing a key that occurs once**, not from the last position. -/
theorem Indexed.swapRemove {l : List κ} {pos : κ → Option Nat} (h : Indexed l pos) {k last : κ} {i : Nat}
    (hk : pos k = some i) (hone : l.count k = 1) (hi : i + 1 < l.length)
    (hlast : l[l.length - 1]? = some last) :
    Indexed (swapRemove l i) (moved pos k last i) := by
  have hki := h.sound k i hk
  have huniq : ∀ j, l[j]? = some k → j = i := by
    intro j hj
    by_contra hne
    have hmem : k ∈ l.eraseIdx i := List.mem_eraseIdx_iff_getElem?.mpr ⟨j, hne, hj⟩
    have hpos := List.count_pos_iff.mpr hmem
    have := count_eraseIdx_succ hki
    omega
  have hne : last ≠ k := by
    rintro rfl
    have := huniq _ hlast
    omega
  constructor
  · intro j hj
    have hmem := (swapRemove_perm (by omega)).mem_iff.mp hj
    obtain ⟨m, hm, hget⟩ := List.mem_eraseIdx_iff_getElem?.mp hmem
    rw [moved]
    by_cases hjl : j = last
    · rw [hjl, Function.update_self]
      simp
    · rw [Function.update_of_ne hjl]
      by_cases hjk : j = k
      · rw [hjk] at hget
        exact absurd (huniq m hget) hm
      · rw [Function.update_of_ne hjk]
        exact h.total j (List.mem_of_getElem? hget)
  · intro j m hj
    rw [moved] at hj
    by_cases hjl : j = last
    · rw [hjl, Function.update_self, Option.some.injEq] at hj
      rw [← hj, getElem?_swapRemove hi, if_pos rfl, hlast, hjl]
    · rw [Function.update_of_ne hjl] at hj
      by_cases hjk : j = k
      · rw [hjk, Function.update_self] at hj
        cases hj
      · rw [Function.update_of_ne hjk] at hj
        have hget := h.sound j m hj
        obtain ⟨hlt, -⟩ := List.getElem?_eq_some_iff.mp hget
        have hm : m ≠ l.length - 1 := by
          rintro rfl
          exact hjl (Option.some.inj (hget.symm.trans hlast))
        have hmi : m ≠ i := by
          rintro rfl
          exact hjk (Option.some.inj (hget.symm.trans hki))
        rw [getElem?_swapRemove (by omega), if_neg hmi, hget]

/-- Removing a key that occurs once, from the last position. -/
theorem Indexed.dropLast {l : List κ} {pos : κ → Option Nat} (h : Indexed l pos) {k : κ}
    (hk : pos k = some (l.length - 1)) (hone : l.count k = 1) :
    Indexed (l.take (l.length - 1)) (Function.update pos k none) := by
  have hki := h.sound k _ hk
  have hcount := count_eraseIdx_succ hki
  obtain ⟨hlt, -⟩ := List.getElem?_eq_some_iff.mp hki
  have htake : l.eraseIdx (l.length - 1) = l.take (l.length - 1) := by
    rw [List.eraseIdx_eq_take_drop_succ, List.drop_eq_nil_of_le (by omega), List.append_nil]
  rw [htake] at hcount
  constructor
  · intro j hj
    by_cases hjk : j = k
    · rw [hjk] at hj
      have := List.count_pos_iff.mpr hj
      omega
    · rw [Function.update_of_ne hjk]
      exact h.total j (List.mem_of_mem_take hj)
  · intro j m hj
    by_cases hjk : j = k
    · rw [hjk, Function.update_self] at hj
      cases hj
    · rw [Function.update_of_ne hjk] at hj
      have hget := h.sound j m hj
      obtain ⟨hm, -⟩ := List.getElem?_eq_some_iff.mp hget
      have hne : m ≠ l.length - 1 := by
        rintro rfl
        exact hjk (Option.some.inj (hget.symm.trans hki))
      rw [List.getElem?_take, if_pos (by omega), hget]

/-- A key that occurs twice is left without a position. -/
theorem not_indexed_of_count {l l' : List κ} {pos' : κ → Option Nat} {k : κ} {i : Nat}
    (hi : l[i]? = some k) (htwo : 2 ≤ l.count k) (hl' : l'.Perm (l.eraseIdx i)) (hpos' : pos' k = none) :
    ¬ Indexed l' pos' := by
  intro h
  have hcount := count_eraseIdx_succ hi
  have hmem : k ∈ l' := hl'.mem_iff.mpr (List.count_pos_iff.mp (by omega))
  exact h.total k hmem hpos'

end Lzmq.Positions
