/-
  Entries in no particular order: lists of (key, value) up to permutation.

  `del` and `put` are what a registry with one entry for each key does.  Array code does something else:
  it erases at an index, or moves the last element there, it overwrites an element, it appends.  On a list
  with different keys (`Unique`) all of these are `del` or `put` in some order, so two registries that keep
  their entries in different orders hold the same entries after the same operations.
-/
import Lzmq.Lib.Positions
import Mathlib.Data.List.Perm.Basic

namespace Lzmq.Assoc

variable {κ ε : Type}

/-- One entry for each key. -/
def Unique (l : List (κ × ε)) : Prop := (l.map Prod.fst).Nodup

theorem Unique.perm {l l' : List (κ × ε)} (h : Unique l) (hp : l.Perm l') : Unique l' :=
  (hp.map Prod.fst).nodup_iff.mp h

theorem unique_nil : Unique ([] : List (κ × ε)) := List.nodup_nil

/-- A key has one value. -/
theorem Unique.value {l : List (κ × ε)} (h : Unique l) {k : κ} {v w : ε} (hv : (k, v) ∈ l) (hw : (k, w) ∈ l) :
    v = w := congrArg Prod.snd (List.inj_on_of_nodup_map h hv hw rfl)

variable [DecidableEq κ]

/-- Looking up a key does not depend on the order. -/
theorem Unique.find?_perm {l l' : List (κ × ε)} (h : Unique l) (hp : l.Perm l') (k : κ) :
    l.find? (fun e => e.1 == k) = l'.find? fun e => e.1 == k := by
  cases hf : l.find? fun e => e.1 == k with
  | none =>
    symm
    rw [List.find?_eq_none] at hf ⊢
    exact fun e he => hf e (hp.mem_iff.mpr he)
  | some e =>
    have he := hp.mem_iff.mp (List.mem_of_find?_eq_some hf)
    have hk : (e.1 == k) = true := List.find?_some (p := fun e : κ × ε => e.1 == k) hf
    cases hf' : l'.find? fun e => e.1 == k with
    | none => exact absurd hk (List.find?_eq_none.mp hf' e he)
    | some e' =>
      have he' := List.mem_of_find?_eq_some hf'
      have hk' : (e'.1 == k) = true := List.find?_some (p := fun e : κ × ε => e.1 == k) hf'
      have hkey : e.1 = e'.1 := (eq_of_beq hk).trans (eq_of_beq hk').symm
      exact congrArg some (List.inj_on_of_nodup_map (h.perm hp) he he' hkey)

def del (k : κ) (l : List (κ × ε)) : List (κ × ε) := l.filter fun e => e.1 ≠ k

def put (k : κ) (v : ε) (l : List (κ × ε)) : List (κ × ε) := (k, v) :: del k l

theorem mem_del {k : κ} {l : List (κ × ε)} {e : κ × ε} : e ∈ del k l ↔ e ∈ l ∧ e.1 ≠ k := by
  rw [del, List.mem_filter, decide_eq_true_eq]

theorem del_of_not_mem {k : κ} {l : List (κ × ε)} (h : k ∉ l.map Prod.fst) : del k l = l := by
  refine List.filter_eq_self.mpr fun e he => decide_eq_true fun hk => h ?_
  rw [← hk]
  exact List.mem_map_of_mem he

theorem del_perm (k : κ) {l l' : List (κ × ε)} (h : l.Perm l') : (del k l).Perm (del k l') := h.filter _

theorem put_perm (k : κ) (v : ε) {l l' : List (κ × ε)} (h : l.Perm l') : (put k v l).Perm (put k v l') :=
  (del_perm k h).cons _

theorem unique_del (k : κ) {l : List (κ × ε)} (h : Unique l) : Unique (del k l) :=
  (List.filter_sublist.map Prod.fst).nodup h

theorem unique_put (k : κ) (v : ε) {l : List (κ × ε)} (h : Unique l) : Unique (put k v l) := by
  refine List.nodup_cons.mpr ⟨fun hk => ?_, unique_del k h⟩
  obtain ⟨e, he, hek⟩ := List.mem_map.mp hk
  exact (mem_del.mp he).2 hek

/-! ## What arrays do -/

section Arrays

variable {l : List (κ × ε)} {k : κ} {v : ε} {i : Nat}

/-- Appending the entry of a new key. -/
theorem append_perm (v : ε) (h : k ∉ l.map Prod.fst) : (l ++ [(k, v)]).Perm (put k v l) := by
  rw [put, del_of_not_mem h]
  exact List.perm_append_singleton _ _

/-- Erasing the entry of a key. -/
theorem eraseIdx_eq_del (hu : Unique l) (h : l[i]? = some (k, v)) : l.eraseIdx i = del k l := by
  induction l generalizing i with
  | nil => cases h
  | cons e l ih =>
    obtain ⟨hnot, hu'⟩ := List.nodup_cons.mp (show (e.1 :: l.map Prod.fst).Nodup from hu)
    cases i with
    | zero =>
      obtain rfl : e = (k, v) := Option.some.inj h
      have hdel := del_of_not_mem hnot
      rw [del, List.filter_cons_of_neg (by simp)]
      exact hdel.symm
    | succ i =>
      have hne : e.1 ≠ k := by
        intro hk
        have hmem : (k, v) ∈ l := List.mem_of_getElem? h
        rw [hk] at hnot
        exact hnot (List.mem_map_of_mem (f := Prod.fst) hmem)
      rw [List.eraseIdx_cons_succ, ih hu' h, del, del, List.filter_cons_of_pos (by simpa using hne)]

/-- Moving the last entry to the place of a removed one. -/
theorem swapRemove_perm_del (hu : Unique l) (h : l[i]? = some (k, v)) :
    (Positions.swapRemove l i).Perm (del k l) := by
  rw [← eraseIdx_eq_del hu h]
  exact Positions.swapRemove_perm (List.getElem?_eq_some_iff.mp h).1

/-- Overwriting the entry of a key. -/
theorem set_perm_put (hu : Unique l) (h : l[i]? = some (k, v)) (w : ε) :
    (l.set i (k, w)).Perm (put k w l) := by
  rw [put, ← eraseIdx_eq_del hu h]
  exact List.set_perm_cons_eraseIdx (List.getElem?_eq_some_iff.mp h).1 _

end Arrays

end Lzmq.Assoc
