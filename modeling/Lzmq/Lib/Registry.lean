/-
  Registries as lists of (key, value) entries, oldest first, with repeated keys allowed.

  What the three classic operations may do is stated as relations, because which of several entries
  of one key an operation picks is the implementation's choice:
    * `RemovesOne k l l'`    one entry of key `k` is gone and the rest is untouched, or there is none
                             and nothing changed;
    * `UpdatesOne k v l l'`  one entry of key `k` got the value `v` in place, or there is none and the
                             entry `(k, v)` was appended.
  The lemmas relate them to what array code does: erase at an index, set at an index, append.
-/
import Mathlib.Data.List.Basic

namespace Lzmq.Registry

/-- A successful search splits the list at the index it returns. -/
theorem findIdx?_split {α : Type} {p : α → Bool} {l : List α} {i : Nat} (h : l.findIdx? p = some i) :
    ∃ hi : i < l.length, p l[i] = true := by
  obtain ⟨hi, hp, -⟩ := List.findIdx?_eq_some_iff_getElem.mp h
  exact ⟨hi, hp⟩

theorem split_at_index {α : Type} {l : List α} {i : Nat} (hi : i < l.length) :
    l = l.take i ++ l[i] :: l.drop (i + 1) := by
  rw [← List.drop_eq_getElem_cons hi, List.take_append_drop]

variable {κ ε : Type}

/-- Exactly one entry of key `k` is deleted, or nothing when the key has none. -/
def RemovesOne (k : κ) (l l' : List (κ × ε)) : Prop :=
  (∃ pre v post, l = pre ++ (k, v) :: post ∧ l' = pre ++ post) ∨ (k ∉ l.map Prod.fst ∧ l' = l)

/-- One entry of key `k` gets the value `v` in place; `(k, v)` is appended when the key has none. -/
def UpdatesOne (k : κ) (v : ε) (l l' : List (κ × ε)) : Prop :=
  (∃ pre v₀ post, l = pre ++ (k, v₀) :: post ∧ l' = pre ++ (k, v) :: post) ∨
    (k ∉ l.map Prod.fst ∧ l' = l ++ [(k, v)])

/-- Leaving the registry alone removes one entry of `k` only when there is none. -/
theorem removesOne_self_iff {k : κ} {l : List (κ × ε)} : RemovesOne k l l ↔ k ∉ l.map Prod.fst := by
  constructor
  · rintro (⟨pre, v, post, h1, h2⟩ | h)
    · have := congrArg List.length (h1.symm.trans h2)
      simp at this
    · exact h.1
  · exact fun h => Or.inr ⟨h, rfl⟩

variable [DecidableEq κ]

/-- **Erasing at an index and filtering** removes exactly one entry of `k` iff that index holds an
    entry of `k` and the filter rejects no other entry. -/
theorem removesOne_erase_filter_iff {k : κ} {l : List (κ × ε)} {i : Nat} (hi : i < l.length)
    (f : κ × ε → Bool) :
    RemovesOne k l ((l.eraseIdx i).filter f) ↔ l[i].1 = k ∧ ∀ r ∈ l.eraseIdx i, f r = true := by
  have herase : l.eraseIdx i = l.take i ++ l.drop (i + 1) := List.eraseIdx_eq_take_drop_succ l i
  have hlen : (l.eraseIdx i).length + 1 = l.length := by rw [List.length_eraseIdx_of_lt hi]; omega
  have hfle := List.length_filter_le f (l.eraseIdx i)
  constructor
  · rintro (⟨pre, v, post, h1, h2⟩ | ⟨-, h2⟩)
    · have hl1 := congrArg List.length h1
      have hl2 := congrArg List.length h2
      rw [List.length_append, List.length_cons] at hl1
      rw [List.length_append] at hl2
      have hall : ∀ r ∈ l.eraseIdx i, f r = true :=
        List.length_filter_eq_length_iff.mp (by omega)
      refine ⟨?_, hall⟩
      rw [List.filter_eq_self.mpr hall, herase] at h2
      -- both splittings of `l` leave the same entries, so they take out the same key
      have hc := congrArg (List.countP fun r : κ × ε => decide (r.1 = k)) h2
      have hc1 := congrArg (List.countP fun r : κ × ε => decide (r.1 = k)) h1
      rw [split_at_index hi] at hc1
      simp only [List.countP_append, List.countP_cons] at hc hc1
      by_contra hne
      simp only [hne, decide_false, Bool.false_eq_true, if_false, decide_true, if_true] at hc1
      omega
    · have := congrArg List.length h2
      omega
  · rintro ⟨hk, hall⟩
    rw [List.filter_eq_self.mpr hall, herase]
    refine Or.inl ⟨l.take i, l[i].2, l.drop (i + 1), ?_, rfl⟩
    rw [← hk]
    exact split_at_index hi

omit [DecidableEq κ] in
/-- Setting the value at an index that holds an entry of `k`. -/
theorem updatesOne_set {k : κ} {v : ε} {l : List (κ × ε)} {i : Nat} (hi : i < l.length)
    (hk : l[i].1 = k) : UpdatesOne k v l (l.set i (k, v)) := by
  refine Or.inl ⟨l.take i, l[i].2, l.drop (i + 1), ?_, ?_⟩
  · rw [← hk]; exact split_at_index hi
  · rw [List.set_eq_take_append_cons_drop, if_pos hi]

end Lzmq.Registry
