/-
  Names that holders take, one after the other, and give up when they leave.

  A service remembers for each name the holder that took it last, and forgets a name when that holder leaves.
  `Serves` says what it finds in terms of the holders alone: the last one that took the name, if it is still
  there.  Of some names the service refuses to give a second one out (`Once`); of these, every holder that is
  still there is found (`find_iff`).
-/
import Mathlib.Data.List.Basic

namespace Lzmq.Names

variable {K : Type}

/-- One that may have taken a name, and may have left. -/
structure Holder (K : Type) where
  name : Option K
  left : Bool
deriving DecidableEq, Repr

/-- The holder of each name, by its number. -/
abbrev Service (K : Type) := K → Option Nat

/-- Holder `i` takes the name `k`. -/
def Service.take [DecidableEq K] (d : Service K) (k : K) (i : Nat) : Service K := fun k' =>
  if k' = k then some i else d k'

/-- Holder `i` leaves. -/
def Service.leave (d : Service K) (i : Nat) : Service K := fun k => if d k = some i then none else d k

/-- `i` is still there, and nobody has taken `k` after it. -/
def Last (hs : List (Holder K)) (k : K) (i : Nat) : Prop :=
  hs[i]? = some ⟨some k, false⟩ ∧ ∀ (j : Nat) (h : Holder K), i < j → hs[j]? = some h → h.name ≠ some k

/-- The service knows the holders. -/
def Serves (d : Service K) (hs : List (Holder K)) : Prop := ∀ k i, d k = some i ↔ Last hs k i

/-- Names in `X` are taken only after those that had them have left. -/
def Once (X : K → Prop) (hs : List (Holder K)) : Prop :=
  ∀ (i j : Nat) (h h' : Holder K) (k : K), i < j → hs[i]? = some h → hs[j]? = some h' → h.name = some k →
    h'.name = some k → X k → h.left = true

section Holders

variable {d : Service K} {hs : List (Holder K)} {X : K → Prop} {k : K} {i : Nat}

/-! ## What is found -/

/-- Of a name that is given out once, a holder that is there is found. -/
theorem Serves.find_iff (hd : Serves d hs) (ho : Once X hs) (hk : X k) :
    d k = some i ↔ hs[i]? = some ⟨some k, false⟩ := by
  refine (hd k i).trans ⟨And.left, fun hi => ⟨hi, fun j h hij hj hname => ?_⟩⟩
  exact Bool.false_ne_true (ho i j _ h k hij hi hj rfl hname hk)

/-- And one that is not found has no holder. -/
theorem Serves.free (hd : Serves d hs) (ho : Once X hs) (hk : X k) (hnone : d k = none) {h : Holder K}
    (hi : hs[i]? = some h) (hname : h.name = some k) : h.left = true := by
  obtain ⟨name, left⟩ := h
  obtain rfl : name = some k := hname
  cases left with
  | true => rfl
  | false =>
    have hfound := (hd.find_iff ho hk).mpr hi
    rw [hnone] at hfound
    cases hfound

/-! ## A holder comes -/

theorem getElem?_concat_iff {α : Type} {l : List α} {x a : α} {i : Nat} :
    (l ++ [x])[i]? = some a ↔ l[i]? = some a ∨ i = l.length ∧ x = a := by
  rcases Nat.lt_trichotomy i l.length with hlt | rfl | hgt
  · rw [List.getElem?_append_left hlt]
    exact (or_iff_left fun h => Nat.ne_of_lt hlt h.1).symm
  · rw [List.getElem?_concat_length, List.getElem?_eq_none (Nat.le_refl _)]
    simp
  · rw [List.getElem?_eq_none (by rw [List.length_append]; exact hgt), List.getElem?_eq_none (Nat.le_of_lt hgt)]
    simp [Nat.ne_of_gt hgt]

/-- The new one is the last of its name. -/
theorem last_concat (h : Holder K) : Last (hs ++ [h]) k i ↔
    i = hs.length ∧ h = ⟨some k, false⟩ ∨ Last hs k i ∧ h.name ≠ some k := by
  constructor
  · rintro ⟨hi, hlast⟩
    rcases getElem?_concat_iff.mp hi with hold | hnew
    · have hlt := (List.getElem?_eq_some_iff.mp hold).1
      exact Or.inr ⟨⟨hold, fun j h' hij hj => hlast j h' hij (getElem?_concat_iff.mpr (Or.inl hj))⟩,
        hlast hs.length h hlt List.getElem?_concat_length⟩
    · exact Or.inl hnew
  · rintro (⟨rfl, rfl⟩ | ⟨⟨hi, hlast⟩, hname⟩)
    · refine ⟨List.getElem?_concat_length, fun j h' hij hj => ?_⟩
      have hlt := (List.getElem?_eq_some_iff.mp hj).1
      rw [List.length_append, List.length_singleton] at hlt
      omega
    · refine ⟨getElem?_concat_iff.mpr (Or.inl hi), fun j h' hij hj => ?_⟩
      rcases getElem?_concat_iff.mp hj with hold | ⟨-, rfl⟩
      · exact hlast j h' hij hold
      · exact hname

theorem Serves.take [DecidableEq K] (hd : Serves d hs) (k : K) :
    Serves (d.take k hs.length) (hs ++ [⟨some k, false⟩]) := by
  intro k' i
  rw [Service.take, last_concat]
  by_cases hk : k' = k
  · subst hk
    rw [if_pos rfl, Option.some.injEq, eq_comm]
    simp
  · have hne : ¬ k = k' := fun h => hk h.symm
    rw [if_neg hk, hd k' i]
    simp [hne]

/-- One without a name. -/
theorem Serves.nameless (hd : Serves d hs) (left : Bool) : Serves d (hs ++ [⟨none, left⟩]) := by
  intro k' i
  rw [last_concat, hd k' i]
  simp

theorem Once.concat (ho : Once X hs) {h : Holder K}
    (hfree : ∀ k, h.name = some k → X k → ∀ (i : Nat) (h' : Holder K), hs[i]? = some h' → h'.name = some k →
      h'.left = true) :
    Once X (hs ++ [h]) := by
  intro i j h₁ h₂ k hij hi hj hk hk' hX
  have hlt : j < hs.length + 1 := by
    have := (List.getElem?_eq_some_iff.mp hj).1
    rwa [List.length_append] at this
  rw [List.getElem?_append_left (by omega)] at hi
  rcases getElem?_concat_iff.mp hj with hold | ⟨-, rfl⟩
  · exact ho i j h₁ h₂ k hij hi hold hk hk' hX
  · exact hfree k hk' hX i h₁ hi hk

/-! ## A holder leaves -/

variable {name : Option K} {left : Bool}

/-- The holders after the one at `i` has left. -/
theorem getElem?_left (hi : hs[i]? = some ⟨name, left⟩) (j : Nat) :
    (hs.set i ⟨name, true⟩)[j]? = if j = i then some ⟨name, true⟩ else hs[j]? := by
  rw [List.getElem?_set]
  by_cases hij : j = i
  · subst hij
    rw [if_pos rfl, if_pos rfl, if_pos (List.getElem?_eq_some_iff.mp hi).1]
  · rw [if_neg hij, if_neg fun h => hij h.symm]

/-- Its name stays in the list. -/
theorem name_left (hi : hs[i]? = some ⟨name, left⟩) (j : Nat) :
    (hs.set i ⟨name, true⟩)[j]?.map Holder.name = hs[j]?.map Holder.name := by
  rw [getElem?_left hi]
  split
  · next h => rw [h, hi]; rfl
  · rfl

theorem last_leave (hi : hs[i]? = some ⟨name, left⟩) (j : Nat) :
    Last (hs.set i ⟨name, true⟩) k j ↔ Last hs k j ∧ j ≠ i := by
  have hnames : (∀ j' h, j < j' → (hs.set i ⟨name, true⟩)[j']? = some h → h.name ≠ some k) ↔
      ∀ j' h, j < j' → hs[j']? = some h → h.name ≠ some k := by
    have hmap := name_left hi
    constructor
    · intro h j' h' hlt hj' hk
      obtain ⟨g, hg, hgk⟩ := Option.map_eq_some_iff.mp ((hmap j').trans (congrArg (Option.map _) hj'))
      exact h j' g hlt hg (hgk.trans hk)
    · intro h j' h' hlt hj' hk
      obtain ⟨g, hg, hgk⟩ := Option.map_eq_some_iff.mp ((hmap j').symm.trans (congrArg (Option.map _) hj'))
      exact h j' g hlt hg (hgk.trans hk)
  rw [Last, Last, hnames, getElem?_left hi]
  by_cases hij : j = i
  · simp [hij]
  · simp [hij]

theorem Serves.leave (hd : Serves d hs) (hi : hs[i]? = some ⟨name, left⟩) :
    Serves (d.leave i) (hs.set i ⟨name, true⟩) := by
  intro k j
  rw [last_leave hi, ← hd k j, Service.leave]
  split
  · next h => simp [h, eq_comm]
  · next h =>
    refine ⟨fun hj => ⟨hj, ?_⟩, And.left⟩
    rintro rfl
    exact h hj

theorem Once.leave (ho : Once X hs) (hi : hs[i]? = some ⟨name, left⟩) : Once X (hs.set i ⟨name, true⟩) := by
  intro a b h h' k hab ha hb hk hk' hX
  have hmap := name_left hi
  obtain ⟨g', hb', hgk'⟩ := Option.map_eq_some_iff.mp ((hmap b).symm.trans (congrArg (Option.map _) hb))
  rw [getElem?_left hi] at ha
  split at ha
  · exact (Option.some.inj ha) ▸ rfl
  · exact ho a b h g' k hab ha hb' hk (hgk'.trans hk') hX

end Holders

end Lzmq.Names
