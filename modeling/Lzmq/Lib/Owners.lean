/-
  Things that have owners, and are given up once.

  A holder owns at most one thing.  It may exchange it for another one, and what it lets go it either gives up or
  leaves to others.  `Exclusive` is the order that this should keep: a thing has one owner, which has not given it
  up, and nothing is given up twice.  What a holder may take, and what may be given up, is what is `Free`.
-/
import Mathlib.Data.List.Nodup

namespace Lzmq.Owners

variable {H : Type}

/-- `owned` says what each holder owns, `gone` what has been given up. -/
structure Exclusive (owned : List (Option H)) (gone : List H) : Prop where
  alone : ∀ (i j : Nat) (h : H), owned[i]? = some (some h) → owned[j]? = some (some h) → i = j
  live : ∀ h, some h ∈ owned → h ∉ gone
  once : gone.Nodup

/-- There is such a thing, and nobody owns it. -/
def Free (owned : List (Option H)) (gone : List H) (h : H) : Prop := h ∉ gone ∧ some h ∉ owned

instance [DecidableEq H] (owned : List (Option H)) (gone : List H) (h : H) : Decidable (Free owned gone h) :=
  inferInstanceAs (Decidable (_ ∧ _))

theorem exclusive_nil : Exclusive ([] : List (Option H)) [] where
  alone i j h hi := by cases hi
  live h hh := by cases hh
  once := List.nodup_nil

section Owners

variable {owned : List (Option H)} {gone : List H} {i : Nat} {x : Option H} {h : H}

/-- Something is given up. -/
theorem exclusive_cons_iff : Exclusive owned (h :: gone) ↔ Exclusive owned gone ∧ Free owned gone h := by
  constructor
  · intro he
    obtain ⟨hnot, hnodup⟩ := List.nodup_cons.mp he.once
    exact ⟨⟨he.alone, fun g hg hgone => he.live g hg (List.mem_cons_of_mem h hgone), hnodup⟩, hnot,
      fun hh => he.live h hh List.mem_cons_self⟩
  · rintro ⟨he, hnot, hfree⟩
    refine ⟨he.alone, fun g hg hgone => ?_, List.nodup_cons.mpr ⟨hnot, he.once⟩⟩
    rcases List.mem_cons.mp hgone with rfl | hgone
    · exact hfree hg
    · exact he.live g hg hgone

/-- A holder lets go of what it owns. -/
theorem Exclusive.drop (he : Exclusive owned gone) (i : Nat) : Exclusive (owned.set i none) gone where
  alone j k h hj hk := by
    rw [List.getElem?_set] at hj hk
    split at hj
    · split at hj <;> cases hj
    · split at hk
      · split at hk <;> cases hk
      · exact he.alone j k h hj hk
  live h hh := by
    rcases List.mem_or_eq_of_mem_set hh with hh | hh
    · exact he.live h hh
    · cases hh
  once := he.once

/-- And what it lets go is free. -/
theorem Exclusive.free_drop (he : Exclusive owned gone) (hi : owned[i]? = some (some h)) :
    Free (owned.set i none) gone h := by
  refine ⟨he.live h (List.mem_of_getElem? hi), fun hh => ?_⟩
  obtain ⟨j, hj⟩ := List.getElem?_of_mem hh
  rw [List.getElem?_set] at hj
  split at hj
  · split at hj <;> cases hj
  · next hne => exact hne (he.alone i j h hi hj)

/-- A holder takes something that is free. -/
theorem Exclusive.take (he : Exclusive owned gone) (hfree : Free owned gone h) (i : Nat) :
    Exclusive (owned.set i (some h)) gone where
  alone j k g hj hk := by
    have hother : ∀ j, owned[j]? ≠ some (some h) := fun j hj => hfree.2 (List.mem_of_getElem? hj)
    rw [List.getElem?_set] at hj hk
    by_cases hij : i = j
    · rw [if_pos hij] at hj
      split at hj
      · obtain rfl := Option.some.inj (Option.some.inj hj)
        by_cases hik : i = k
        · exact hij.symm.trans hik
        · rw [if_neg hik] at hk
          exact absurd hk (hother k)
      · cases hj
    · rw [if_neg hij] at hj
      by_cases hik : i = k
      · rw [if_pos hik] at hk
        split at hk
        · obtain rfl := Option.some.inj (Option.some.inj hk)
          exact absurd hj (hother j)
        · cases hk
      · rw [if_neg hik] at hk
        exact he.alone j k g hj hk
  live g hg := by
    rcases List.mem_or_eq_of_mem_set hg with hg | hg
    · exact he.live g hg
    · obtain rfl := Option.some.inj hg
      exact hfree.1
  once := he.once

/-- **A holder exchanges what it owns**: what it takes must be free once it has let go. -/
theorem Exclusive.set_iff (he : Exclusive owned gone) (hi : i < owned.length) (x : Option H) :
    Exclusive (owned.set i x) gone ↔ ∀ h, x = some h → Free (owned.set i none) gone h := by
  constructor
  · rintro hset h rfl
    have hhere : (owned.set i (some h))[i]? = some (some h) := by rw [List.getElem?_set, if_pos rfl, if_pos hi]
    have hfree := hset.free_drop hhere
    rwa [List.set_set] at hfree
  · intro hfree
    cases x with
    | none => exact he.drop i
    | some h =>
      have htake := (he.drop i).take (hfree h rfl) i
      rwa [List.set_set] at htake

/-- A new holder. -/
theorem Exclusive.append (he : Exclusive owned gone) (hx : ∀ h, x = some h → Free owned gone h) :
    Exclusive (owned ++ [x]) gone := by
  -- it comes with empty hands
  have hnone : Exclusive (owned ++ [none]) gone := by
    refine ⟨fun i j h hi hj => ?_, fun h hh => ?_, he.once⟩
    · have hold : ∀ i, (owned ++ [none])[i]? = some (some h) → owned[i]? = some (some h) := fun i hi => by
        rw [List.getElem?_append] at hi
        split at hi
        · exact hi
        · cases List.mem_singleton.mp (List.mem_of_getElem? hi)
      exact he.alone i j h (hold i hi) (hold j hj)
    · rcases List.mem_append.mp hh with hh | hh
      · exact he.live h hh
      · cases List.mem_singleton.mp hh
  have hset := (hnone.set_iff (i := owned.length) (by simp) x).mpr fun h h' => ?_
  · simpa using hset
  · obtain ⟨hnot, hnobody⟩ := hx h h'
    refine ⟨hnot, fun hh => ?_⟩
    rcases List.mem_or_eq_of_mem_set hh with hh | hh
    · rcases List.mem_append.mp hh with hh | hh
      · exact hnobody hh
      · cases List.mem_singleton.mp hh
    · cases hh

end Owners

end Lzmq.Owners
