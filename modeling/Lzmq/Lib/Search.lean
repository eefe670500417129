/-
  Trying candidates in order.

  Each candidate is answered: it is taken, or it fails with an error.  After some errors (`again`) the next one is
  tried; the search ends with the first candidate that is taken, with the first error of another kind, or
  with the error of the last candidate.

  Two searches that differ in `again` do the same iff they judge alike of each error after which the one of them can
  go on (`search_eq_iff`).  If the second one has more candidates, it must not come to them (`search_append_eq_iff`).
-/
import Mathlib.Data.List.Basic

namespace Lzmq.Search

variable {α E : Type}

/-- The candidates that were tried, and how the search ended; no answer counts as one that takes the candidate. -/
def search (again : E → Bool) : List α → List (Option E) → List α × Option (α ⊕ E)
  | [], _ => ([], none)
  | a :: as, answers =>
    match answers.headD none with
    | none => ([a], some (.inl a))
    | some e =>
      if again e && !as.isEmpty then
        let r := search again as answers.tail
        (a :: r.1, r.2)
      else ([a], some (.inr e))

section Search

variable {again again' : E → Bool} {a b : α} {as : List α} {e : E} {answers : List (Option E)}

/-! ## One step -/

theorem search_taken (h : answers.headD none = none) : search again (a :: as) answers = ([a], some (.inl a)) := by
  rw [search, h]

theorem search_last (h : answers.headD none = some e) : search again [a] answers = ([a], some (.inr e)) := by
  simp only [search, h, List.isEmpty_nil, Bool.not_true, Bool.and_false]
  rfl

theorem search_ends (h : answers.headD none = some e) (he : again e = false) :
    search again (a :: as) answers = ([a], some (.inr e)) := by
  rw [search, h]
  simp [he]

theorem search_again (h : answers.headD none = some e) (he : again e = true) :
    search again (a :: b :: as) answers =
      (a :: (search again (b :: as) answers.tail).1, (search again (b :: as) answers.tail).2) := by
  rw [search, h]
  simp [he]

/-! ## What is tried -/

theorem tried_ne_nil : (search again (a :: as) answers).1 ≠ [] := by
  rw [search]
  split
  · exact List.cons_ne_nil _ _
  · split
    · exact List.cons_ne_nil _ _
    · exact List.cons_ne_nil _ _

/-- A search that has candidates has an end, which is the one of its last candidate. -/
theorem search_end (again : E → Bool) (as : List α) : ∀ (a : α) (answers : List (Option E)),
    (search again (a :: as) answers).2 ≠ none ∧
      ∀ b, (search again (a :: as) answers).2 = some (.inl b) →
        (search again (a :: as) answers).1.getLast? = some b := by
  induction as with
  | nil =>
    intro a answers
    cases h : answers.headD none with
    | none =>
      rw [search_taken h]
      exact ⟨Option.some_ne_none _, fun b hb => congrArg some (Sum.inl.inj (Option.some.inj hb))⟩
    | some e =>
      rw [search_last h]
      exact ⟨Option.some_ne_none _, fun b hb => by cases hb⟩
  | cons c as ih =>
    intro a answers
    cases h : answers.headD none with
    | none =>
      rw [search_taken h]
      exact ⟨Option.some_ne_none _, fun b hb => congrArg some (Sum.inl.inj (Option.some.inj hb))⟩
    | some e => cases he : again e with
      | true =>
        rw [search_again h he]
        obtain ⟨hsome, hlast⟩ := ih c answers.tail
        refine ⟨hsome, fun b hb => ?_⟩
        rw [List.getLast?_cons, hlast b hb]
        rfl
      | false =>
        rw [search_ends h he]
        exact ⟨Option.some_ne_none _, fun b hb => by cases hb⟩

/-- The candidates that are tried are the first ones. -/
theorem tried_prefix (again : E → Bool) (as : List α) :
    ∀ answers, (search again as answers).1 <+: as := by
  induction as with
  | nil => exact fun _ => List.prefix_rfl
  | cons a as ih =>
    intro answers
    rw [search]
    split
    · exact List.cons_prefix_cons.mpr ⟨rfl, List.nil_prefix⟩
    · split
      · exact List.cons_prefix_cons.mpr ⟨rfl, ih _⟩
      · exact List.cons_prefix_cons.mpr ⟨rfl, List.nil_prefix⟩

/-! ## Two searches -/

/-- `i` is reached when all candidates before it have failed with errors after which the search goes on. -/
def Reached (again : E → Bool) (answers : List (Option E)) (i : Nat) : Prop :=
  ∀ j < i, ∃ e, answers.getD j none = some e ∧ again e = true

theorem getD_zero (answers : List (Option E)) : answers.getD 0 none = answers.headD none := by
  cases answers <;> rfl

theorem getD_succ (answers : List (Option E)) (i : Nat) : answers.getD (i + 1) none = answers.tail.getD i none := by
  cases answers <;> rfl

theorem reached_succ_iff (i : Nat) : Reached again answers (i + 1) ↔
    (∃ e, answers.headD none = some e ∧ again e = true) ∧ Reached again answers.tail i := by
  constructor
  · intro h
    refine ⟨getD_zero answers ▸ h 0 (Nat.succ_pos i), fun j hj => ?_⟩
    exact getD_succ answers j ▸ h (j + 1) (Nat.succ_lt_succ hj)
  · rintro ⟨hhead, htail⟩ j hj
    cases j with
    | zero => rwa [getD_zero]
    | succ j =>
      rw [getD_succ]
      exact htail j (Nat.lt_of_succ_lt_succ hj)

/-- They judge alike of each error that the first one meets before the last candidate. -/
def Alike (again again' : E → Bool) (n : Nat) (answers : List (Option E)) : Prop :=
  ∀ i, i + 1 < n → Reached again answers i → ∀ e, answers.getD i none = some e → again e = again' e

/-- A search goes on as the rest of it does. -/
theorem alike_succ_iff (h : answers.headD none = some e) (n : Nat) : Alike again again' (n + 2) answers ↔
    again e = again' e ∧ (again e = true → Alike again again' (n + 1) answers.tail) := by
  constructor
  · intro hall
    refine ⟨hall 0 (by omega) (fun j hj => absurd hj (Nat.not_lt_zero j)) e (getD_zero answers ▸ h), ?_⟩
    intro he i hi hreach e' he'
    refine hall (i + 1) (by omega) ((reached_succ_iff i).mpr ⟨⟨e, h, he⟩, hreach⟩) e' ?_
    rwa [getD_succ]
  · rintro ⟨heq, hrest⟩ i hi hreach e' he'
    cases i with
    | zero =>
      rw [getD_zero, h] at he'
      exact Option.some.inj he' ▸ heq
    | succ i =>
      obtain ⟨⟨e₀, h₀, he₀⟩, hreach⟩ := (reached_succ_iff i).mp hreach
      obtain rfl := Option.some.inj (h.symm.trans h₀)
      rw [getD_succ] at he'
      exact hrest he₀ i (by omega) hreach e' he'

theorem alike_of_taken (h : answers.headD none = none) (n : Nat) : Alike again again' n answers := by
  intro i _ hreach e he
  cases i with
  | zero =>
    rw [getD_zero, h] at he
    cases he
  | succ i =>
    obtain ⟨⟨e, he, -⟩, -⟩ := (reached_succ_iff i).mp hreach
    rw [h] at he
    cases he

/-- After an error, with candidates left, two searches do the same iff they judge it alike, and do the same with the
    rest if they go on. -/
theorem search_cons_eq_iff (h : answers.headD none = some e) {c : α} {cs : List α} :
    search again (a :: b :: as) answers = search again' (a :: c :: cs) answers ↔
      again e = again' e ∧
        (again e = true → search again (b :: as) answers.tail = search again' (c :: cs) answers.tail) := by
  cases he : again e with
  | true => cases he' : again' e with
    | true =>
      rw [search_again h he, search_again h he', Prod.mk.injEq, List.cons.injEq, Prod.ext_iff]
      simp only [true_and, forall_const]
    | false =>
      -- the second search ends here
      rw [search_again h he, search_ends h he']
      refine iff_of_false (fun heq => ?_) fun hc => absurd hc.1 (by decide)
      exact tried_ne_nil (List.cons.inj (Prod.mk.inj heq).1).2
  | false => cases he' : again' e with
    | true =>
      rw [search_ends h he, search_again h he']
      refine iff_of_false (fun heq => ?_) fun hc => absurd hc.1 (by decide)
      exact tried_ne_nil (List.cons.inj (Prod.mk.inj heq).1).2.symm
    | false =>
      rw [search_ends h he, search_ends h he']
      exact iff_of_true rfl ⟨rfl, fun hc => absurd hc (by decide)⟩

/-- **Two searches do the same** iff they judge alike. -/
theorem search_eq_iff (as : List α) : ∀ answers,
    search again as answers = search again' as answers ↔ Alike again again' as.length answers := by
  induction as with
  | nil => exact fun _ => iff_of_true rfl fun i h => absurd h (Nat.not_lt_zero _)
  | cons a as ih =>
    intro answers
    cases h : answers.headD none with
    | none =>
      rw [search_taken h, search_taken h]
      exact iff_of_true rfl (alike_of_taken h _)
    | some e => cases as with
      | nil =>
        rw [search_last h, search_last h]
        exact iff_of_true rfl fun i hi => absurd hi (by simp)
      | cons b as =>
        rw [search_cons_eq_iff h, ih answers.tail]
        exact (alike_succ_iff h as.length).symm

/-- The search does not get past the n-th candidate. -/
def Stops (again again' : E → Bool) (n : Nat) (answers : List (Option E)) : Prop :=
  Reached again answers (n - 1) → ∀ e, answers.getD (n - 1) none = some e → again' e = false

theorem stops_succ_iff (h : answers.headD none = some e) (n : Nat) :
    Stops again again' (n + 2) answers ↔ (again e = true → Stops again again' (n + 1) answers.tail) := by
  show (Reached again answers (n + 1) → ∀ e, answers.getD (n + 1) none = some e → again' e = false) ↔ _
  rw [reached_succ_iff, getD_succ, h]
  constructor
  · exact fun hall he hreach => hall ⟨⟨e, rfl, he⟩, hreach⟩
  · rintro hall ⟨⟨e', he', hagain⟩, hreach⟩
    obtain rfl := Option.some.inj he'
    exact hall hagain hreach

theorem stops_of_taken (h : answers.headD none = none) (n : Nat) : Stops again again' (n + 1) answers := by
  intro hreach e he
  cases n with
  | zero =>
    rw [Nat.add_sub_cancel, getD_zero, h] at he
    cases he
  | succ n =>
    obtain ⟨⟨e, he, -⟩, -⟩ := (reached_succ_iff n).mp hreach
    rw [h] at he
    cases he

theorem stops_one_iff (h : answers.headD none = some e) : Stops again again' 1 answers ↔ again' e = false := by
  rw [Stops, Nat.sub_self, getD_zero, h]
  constructor
  · exact fun hall => hall (fun j hj => absurd hj (Nat.not_lt_zero j)) e rfl
  · rintro he - e' h'
    exact Option.some.inj h' ▸ he

variable (again again') in
/-- **A search with more candidates** does the same iff it judges alike and does not come to them. -/
theorem search_append_eq_iff (b : α) (bs : List α) : ∀ (a : α) (as : List α) (answers : List (Option E)),
    search again (a :: as) answers = search again' (a :: as ++ b :: bs) answers ↔
      Alike again again' (a :: as).length answers ∧ Stops again again' (a :: as).length answers := by
  intro a as
  induction as generalizing a with
  | nil =>
    intro answers
    have halike : Alike again again' [a].length answers := fun i hi => absurd hi (by simp)
    rw [and_iff_right halike]
    cases h : answers.headD none with
    | none =>
      rw [search_taken h]
      exact iff_of_true (search_taken h).symm (stops_of_taken h 0)
    | some e =>
      rw [search_last h, List.length_singleton, stops_one_iff h]
      cases he : again' e with
      | true =>
        refine iff_of_false (fun heq => ?_) (by decide)
        rw [List.singleton_append, search_again h he] at heq
        exact tried_ne_nil (List.cons.inj (Prod.mk.inj heq).1).2.symm
      | false => exact iff_of_true (search_ends h he).symm rfl
  | cons c as ih =>
    intro answers
    cases h : answers.headD none with
    | none =>
      rw [search_taken h]
      exact iff_of_true (search_taken h).symm ⟨alike_of_taken h _, stops_of_taken h _⟩
    | some e =>
      have hrest := ih c answers.tail
      rw [List.cons_append, List.length_cons] at hrest
      simp only [List.cons_append, List.length_cons]
      rw [search_cons_eq_iff h, hrest, alike_succ_iff h, stops_succ_iff h, forall_and, and_assoc]

end Search

end Lzmq.Search
