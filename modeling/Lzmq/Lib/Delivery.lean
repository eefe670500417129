/-
  Consumers of a stream: systems whose steps take items off the front of a list and hand something over for them.

  What a run hands over may be less than what it takes: items are dropped, or cut short.  `Less R` is that relation
  between lists, for a relation `R` that says what cutting an item short means; a step is `Honest` if what it hands
  over is in this way less than what it takes.  Then so is what a whole run hands over (`run_less`): nothing is made
  up, nothing comes twice and nothing is reordered.  And since a loss is never made good by a later step, a run hands
  over exactly what it takes iff all of its steps do (`run_exact_iff`).

  The list can be fed: a step may put items behind it.  Then a run hands over and leaves what there was and what came
  (`run_fed_less`, `run_fed_exact_iff`).
-/
import Lzmq.Lib.Steps
import Mathlib.Data.List.Forall2
import Mathlib.Algebra.GroupWithZero.Nat

namespace Lzmq.Delivery

open Lzmq.Steps List

variable {S A X : Type}

/-! ## Lists of which items are dropped or cut short -/

/-- `l` is `k` without some items, the others related to what they were by `R`. -/
abbrev Less (R : X → X → Prop) (l k : List X) : Prop := SublistForall₂ R l k

/-- What `R` makes of an item is smaller, unless it is the item itself. -/
structure Shortens (R : X → X → Prop) (size : X → Nat) : Prop where
  refl : ∀ x, R x x
  trans : ∀ {x y z}, R x y → R y z → R x z
  le : ∀ {x y}, R x y → size x ≤ size y
  eq : ∀ {x y}, R x y → size x = size y → x = y

variable {R : X → X → Prop} {size : X → Nat}

theorem Less.of_sublist (h : Shortens R size) {l k : List X} (hsub : l <+ k) : Less R l k :=
  sublistForall₂_iff.mpr ⟨l, forall₂_same.mpr fun x _ => h.refl x, hsub⟩

theorem Less.refl (h : Shortens R size) (l : List X) : Less R l l := Less.of_sublist h (Sublist.refl l)

theorem Less.trans (h : Shortens R size) {l k j : List X} (hlk : Less R l k) (hkj : Less R k j) : Less R l j :=
  haveI : IsTrans X R := ⟨fun _ _ _ => h.trans⟩
  SublistForall₂.is_trans.trans _ _ _ hlk hkj

theorem Less.append {l k l' k' : List X} (h : Less R l k) (h' : Less R l' k') : Less R (l ++ l') (k ++ k') := by
  obtain ⟨j, hj, hsub⟩ := sublistForall₂_iff.mp h
  obtain ⟨j', hj', hsub'⟩ := sublistForall₂_iff.mp h'
  exact sublistForall₂_iff.mpr ⟨j ++ j', rel_append hj hj', hsub.append hsub'⟩

/-- Every item counts, and its size. -/
def weight (size : X → Nat) (l : List X) : Nat := (l.map fun x => size x + 1).sum

theorem weight_cons (x : X) (l : List X) : weight size (x :: l) = size x + 1 + weight size l := by
  rw [weight, map_cons, sum_cons, weight]

theorem weight_append (l k : List X) : weight size (l ++ k) = weight size l + weight size k := by
  rw [weight, map_append, sum_append, weight, weight]

theorem Less.weight_le (h : Shortens R size) {l k : List X} (hlk : Less R l k) : weight size l ≤ weight size k := by
  induction hlk with
  | nil => exact Nat.zero_le _
  | cons hxy _ ih =>
    rw [weight_cons, weight_cons]
    have := h.le hxy
    omega
  | cons_right _ ih =>
    rw [weight_cons]
    omega

/-- A list that has lost nothing of its weight has lost nothing. -/
theorem Less.eq_of_weight (h : Shortens R size) {l k : List X} (hlk : Less R l k)
    (hw : weight size l = weight size k) : l = k := by
  induction hlk with
  | @nil k =>
    cases k with
    | nil => rfl
    | cons x k =>
      rw [weight_cons, weight, map_nil, sum_nil] at hw
      omega
  | @cons x y l k hxy hlk ih =>
    rw [weight_cons, weight_cons] at hw
    have hsize := h.le hxy
    have hrest := Less.weight_le h hlk
    rw [h.eq hxy (by omega), ih (by omega)]
  | @cons_right y l k hlk _ =>
    rw [weight_cons] at hw
    have hrest := Less.weight_le h hlk
    omega

/-! ## Runs -/

section Run

variable (step : S → A → Option S) (rest : S → List X) (fed out : S → A → List X)

/-- What the steps of a run hand over, in order. -/
def delivered : S → List A → List X
  | _, [] => []
  | s, a :: as =>
    out s a ++ match step s a with
      | none => []
      | some s' => delivered s' as

theorem delivered_cons {s s' : S} {a : A} (as : List A) (h : step s a = some s') :
    delivered step out s (a :: as) = out s a ++ delivered step out s' as := by
  rw [delivered, h]

theorem delivered_nothing : ∀ (as : List A) (s : S), delivered step (fun _ _ => ([] : List X)) s as = [] := by
  intro as
  induction as with
  | nil => exact fun _ => rfl
  | cons a as ih =>
    intro s
    rw [delivered, nil_append]
    cases step s a with
    | none => rfl
    | some s' => exact ih s'

/-- In the sense of `R`, what a step hands over is no more than what it takes; `fed` is what it puts behind the
    rest. -/
def HonestFed (Inv : S → Prop) (R : X → X → Prop) : Prop :=
  ∀ s a s', Inv s → step s a = some s' → Less R (out s a ++ rest s') (rest s ++ fed s a)

/-- The same for a list that is not fed. -/
def Honest (R : X → X → Prop) : Prop :=
  ∀ s a s', step s a = some s' → Less R (out s a ++ rest s') (rest s)

variable {step rest fed out}

theorem Honest.unfed (h : Honest step rest out R) : HonestFed step rest (fun _ _ => []) out (fun _ => True) R := by
  intro s a s' _ hs
  rw [append_nil]
  exact h s a s' hs

section Fed

variable {Inv : S → Prop} (hinv : ∀ s a s', Inv s → step s a = some s' → Inv s')
include hinv

/-- **Runs** hand over no more than they take. -/
theorem run_fed_less (hR : Shortens R size) (hstep : HonestFed step rest fed out Inv R) : ∀ (as : List A) (s t : S),
    Inv s → run step s as = some t →
      Less R (delivered step out s as ++ rest t) (rest s ++ delivered step fed s as) := by
  intro as
  induction as with
  | nil =>
    intro s t _ h
    obtain rfl := Option.some.inj h
    rw [delivered, delivered, nil_append, append_nil]
    exact Less.refl hR _
  | cons a as ih =>
    intro s t hs h
    obtain ⟨s', hs', ht⟩ := run_cons_inv step h
    rw [delivered_cons step out as hs', delivered_cons step fed as hs', append_assoc]
    have hrest := (Less.refl hR (out s a)).append (ih s' t (hinv s a s' hs hs') ht)
    have hone := (hstep s a s' hs hs').append (Less.refl hR (delivered step fed s' as))
    rw [append_assoc, append_assoc] at hone
    exact hrest.trans hR hone

/-- **Nothing is lost** in a run iff nothing is lost in any of its steps. -/
theorem run_fed_exact_iff (hR : Shortens R size) (hstep : HonestFed step rest fed out Inv R) {Cond : S → A → Prop}
    (hiff : ∀ s a s', Inv s → step s a = some s' → (out s a ++ rest s' = rest s ++ fed s a ↔ Cond s a)) :
    ∀ (as : List A) (s t : S), Inv s → run step s as = some t →
      (delivered step out s as ++ rest t = rest s ++ delivered step fed s as ↔ Meets step Cond s as) := by
  intro as
  induction as with
  | nil =>
    intro s t _ h
    obtain rfl := Option.some.inj h
    exact iff_of_true (append_nil _).symm trivial
  | cons a as ih =>
    intro s t hs h
    obtain ⟨s', hs', ht⟩ := run_cons_inv step h
    have hinv' := hinv s a s' hs hs'
    rw [delivered_cons step out as hs', delivered_cons step fed as hs', append_assoc]
    constructor
    · intro hexact
      -- what this step has lost would be missing from the weight of the whole
      have hone := hstep s a s' hs hs'
      have hall := (run_fed_less hinv hR hstep as s' t hinv' ht).weight_le hR
      have hle := hone.weight_le hR
      have hw := congrArg (weight size) hexact
      simp only [weight_append] at hall hle hw
      have hkept : out s a ++ rest s' = rest s ++ fed s a := by
        refine hone.eq_of_weight hR ?_
        simp only [weight_append]
        omega
      refine ⟨(hiff s a s' hs hs').mp hkept, fun s'' hs'' => ?_⟩
      obtain rfl := Option.some.inj (hs'.symm.trans hs'')
      rw [← append_assoc (rest s), ← hkept, append_assoc] at hexact
      exact (ih s' t hinv' ht).mp (append_cancel_left hexact)
    · rintro ⟨hcond, hmeets⟩
      rw [(ih s' t hinv' ht).mpr (hmeets s' hs'), ← append_assoc, (hiff s a s' hs hs').mpr hcond, append_assoc]

end Fed

/-! ## Lists that are not fed -/

theorem run_less (hR : Shortens R size) (hstep : Honest step rest out R) (as : List A) (s t : S)
    (h : run step s as = some t) : Less R (delivered step out s as ++ rest t) (rest s) := by
  have hfed := run_fed_less (fun _ _ _ _ _ => trivial) hR hstep.unfed as s t trivial h
  rw [delivered_nothing, append_nil] at hfed
  exact hfed

theorem run_exact_iff (hR : Shortens R size) (hstep : Honest step rest out R) {Cond : S → A → Prop}
    (hiff : ∀ s a s', step s a = some s' → (out s a ++ rest s' = rest s ↔ Cond s a)) (as : List A) (s t : S)
    (h : run step s as = some t) : delivered step out s as ++ rest t = rest s ↔ Meets step Cond s as := by
  have hfed := run_fed_exact_iff (fun _ _ _ _ _ => trivial) hR hstep.unfed
    (fun s a s' _ hs => by rw [append_nil]; exact hiff s a s' hs) as s t trivial h
  rw [delivered_nothing, append_nil] at hfed
  exact hfed

end Run

end Lzmq.Delivery
