/-
  Partial step systems: finite runs, invariants of runs, and run properties that are decided one
  step at a time.

  A system is a function `step : S → A → Option S`; `none` says that the step has no successor (the
  program crashed, or the action is not enabled).  Three things are packaged here once:
    * `run`            the state after a list of actions, and `run_invariant`, the induction that
                       turns "one step preserves it" into "every run preserves it";
    * `Keeps`/`Meets`  "every step of the run succeeds and does what it should" against "every step
                       of the run meets a condition on the state before it".  `keeps_iff_meets` lifts
                       an equivalence for one step to all runs, so a run property gets an EXACT
                       condition from a single-step analysis; `always_iff_meets` does it for a
                       property of the states;
    * `exists_endless` a sequence of states that never stops;
    * `RunWhile`       runs that stay inside a region until their last state.
-/
import Mathlib.Logic.Basic
import Mathlib.Tactic.Choose

namespace Lzmq.Steps

variable {S A : Type} (step : S → A → Option S)

/-! ## Runs -/

/-- The state after executing a list of actions; `none` as soon as one step has no successor. -/
def run : S → List A → Option S
  | s, [] => some s
  | s, a :: as => (step s a).bind fun s' => run s' as

theorem run_nil (s : S) : run step s [] = some s := rfl

theorem run_cons_some {s s' : S} {a : A} (as : List A) (h : step s a = some s') :
    run step s (a :: as) = run step s' as := by
  rw [run, h]; rfl

/-- A successful run of `a :: as` splits into its first step and the rest. -/
theorem run_cons_inv {s t : S} {a : A} {as : List A} (h : run step s (a :: as) = some t) :
    ∃ s', step s a = some s' ∧ run step s' as = some t := by
  rw [run] at h
  exact Option.bind_eq_some_iff.mp h

/-- A run of `as ++ bs` goes through the state after `as`. -/
theorem run_append_inv (as bs : List A) : ∀ {s t : S}, run step s (as ++ bs) = some t →
    ∃ u, run step s as = some u ∧ run step u bs = some t := by
  induction as with
  | nil => intro s t h; exact ⟨s, rfl, h⟩
  | cons a as ih =>
    intro s t h
    obtain ⟨s', hs', hrest⟩ := run_cons_inv step h
    obtain ⟨u, hu, ht⟩ := ih hrest
    exact ⟨u, by rw [run_cons_some step as hs', hu], ht⟩

theorem run_append (as bs : List A) : ∀ {s u : S}, run step s as = some u →
    run step s (as ++ bs) = run step u bs := by
  induction as with
  | nil => intro s u h; rw [run_nil, Option.some.injEq] at h; rw [← h]; rfl
  | cons a as ih =>
    intro s u h
    obtain ⟨s', hs', hu⟩ := run_cons_inv step h
    exact (run_cons_some step (as ++ bs) hs').trans (ih hu)

/-- From a state that satisfies an invariant whose steps have a successor there is a run of any list of actions. -/
theorem exists_run_inv {Inv : S → Prop} (hstep : ∀ s a, Inv s → ∃ s', step s a = some s' ∧ Inv s') :
    ∀ (as : List A) (s : S), Inv s → ∃ t, run step s as = some t ∧ Inv t := by
  intro as
  induction as with
  | nil => exact fun s hs => ⟨s, rfl, hs⟩
  | cons a as ih =>
    intro s hs
    obtain ⟨s', hs', hinv⟩ := hstep s a hs
    obtain ⟨t, ht, hinvt⟩ := ih s' hinv
    exact ⟨t, (run_cons_some step as hs').trans ht, hinvt⟩

theorem exists_run (htotal : ∀ s a, ∃ s', step s a = some s') (as : List A) (s : S) :
    ∃ t, run step s as = some t := by
  have hstep : ∀ s a, True → ∃ s', step s a = some s' ∧ True := fun s a _ =>
    (htotal s a).imp fun _ h => ⟨h, trivial⟩
  obtain ⟨t, ht, -⟩ := exists_run_inv step hstep as s trivial
  exact ⟨t, ht⟩

/-- What the last state of a run shows, read off the computed run. -/
theorem run_shows {B : Type} {f : S → B} {b : B} {s t : S} {as : List A} (h : run step s as = some t)
    (hf : (run step s as).map f = some b) : f t = b := by
  rw [h] at hf
  exact Option.some.inj hf

/-- **Invariant rule.**  What one step preserves, every run preserves. -/
theorem run_invariant {Inv : S → Prop}
    (hstep : ∀ s a s', Inv s → step s a = some s' → Inv s') :
    ∀ (as : List A) (s t : S), Inv s → run step s as = some t → Inv t := by
  intro as
  induction as with
  | nil => intro s t hs h; rw [run_nil, Option.some.injEq] at h; exact h ▸ hs
  | cons a as ih =>
    intro s t hs h
    obtain ⟨s', hs', ht⟩ := run_cons_inv step h
    exact ih s' t (hstep s a s' hs hs') ht

/-- The invariant rule for runs whose actions all satisfy `P`. -/
theorem run_invariant_of {Inv : S → Prop} {P : A → Prop}
    (hstep : ∀ s a s', P a → Inv s → step s a = some s' → Inv s') :
    ∀ (as : List A) (s t : S), (∀ a ∈ as, P a) → Inv s → run step s as = some t → Inv t := by
  intro as
  induction as with
  | nil => intro s t _ hs h; rw [run_nil, Option.some.injEq] at h; exact h ▸ hs
  | cons a as ih =>
    intro s t hP hs h
    obtain ⟨s', hs', ht⟩ := run_cons_inv step h
    exact ih s' t (fun b hb => hP b (List.mem_cons_of_mem a hb))
      (hstep s a s' (hP a List.mem_cons_self) hs hs') ht

/-! ## Properties of every step of a run -/

/-- Every step of the run has a successor and is related to it by `Ok`. -/
def Keeps (Ok : S → A → S → Prop) : S → List A → Prop
  | _, [] => True
  | s, a :: as => ∃ s', step s a = some s' ∧ Ok s a s' ∧ Keeps Ok s' as

/-- Every step of the run meets `Cond`, a condition on the state BEFORE the step. -/
def Meets (Cond : S → A → Prop) : S → List A → Prop
  | _, [] => True
  | s, a :: as => Cond s a ∧ ∀ s', step s a = some s' → Meets Cond s' as

variable {step} in
theorem Meets.cons {Cond : S → A → Prop} {s s' : S} {a : A} {as : List A} (hcond : Cond s a)
    (hstep : step s a = some s') (hrest : Meets step Cond s' as) : Meets step Cond s (a :: as) :=
  ⟨hcond, fun _ ht => Option.some.inj (hstep.symm.trans ht) ▸ hrest⟩

theorem meets_of_forall {Cond : S → A → Prop} : ∀ (as : List A) (s : S), (∀ a ∈ as, ∀ s, Cond s a) →
    Meets step Cond s as := by
  intro as
  induction as with
  | nil => intro s _; trivial
  | cons a as ih =>
    intro s h
    refine ⟨h a List.mem_cons_self s, fun s' _ => ?_⟩
    exact ih s' fun b hb => h b (List.mem_cons_of_mem a hb)

/-- A condition on the actions alone, in a system whose steps succeed. -/
theorem meets_iff_forall {Inv : S → Prop} {P : A → Prop}
    (hstep : ∀ s a, Inv s → ∃ s', step s a = some s' ∧ Inv s') :
    ∀ (as : List A) (s : S), Inv s → (Meets step (fun _ a => P a) s as ↔ ∀ a ∈ as, P a) := by
  intro as
  induction as with
  | nil => exact fun s _ => iff_of_true trivial fun a ha => absurd ha List.not_mem_nil
  | cons a as ih =>
    intro s hs
    obtain ⟨s', hs', hinv⟩ := hstep s a hs
    rw [List.forall_mem_cons, Meets]
    refine and_congr_right fun _ => ?_
    constructor
    · exact fun h => (ih s' hinv).mp (h s' hs')
    · intro h t ht
      obtain rfl := Option.some.inj (hs'.symm.trans ht)
      exact (ih s' hinv).mpr h

/-- The condition holds along the rest of a run. -/
theorem meets_suffix {Cond : S → A → Prop} (as bs : List A) : ∀ {s t : S}, Meets step Cond s (as ++ bs) →
    run step s as = some t → Meets step Cond t bs := by
  induction as with
  | nil =>
    intro s t h hrun
    rw [run_nil, Option.some.injEq] at hrun
    exact hrun ▸ h
  | cons a as ih =>
    intro s t h hrun
    obtain ⟨s', hs', ht⟩ := run_cons_inv step hrun
    exact ih (h.2 s' hs') ht

/-- **From one step to all runs.**  If in states satisfying `Inv` a step does what it should exactly
    when `Cond` holds before it, and doing so re-establishes `Inv`, then a run keeps `Ok` at every
    step exactly when all its steps meet `Cond`. -/
theorem keeps_iff_meets (Inv : S → Prop) {Ok : S → A → S → Prop} {Cond : S → A → Prop}
    (hiff : ∀ s a, Inv s → ((∃ s', step s a = some s' ∧ Ok s a s') ↔ Cond s a))
    (hinv : ∀ s a s', Inv s → step s a = some s' → Ok s a s' → Inv s') :
    ∀ (as : List A) (s : S), Inv s → (Keeps step Ok s as ↔ Meets step Cond s as) := by
  intro as
  induction as with
  | nil => intro s _; exact Iff.rfl
  | cons a as ih =>
    intro s hs
    constructor
    · rintro ⟨s', hs', hok, hrest⟩
      refine ⟨(hiff s a hs).mp ⟨s', hs', hok⟩, fun s'' hs'' => ?_⟩
      obtain rfl : s' = s'' := Option.some.inj (hs'.symm.trans hs'')
      exact (ih s' (hinv s a s' hs hs' hok)).mp hrest
    · rintro ⟨hcond, hrest⟩
      obtain ⟨s', hs', hok⟩ := (hiff s a hs).mpr hcond
      exact ⟨s', hs', hok, (ih s' (hinv s a s' hs hs' hok)).mpr (hrest s' hs')⟩

/-- When a step from a state that satisfies `Inv` does what it should and keeps `Inv`, so does every run. -/
theorem keeps_of_inv (Inv : S → Prop) {Ok : S → A → S → Prop}
    (hstep : ∀ s a, Inv s → ∃ s', step s a = some s' ∧ Ok s a s' ∧ Inv s') :
    ∀ (as : List A) (s : S), Inv s → Keeps step Ok s as := by
  intro as
  induction as with
  | nil => exact fun _ _ => trivial
  | cons a as ih =>
    intro s hs
    obtain ⟨s', hs', hok, hinv⟩ := hstep s a hs
    exact ⟨s', hs', hok, ih s' hinv⟩

/-- **From one step to all states of a run.**  If from a good state a step leads to a good state exactly
    when it meets `Cond`, then all states of a run are good exactly when all its steps meet it. -/
theorem always_iff_meets {Inv P : S → Prop} {Cond : S → A → Prop}
    (hinv : ∀ s a s', Inv s → step s a = some s' → Inv s')
    (hiff : ∀ s a s', Inv s → P s → step s a = some s' → (P s' ↔ Cond s a)) :
    ∀ (as : List A) (s t : S), Inv s → P s → run step s as = some t →
      ((∀ bs u, bs <+: as → run step s bs = some u → P u) ↔ Meets step Cond s as) := by
  intro as
  induction as with
  | nil =>
    intro s t _ hP _
    refine iff_of_true (fun bs u hbs hu => ?_) trivial
    rw [List.prefix_nil.mp hbs, run_nil, Option.some.injEq] at hu
    exact hu ▸ hP
  | cons a as ih =>
    intro s t hs hP hrun
    obtain ⟨s', hs', ht⟩ := run_cons_inv step hrun
    have hstep := hiff s a s' hs hP hs'
    have hs'' := hinv s a s' hs hs'
    constructor
    · intro h
      have hP' : P s' := h [a] s' ⟨as, rfl⟩ (by rw [run_cons_some step [] hs', run_nil])
      refine ⟨hstep.mp hP', fun u hu => ?_⟩
      obtain rfl := Option.some.inj (hs'.symm.trans hu)
      refine (ih s' t hs'' hP' ht).mp fun bs v hbs hv => ?_
      exact h (a :: bs) v (List.cons_prefix_cons.mpr ⟨rfl, hbs⟩) (by rw [run_cons_some step bs hs', hv])
    · rintro ⟨hcond, hrest⟩ bs u hbs hu
      have hP' := hstep.mpr hcond
      cases bs with
      | nil =>
        rw [run_nil, Option.some.injEq] at hu
        exact hu ▸ hP
      | cons b bs =>
        obtain ⟨rfl, hprefix⟩ := List.cons_prefix_cons.mp hbs
        rw [run_cons_some step bs hs'] at hu
        exact (ih s' t hs'' hP' ht).mpr (hrest s' hs') bs u hprefix hu

/-- **Simulation.**  If a step of a system does what it should whenever the step of another one, which it
    simulates, meets `Cond`, then it does so at every step of a run that meets `Cond` there. -/
theorem keeps_of_simulates {T : Type} {stepT : T → A → Option T} {R : S → T → Prop} {Ok : S → A → S → Prop}
    {Cond : T → A → Prop}
    (hstep : ∀ s t a, R s t → Cond t a →
      ∃ s' t', step s a = some s' ∧ stepT t a = some t' ∧ Ok s a s' ∧ R s' t') :
    ∀ (as : List A) (s : S) (t : T), R s t → Meets stepT Cond t as → Keeps step Ok s as := by
  intro as
  induction as with
  | nil => intro s t _ _; trivial
  | cons a as ih =>
    intro s t hR h
    obtain ⟨hcond, hrest⟩ := h
    obtain ⟨s', t', hs', ht', hok, hR'⟩ := hstep s t a hR hcond
    exact ⟨s', hs', hok, ih s' t' hR' (hrest t' ht')⟩

/-- **Runs of a simulation.**  What one system does in a run, the one that simulates it does; `f` and `g` are the
    actions that belong together. -/
theorem run_of_simulates {T A' B : Type} {stepT : T → A' → Option T} {R : S → T → Prop} {f : B → A} {g : B → A'}
    (hstep : ∀ s t b t', R s t → stepT t (g b) = some t' → ∃ s', step s (f b) = some s' ∧ R s' t') :
    ∀ (bs : List B) (s : S) (t t' : T), R s t → run stepT t (bs.map g) = some t' →
      ∃ s', run step s (bs.map f) = some s' ∧ R s' t' := by
  intro bs
  induction bs with
  | nil =>
    intro s t t' hR h
    obtain rfl := Option.some.inj h
    exact ⟨s, rfl, hR⟩
  | cons b bs ih =>
    intro s t t' hR h
    obtain ⟨u, hu, hrest⟩ := run_cons_inv stepT h
    obtain ⟨v, hv, hR'⟩ := hstep s t b u hR hu
    obtain ⟨s', hs', hR''⟩ := ih v u t' hR' hrest
    exact ⟨s', (run_cons_some step _ hv).trans hs', hR''⟩

/-! ## Endless runs -/

/-- From a state that can always be continued an endless sequence starts; `P n` tells what is known of its
    `n`-th state. -/
theorem exists_endless {R : S → S → Prop} {P : Nat → S → Prop} {s : S} (h0 : P 0 s)
    (hstep : ∀ n s, P n s → ∃ s', R s s' ∧ P (n + 1) s') :
    ∃ f : Nat → S, f 0 = s ∧ ∀ n, P n (f n) ∧ R (f n) (f (n + 1)) := by
  choose! next hnext using hstep
  -- the sequence is built by iteration, the index counts along
  let f : Nat → S := fun n => n.rec s next
  have hP : ∀ n, P n (f n) := by
    intro n
    induction n with
    | zero => exact h0
    | succ n ih => exact (hnext n (f n) ih).2
  exact ⟨f, rfl, fun n => ⟨hP n, (hnext n (f n) (hP n)).1⟩⟩

/-! ## Runs inside a region -/

/-- `RunWhile step P s as t`: executing `as` leads from `s` to `t`, and every state before the last
    one satisfies `P`. -/
inductive RunWhile (P : S → Prop) : S → List A → S → Prop
  | done (s : S) : RunWhile P s [] s
  | next {s s' t : S} {a : A} {as : List A} (hP : P s) (hs : step s a = some s')
      (h : RunWhile P s' as t) : RunWhile P s (a :: as) t

/-- The invariant rule inside a region: a step only has to preserve `Inv` from states in `P`, and by
    actions the run really takes there. -/
theorem RunWhile.invariant {P Inv : S → Prop} {Q : S → A → Prop} {s t : S} {as : List A}
    (h : RunWhile step P s as t)
    (hstep : ∀ s a s', P s → Q s a → Inv s → step s a = some s' → Inv s')
    (hQ : Meets step Q s as) (hs : Inv s) : Inv t := by
  induction h with
  | done s => exact hs
  | next hP hs' _ ih => exact ih (hQ.2 _ hs') (hstep _ _ _ hP hQ.1 hs hs')

end Lzmq.Steps
