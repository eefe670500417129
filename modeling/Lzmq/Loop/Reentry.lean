/-
  No callback is entered while it is running, and a one-shot callback runs at most once.

  The first part is the invariant: the event of a running callback is locked, and `fire` enters unlocked
  events only, however deep the passes are nested.  An error that leaves a callback keeps its event
  locked, so the event is never entered again.

  For the second part (`Shot`) an event that `add_once` or `add_time` created is either still to be
  entered, or locked, or stopped: after its callback `restart` stops it.  Only arming it again could
  start it; `restart` does not, it stops a one-shot event.
-/
import Lzmq.Loop.OneEvent

namespace Lzmq.Loop

open Lzmq.Steps

/-- The move from `s` to `s'` enters the callback of `e`. -/
def Enters (s s' : State) (e : Nat) : Prop := entered s'.log = entered s.log ++ [e]

/-- The action creates an event that fires once. -/
def Act.AddsOneShot (act : Act) : Prop := (∃ tm, act = .addTime tm) ∨ ∃ interval, act = .addOnce interval

/-! ## No re-entry -/

theorem ne_append_singleton {l : List Nat} {e : Nat} (h : l = l ++ [e]) : False := by
  have := congrArg List.length h
  rw [List.length_append, List.length_singleton] at this
  omega

theorem not_running_of_enters {msec : Int} {s s' : State} {m : Move} {e : Nat} (h : Inv s)
    (hstep : step msec s m = some s') (hin : Enters s s' e) : e ∉ running s.stack := by
  unfold Enters at hin
  cases step_effect hstep with
  | control hsame _ | throw _ _ hsame _ | begin _ _ _ hsame _ =>
    rw [hsame.entered] at hin
    exact (ne_append_singleton hin).elim
  | add _ _ hs | arm _ _ _ _ hs | reset _ _ _ _ _ hs | restart _ _ _ _ _ _ hs
  | skip _ _ _ _ _ _ _ _ hs | drop _ _ _ _ _ _ _ _ hs | leave _ _ _ _ _ _ _ hs
  | finish _ _ _ _ _ hs =>
    subst hs
    exact (ne_append_singleton hin).elim
  | enter i cnt x st _ _ _ hlocked _ hs =>
    -- the event is not locked, the event of a running callback is
    subst hs
    rw [show entered (s.log ++ [Label.enter x]) = entered s.log ++ [x] from entered_append _ _] at hin
    obtain rfl : x = e := List.singleton_inj.mp (List.append_cancel_left hin)
    intro hrun
    rw [h.locked x hrun] at hlocked
    cases hlocked

/-! ## One shot -/

/-- The event `e` fires once: it was not entered yet, or it will not be entered again. -/
structure Shot (e : Nat) (s : State) : Prop where
  created : e < s.next
  oneShot : (s.evs e).OneShot
  spent : (entered s.log).count e = 0 ∨
    (entered s.log).count e = 1 ∧ ((s.evs e).locked = true ∨ (s.evs e).started = false)

/-- Stopping an event changes neither its kind nor its flag. -/
theorem Shot.stopped {e : Nat} {s s' : State} (h : Shot e s) (hnext : s.next ≤ s'.next)
    (hev : s'.evs e = { s.evs e with timer := { (s.evs e).timer with started := false } })
    (hlog : entered s'.log = entered s.log) : Shot e s' := by
  refine ⟨Nat.lt_of_lt_of_le h.created hnext, ?_, ?_⟩
  · rw [hev]
    exact h.oneShot
  · rw [hlog]
    rcases h.spent with hzero | ⟨hone, -⟩
    · exact Or.inl hzero
    · exact Or.inr ⟨hone, Or.inr (by rw [hev]; rfl)⟩

/-- **One move** of a run in which nobody arms `e`. -/
theorem Shot.step {msec : Int} {e : Nat} {s s' : State} {m : Move} (h : Shot e s)
    (hm : m.act.arms ≠ some e) (hstep : Loop.step msec s m = some s') : Shot e s' := by
  have heff := step_effect hstep
  have hnext : s.next ≤ s'.next := heff.next_le
  have hcreated : e < s'.next := Nat.lt_of_lt_of_le h.created hnext
  cases heff.onOne h.created with
  | keep hev hlog =>
    refine ⟨hcreated, ?_, ?_⟩
    · rw [hev]
      exact h.oneShot
    · rw [hev, hlog]
      exact h.spent
  | arm a ha _ _ => exact absurd (by rw [ha]; rfl) hm
  | reset _ hev hlog => exact h.stopped hnext (TimeEvent.reset_ok hev) hlog
  | restart again _ hev hlog =>
    rcases (s.evs e).restart_eq (m.clk 0) with ⟨-, heq⟩ | ⟨hno, -⟩
    · rw [hev, Except.ok.injEq, Prod.mk.injEq] at heq
      exact h.stopped hnext heq.1 hlog
    · exact absurd h.oneShot hno
  | enter hlocked hdue hev hlog =>
    -- it is started and not locked, so this is the first time
    have hstarted : (s.evs e).started = true := started_of_timerRest hdue
    have hzero : (entered s.log).count e = 0 := by
      rcases h.spent with hzero | ⟨-, hlock | hstop⟩
      · exact hzero
      · rw [hlocked] at hlock
        cases hlock
      · rw [hstarted] at hstop
        cases hstop
    refine ⟨hcreated, ?_, Or.inr ⟨by omega, Or.inl ?_⟩⟩
    · rw [hev]
      exact h.oneShot
    · rw [hev]
      rfl
  | leave hrun hev hlog =>
    -- the callback has returned: `restart` stops the event
    have hone : (s.evs e).unlock.OneShot := h.oneShot
    rcases (s.evs e).unlock.afterFire_eq (m.clk 0) with ⟨-, hno, -⟩ | ⟨-, heq⟩
    · exact absurd hone hno
    · rw [hev, Except.ok.injEq] at heq
      refine ⟨hcreated, ?_, ?_⟩
      · rw [heq]
        exact hone
      · rw [hlog]
        rcases h.spent with hzero | ⟨hcount, -⟩
        · exact Or.inl hzero
        · exact Or.inr ⟨hcount, Or.inr (by rw [heq]; rfl)⟩

/-- An event that was just created as a one-shot event. -/
theorem Shot.created_by {s s' : State} {m : Move} (h : Inv s) {a : Arm}
    (hone : (TimeEvent.init.arm (m.clk 0) a).OneShot) (hs : s' = s.add (TimeEvent.init.arm (m.clk 0) a)) :
    Shot s.next s' := by
  subst hs
  refine ⟨Nat.lt_succ_self _, ?_, Or.inl ?_⟩
  · show ((s.setEv s.next _).evs s.next).OneShot
    rw [State.setEv_self]
    exact hone
  · show (entered s.log).count s.next = 0
    exact List.count_eq_zero_of_not_mem fun hmem => absurd (h.born _ hmem) (Nat.lt_irrefl _)

theorem shot_of_adds {msec : Int} {s s' : State} {m : Move} (h : Inv s) (hm : m.act.AddsOneShot)
    (hstep : step msec s m = some s') : Shot s.next s' := by
  unfold step at hstep
  rcases hm with ⟨tm, hm⟩ | ⟨interval, hm⟩
  · rw [hm, if_neg (by rintro ⟨⟩)] at hstep
    split at hstep <;> cases hstep
    refine Shot.created_by (m := m) (a := .setTime tm) h ?_ rfl
    exact Or.inr (TimeEvent.armedWith_arm _ _ (.setTime tm)).2.1
  · rw [hm, if_neg (by rintro ⟨⟩)] at hstep
    split at hstep <;> cases hstep
    refine Shot.created_by (m := m) (a := .setIntervalOnce interval) h ?_ rfl
    exact Or.inl rfl

/-! ## Every run -/

/-- **No re-entry and at most one shot.**  In every run, with calls of the loop nested to any depth, no
    callback is entered while it is running, and the callback of an event that `add_once` or `add_time`
    created and nobody arms again is entered at most once. -/
theorem no_reentry_and_one_shot {msec : Int} {ms : List Move} {s : State}
    (h : run (step msec) init ms = some s) :
    (∀ m s' e, step msec s m = some s' → Enters s s' e → e ∉ running s.stack) ∧
    (∀ (m : Move) (ms' : List Move) (t : State), m.act.AddsOneShot →
      run (step msec) s (m :: ms') = some t → (∀ m' ∈ ms', m'.act.arms ≠ some s.next) →
      (entered t.log).count s.next ≤ 1) := by
  have hinv := run_inv h
  refine ⟨fun m s' e hstep hin => not_running_of_enters hinv hstep hin, ?_⟩
  intro m ms' t hm hrun hno
  obtain ⟨s', hs', ht⟩ := run_cons_inv (step msec) hrun
  have hshot : Shot s.next t :=
    run_invariant_of (step msec) (P := fun m => m.act.arms ≠ some s.next)
      (fun _ _ _ hm h hstep => h.step hm hstep) ms' s' t hno (shot_of_adds hinv hm hs') ht
  rcases hshot.spent with hzero | ⟨hone, -⟩
  · omega
  · omega

/-- A one-shot event 0 and a repeating event 1 with the same interval; the callback of event 0 polls
    again, and the nested pass skips its event, which is locked. -/
def pollInCallback : List Move :=
  [Act.addOnce 10 |>.when 0, Act.addInterval 10 |>.when 0,
    Act.call (.poll 50) |>.when 0, Act.tick.when 0, Act.pollerRet (some 0) |>.when 10, Act.tick.when 10,
    Act.call (.poll 0) |>.when 10, Act.tick.when 10, Act.pollerRet (some 0) |>.when 10, Act.tick.when 10]

/-- The nested pass enters event 1 while the callback of event 0 is running. -/
theorem no_reentry_nested : ∃ s s' : State, run (step 1) init pollInCallback = some s ∧
    step 1 s (Act.tick.when 10) = some s' ∧ Enters s s' 1 ∧ running s.stack = [0] ∧ 1 ∉ running s.stack ∧
    (entered s'.log).count 0 ≤ 1 := by
  obtain ⟨s', hs'⟩ : ∃ s', run (step 1) init (pollInCallback ++ [Act.tick.when 10]) = some s' :=
    ⟨_, (Option.some_get (by decide)).symm⟩
  obtain ⟨s, hs, hrun⟩ := run_append_inv (step 1) _ _ hs'
  obtain ⟨_, hstep, heq⟩ := run_cons_inv (step 1) hrun
  cases heq
  have hlog : entered s.log = [0] := run_shows (step 1) hs (f := fun s => entered s.log) (by decide)
  have hlog' : entered s'.log = [0, 1] := run_shows (step 1) hs' (f := fun s => entered s.log) (by decide)
  have hrunning : running s.stack = [0] := run_shows (step 1) hs (f := fun s => running s.stack) (by decide)
  have hin : Enters s s' 1 := by
    unfold Enters
    rw [hlog, hlog']
    rfl
  have hinit : run (step 1) init [] = some init := rfl
  refine ⟨s, s', hs, hstep, hin, hrunning, ?_, ?_⟩
  · exact (no_reentry_and_one_shot hs).1 _ s' 1 hstep hin
  · exact (no_reentry_and_one_shot hinit).2 _ _ s' (Or.inr ⟨10, rfl⟩) hs' (by decide)

end Lzmq.Loop
