/-
  Arming an event again.

  `set_time`, `set_interval` and `set_interval_once` write the timer of an event handle; they do not look
  at the event list, and not at the callback that may be running.  So two things can undo them:
    * a pass removes stopped events from the list for good, and arming does not put them back
      (`not_rearmed`, first part);
    * after the callback `fire` calls `restart`, which stops a one-shot event whether or not the
      callback has just armed it (second part).
  `rearmed_until_fired` shows that there is nothing else: an event that is listed and whose callback is
  not running, or that is armed by `set_interval`, stays armed and listed in every run that does not
  handle or fire it.
-/
import Lzmq.Loop.OneEvent

namespace Lzmq.Loop

open Lzmq.Steps

/-! ## Locked events -/

/-- Only the events of running callbacks are locked. -/
def LockedRuns (s : State) : Prop := ∀ e, (s.evs e).locked = true → e ∈ running s.stack

theorem LockedRuns.setEv {s s' : State} (h : LockedRuns s) {e : Nat} {ev : TimeEvent}
    (hlocked : ev.locked = true → e ∈ running s.stack) (hevs : s'.evs = (s.setEv e ev).evs)
    (hstack : s'.stack = s.stack) : LockedRuns s' := by
  intro x hx
  rw [hevs] at hx
  rw [hstack]
  by_cases hxe : x = e
  · rw [hxe, State.setEv_self] at hx
    exact hxe ▸ hlocked hx
  · rw [State.setEv_ne s ev hxe] at hx
    exact h x hx

theorem LockedRuns.congr {s s' : State} (h : LockedRuns s) (hevs : s'.evs = s.evs)
    (hrun : running s'.stack = running s.stack) : LockedRuns s' := by
  intro x hx
  rw [hevs] at hx
  rw [hrun]
  exact h x hx

/-- **One move** that does not throw. -/
theorem LockedRuns.step {msec : Int} {s s' : State} {m : Move} (h : LockedRuns s)
    (hm : m.act.throws = false) (hstep : Loop.step msec s m = some s') : LockedRuns s' := by
  cases step_effect hstep with
  | control hsame hpass => exact h.congr hsame.evs (running_congr hpass)
  | throw n hthrow _ _ =>
    rw [hthrow] at hm
    cases hm
  | begin cnt st hstack hsame hstack' =>
    refine h.congr hsame.evs ?_
    rw [hstack, hstack']
    rfl
  | add a _ hs =>
    subst hs
    refine h.setEv (e := s.next) ?_ rfl rfl
    rw [TimeEvent.locked_arm]
    intro hlock
    cases hlock
  | arm e a _ _ hs =>
    subst hs
    refine h.setEv (fun hlock => h e ?_) rfl rfl
    rwa [TimeEvent.locked_arm] at hlock
  | reset e ev _ _ hev hs =>
    subst hs
    refine h.setEv (fun hlock => h e ?_) rfl rfl
    rwa [TimeEvent.reset_ok hev] at hlock
  | restart e ev again _ _ hev hs =>
    subst hs
    refine h.setEv (fun hlock => h e ?_) rfl rfl
    rwa [(TimeEvent.locked_restart hev).1] at hlock
  | skip i cnt e st _ hstack _ _ hs | finish i cnt st hstack _ hs =>
    subst hs
    refine h.congr rfl ?_
    rw [hstack]
    rfl
  | drop i cnt e st _ _ _ _ hs =>
    subst hs
    exact h.congr rfl rfl
  | enter i cnt e st _ hstack _ _ _ hs =>
    subst hs
    have hrun : running s.stack = running st := by rw [hstack, running_fire]; rfl
    intro x hx
    rw [running_fire]
    by_cases hxe : x = e
    · exact List.mem_append_left _ (hxe ▸ List.mem_singleton.mpr rfl)
    · refine List.mem_append_right _ (hrun ▸ h x ?_)
      rwa [← State.setEv_ne s (s.evs e).lock hxe]
  | leave i cnt e ev st hstack hev hs =>
    subst hs
    intro x hx
    have hrun : running s.stack = e :: running st := by rw [hstack, running_fire]; rfl
    by_cases hxe : x = e
    · have hlock : ((s.setEv e ev).evs e).locked = true := hxe ▸ hx
      rw [State.setEv_self, TimeEvent.locked_afterFire hev] at hlock
      cases hlock
    · have hmem : x ∈ running s.stack := h x (by rwa [← State.setEv_ne s ev hxe])
      rw [hrun] at hmem
      rw [running_fire]
      exact (List.mem_cons.mp hmem).resolve_left hxe

theorem run_lockedRuns {msec : Int} {ms : List Move} {s t : State} (h : LockedRuns s)
    (hno : ∀ m ∈ ms, m.act.throws = false) (hrun : run (step msec) s ms = some t) : LockedRuns t :=
  run_invariant_of (step msec) (fun _ _ _ hm h hstep => h.step hm hstep) ms s t hno h hrun

theorem lockedRuns_init : LockedRuns init := by
  intro e he
  cases he

/-! ## An armed event -/

/-- The event `e` as it is after `a` was called for it in the state `s₀`, until it is fired or handled
    again. -/
structure Rearmed (e : Nat) (a : Arm) (s₀ : State) (c : Clock) (s : State) : Prop where
  created : e < s.next
  armed : (s.evs e).ArmedWith a
  listed : e ∈ s.events
  /-- A callback that is still running will be followed by `restart`. -/
  repeats : e ∈ running s.stack → ∃ d, a = .setInterval d
  kept : e ∉ running s₀.stack → e ∉ running s.stack ∧ (s.evs e).timer = ((s₀.evs e).arm c a).timer

/-- `restart` after the callback keeps an interval that the callback has set. -/
theorem armedWith_afterFire {ev ev' : TimeEvent} {c : Clock} {d : Int} (h : ev.ArmedWith (.setInterval d))
    (hev : ev.unlock.afterFire c = .ok ev') : ev'.ArmedWith (.setInterval d) := by
  obtain ⟨hstarted, hkind, hfire, honce⟩ := h
  have hno : ¬ ev.unlock.OneShot := by
    rintro (h | h)
    · exact Bool.false_ne_true (honce.symm.trans h)
    · exact absurd (hkind.symm.trans h) (by decide)
  rcases ev.unlock.afterFire_eq c with ⟨-, -, heq⟩ | ⟨hstop | hone, -⟩
  · cases hev.symm.trans heq
    exact ⟨rfl, hkind, hfire, honce⟩
  · exact absurd (hstarted.symm.trans hstop) (by decide)
  · exact absurd hone hno

/-- **One move** that neither handles nor enters `e`. -/
theorem Rearmed.step {msec : Int} {e : Nat} {a : Arm} {s₀ s s' : State} {c : Clock} {m : Move}
    (h : Rearmed e a s₀ c s) (hm : m.act.handles ≠ some e)
    (hstep : Loop.step msec s m = some s')
    (hcount : (entered s'.log).count e = (entered s.log).count e) : Rearmed e a s₀ c s' := by
  have heff := step_effect hstep
  have hcreated : e < s'.next := Nat.lt_of_lt_of_le h.created heff.next_le
  have hlisted : e ∈ s'.events := heff.listed h.listed (Or.inr h.armed.started)
  have hrunning : e ∈ running s'.stack → e ∈ running s.stack := by
    intro he
    rcases heff.running_of_running he with he | hlog
    · exact he
    · rw [hlog, List.count_append, List.count_singleton_self] at hcount
      omega
  have hrepeats : e ∈ running s'.stack → ∃ d, a = .setInterval d := fun he => h.repeats (hrunning he)
  cases heff.onOne h.created with
  | keep hev _ =>
    refine ⟨hcreated, ?_, hlisted, hrepeats, fun hno => ⟨fun he => ?_, ?_⟩⟩
    · rw [hev]
      exact h.armed
    · exact (h.kept hno).1 (hrunning he)
    · rw [hev]
      exact (h.kept hno).2
  | arm _ hact _ _ => exact absurd (by rw [hact]; rfl) hm
  | reset hact _ _ => exact absurd (by rw [hact]; rfl) hm
  | restart _ hact _ _ => exact absurd (by rw [hact]; rfl) hm
  | enter _ _ _ hlog => omega
  | leave hrun hev _ =>
    -- the callback in which the event was armed returns
    obtain ⟨d, rfl⟩ := h.repeats hrun
    refine ⟨hcreated, armedWith_afterFire h.armed hev, hlisted, hrepeats, fun hno => ?_⟩
    exact absurd hrun (h.kept hno).1

/-- **A run** that neither handles nor enters `e`. -/
theorem Rearmed.run {msec : Int} {e : Nat} {a : Arm} {s₀ : State} {c : Clock} : ∀ (ms : List Move)
    (s t : State), Rearmed e a s₀ c s → (∀ m ∈ ms, m.act.handles ≠ some e) →
    Steps.run (Loop.step msec) s ms = some t → (entered t.log).count e = (entered s.log).count e →
    Rearmed e a s₀ c t := by
  intro ms
  induction ms with
  | nil =>
    intro s t h _ hrun _
    cases hrun
    exact h
  | cons m ms ih =>
    intro s t h hhandle hrun hcount
    obtain ⟨s', hstep, hrest⟩ := run_cons_inv (Loop.step msec) hrun
    -- the count only grows, so the first move does not enter `e`
    have hfirst := ((step_effect hstep).onOne h.created).count_le
    have hcreated : e < s'.next := Nat.lt_of_lt_of_le h.created (step_effect hstep).next_le
    have hlater := (run_count_le hcreated hrest).2
    have h' : Rearmed e a s₀ c s' := h.step (hhandle m List.mem_cons_self) hstep (by omega)
    exact ih s' t h' (fun m' hm' => hhandle m' (List.mem_cons_of_mem m hm')) hrest (by omega)

/-- Arming an event that is listed. -/
theorem rearmed_of_arm {msec : Int} {e : Nat} {a : Arm} {s s' : State} {m : Move} (hinv : Inv s)
    (hact : m.act = .arm e a) (hlisted : e ∈ s.events)
    (hown : e ∉ running s.stack ∨ ∃ d, a = .setInterval d) (hstep : step msec s m = some s') :
    Rearmed e a s (m.clk 0) s' ∧ entered s'.log = entered s.log := by
  have he : e < s.next := hinv.fresh e hlisted
  obtain rfl : s.setEv e ((s.evs e).arm (m.clk 0) a) = s' := by
    unfold step at hstep
    rw [hact, if_neg (by rintro ⟨⟩)] at hstep
    split at hstep
    · dsimp only [State.user, State.onEvent] at hstep
      rw [if_pos he] at hstep
      exact Option.some.inj hstep
    · cases hstep
  refine ⟨⟨he, ?_, hlisted, fun hrun => hown.resolve_left fun hno => hno hrun, fun hno => ⟨hno, ?_⟩⟩, rfl⟩
  · rw [State.setEv_self]
    exact TimeEvent.armedWith_arm _ _ _
  · rw [State.setEv_self]

/-! ## Every run -/

/-- **Arming is honoured.**  In a run without errors let an event that is in the list be armed while its
    callback is not running, or by `set_interval`.  Until it is fired or handled again it is started with
    the new deadline or interval, it is in the list, and it is locked only while its callback is running.
    Unless it is armed from inside its callback, its timer is as the call has left it. -/
theorem rearmed_until_fired {msec : Int} {ms ms' : List Move} {m : Move} {s t : State} {e : Nat} {a : Arm}
    (hs : run (step msec) init ms = some s) (ht : run (step msec) s (m :: ms') = some t)
    (hthrow : ∀ m' ∈ ms ++ ms', m'.act.throws = false) (hact : m.act = .arm e a)
    (hlisted : e ∈ s.events) (hown : e ∉ running s.stack ∨ ∃ d, a = .setInterval d)
    (hhandle : ∀ m' ∈ ms', m'.act.handles ≠ some e)
    (hfire : (entered t.log).count e = (entered s.log).count e) :
    (t.evs e).ArmedWith a ∧ e ∈ t.events ∧ ((t.evs e).locked = true → e ∈ running t.stack) ∧
      (e ∉ running s.stack → (t.evs e).timer = ((s.evs e).arm (m.clk 0) a).timer) := by
  obtain ⟨s', hs', hrun⟩ := run_cons_inv (step msec) ht
  obtain ⟨hstart, hlog⟩ := rearmed_of_arm (run_inv hs) hact hlisted hown hs'
  have hfinal : Rearmed e a s (m.clk 0) t :=
    hstart.run ms' s' t hhandle hrun (by rw [hfire, hlog])
  have hlocks : LockedRuns t := by
    have hnothrow : m.act.throws = false := by rw [hact]; rfl
    have hs₁ : LockedRuns s := run_lockedRuns lockedRuns_init
      (fun m' hm' => hthrow m' (List.mem_append_left _ hm')) hs
    exact run_lockedRuns (hs₁.step hnothrow hs')
      (fun m' hm' => hthrow m' (List.mem_append_right _ hm')) hrun
  exact ⟨hfinal.armed, hfinal.listed, hlocks e, fun hno => (hfinal.kept hno).2⟩

/-- An interval event of 0 ms in its callback. -/
def inIntervalCallback : List Move :=
  [Act.addInterval 0 |>.when 0, Act.call (.poll 50) |>.when 0, Act.tick.when 0,
    Act.pollerRet (some 0) |>.when 1, Act.tick.when 1]

/-- The example of the documentation: the callback sets a new interval. -/
theorem rearmed_in_callback : ∃ t : State,
    run (step 1) init (inIntervalCallback ++ [Act.arm 0 (.setInterval 1000) |>.when 2, Act.leave.when 3]) =
      some t ∧ (t.evs 0).ArmedWith (.setInterval 1000) ∧ 0 ∈ t.events := by
  obtain ⟨t, ht⟩ : ∃ t, run (step 1) init (inIntervalCallback ++
      [Act.arm 0 (.setInterval 1000) |>.when 2, Act.leave.when 3]) = some t :=
    ⟨_, (Option.some_get (by decide)).symm⟩
  obtain ⟨s, hs, hrun⟩ := run_append_inv (step 1) _ _ ht
  have hevents : s.events = [0] := run_shows (step 1) hs (f := fun s => s.events) (by decide)
  have hlog : entered s.log = [0] := run_shows (step 1) hs (f := fun s => entered s.log) (by decide)
  have hlog' : entered t.log = [0] := run_shows (step 1) ht (f := fun s => entered s.log) (by decide)
  obtain ⟨harmed, hlisted, -⟩ := rearmed_until_fired hs hrun (by decide) rfl
    (by rw [hevents]; decide) (Or.inr ⟨1000, rfl⟩) (by decide) (by rw [hlog, hlog'])
  exact ⟨t, ht, harmed, hlisted⟩

/-! ## Arming that is undone -/

/-- In the run `ms` the move `m` arms the event `e`, and after `ms'` the event is not as it was armed, or
    a loop without a running pass does not list it; yet nothing was thrown, and `e` was neither fired nor
    handled again. -/
def Undone (msec : Int) (ms : List Move) (m : Move) (e : Nat) (a : Arm) (ms' : List Move) : Prop :=
  ∃ s t, run (step msec) init ms = some s ∧ run (step msec) s (m :: ms') = some t ∧
    (∀ m' ∈ ms ++ ms', m'.act.throws = false) ∧ m.act = .arm e a ∧
    (∀ m' ∈ ms', m'.act.handles ≠ some e) ∧ (entered t.log).count e = (entered s.log).count e ∧
    ¬ ((t.evs e).ArmedWith a ∧ (innermost t.stack = none → e ∈ t.events))

/-- A one-shot event fires, and the pass that fired it removes it. -/
def firedOnce : List Move :=
  [Act.addOnce 10 |>.when 0, Act.call (.poll 50) |>.when 0, Act.tick.when 0,
    Act.pollerRet (some 0) |>.when 10, Act.tick.when 10, Act.leave.when 10, Act.tick.when 10,
    Act.tick.when 10, Act.tick.when 10]

/-- The callback of an event with a deadline. -/
def inTimeCallback : List Move :=
  [Act.addTime 10 |>.when 0, Act.call (.poll 50) |>.when 0, Act.tick.when 0,
    Act.pollerRet (some 0) |>.when 10, Act.tick.when 10]

/-- After it has fired, a one-shot event that is armed again is not in the list; and an event that sets
    itself a new deadline in its callback is stopped when the callback returns. -/
theorem not_rearmed :
    Undone 1 firedOnce (Act.arm 0 (.setInterval 5) |>.when 20) 0 (.setInterval 5) [] ∧
    Undone 1 inTimeCallback (Act.arm 0 (.setTime 20) |>.when 10) 0 (.setTime 20) [Act.leave.when 10] := by
  constructor
  · obtain ⟨t, ht⟩ : ∃ t, run (step 1) init (firedOnce ++ [Act.arm 0 (.setInterval 5) |>.when 20]) = some t :=
      ⟨_, (Option.some_get (by decide)).symm⟩
    obtain ⟨s, hs, hrun⟩ := run_append_inv (step 1) _ _ ht
    have hevents : t.events = [] := run_shows (step 1) ht (f := fun s => s.events) (by decide)
    have hstack : t.stack = [] := run_shows (step 1) ht (f := fun s => s.stack) (by decide)
    have hlog : entered s.log = [0] := run_shows (step 1) hs (f := fun s => entered s.log) (by decide)
    have hlog' : entered t.log = [0] := run_shows (step 1) ht (f := fun s => entered s.log) (by decide)
    refine ⟨s, t, hs, hrun, by decide, rfl, by decide, by rw [hlog, hlog'], ?_⟩
    rintro ⟨-, hlisted⟩
    have hmem := hlisted (by rw [hstack]; rfl)
    rw [hevents] at hmem
    cases hmem
  · obtain ⟨t, ht⟩ : ∃ t, run (step 1) init (inTimeCallback ++
        [Act.arm 0 (.setTime 20) |>.when 10, Act.leave.when 10]) = some t :=
      ⟨_, (Option.some_get (by decide)).symm⟩
    obtain ⟨s, hs, hrun⟩ := run_append_inv (step 1) _ _ ht
    have hstarted : (t.evs 0).started = false :=
      run_shows (step 1) ht (f := fun s => (s.evs 0).started) (by decide)
    have hlog : entered s.log = [0] := run_shows (step 1) hs (f := fun s => entered s.log) (by decide)
    have hlog' : entered t.log = [0] := run_shows (step 1) ht (f := fun s => entered s.log) (by decide)
    refine ⟨s, t, hs, hrun, by decide, rfl, by decide, by rw [hlog, hlog'], ?_⟩
    rintro ⟨harmed, -⟩
    exact Bool.false_ne_true (hstarted.symm.trans harmed.started)

end Lzmq.Loop
