/-
  What holds in every reachable state.

  `Inv` is proved from the effects of one move.  The part that carries the rest is that a running
  callback belongs to a locked event (`locked`): `fire` enters unlocked events only, and only the return
  of a callback unlocks its event, so no callback is on the stack twice (`once`).  A locked event is not
  removed from the list, so the event of a running callback is listed (`listed`).
-/
import Lzmq.Loop.Effect

namespace Lzmq.Loop

open Lzmq.Cursor Lzmq.Steps

/-! ## Events -/

namespace State

@[simp] theorem setEv_self (s : State) (e : Nat) (ev : TimeEvent) : (s.setEv e ev).evs e = ev := by
  unfold setEv
  exact Function.update_self _ _ _

theorem setEv_ne (s : State) {e x : Nat} (ev : TimeEvent) (h : x ≠ e) :
    (s.setEv e ev).evs x = s.evs x := by
  unfold setEv
  exact Function.update_of_ne h _ _

end State

namespace TimeEvent

/-- What `event_list:fire` does after the callback: a repeating event that is still started starts
    again, any other is left stopped.  No assertion fails. -/
theorem afterFire_eq (ev : TimeEvent) (c : Clock) :
    (ev.started = true ∧ ¬ ev.OneShot ∧
      ev.afterFire c = .ok { ev with timer := timerStart ev.timer c none }) ∨
    ((ev.started = false ∨ ev.OneShot) ∧
      ev.afterFire c = .ok { ev with timer := { ev.timer with started := false } }) := by
  unfold afterFire
  by_cases hs : ev.started = true
  · rw [if_pos hs]
    rcases ev.restart_eq c with ⟨hone, hr⟩ | ⟨hone, hr⟩
    · rw [hr]
      exact Or.inr ⟨Or.inr hone, rfl⟩
    · rw [hr]
      exact Or.inl ⟨hs, hone, rfl⟩
  · rw [if_neg hs]
    rw [Bool.not_eq_true] at hs
    refine Or.inr ⟨Or.inl hs, ?_⟩
    unfold started at hs
    rw [← hs]

theorem locked_afterFire {ev ev' : TimeEvent} {c : Clock} (h : ev.afterFire c = .ok ev') :
    ev'.locked = ev.locked := by
  rcases ev.afterFire_eq c with ⟨-, -, heq⟩ | ⟨-, heq⟩
  · cases h.symm.trans heq
    rfl
  · cases h.symm.trans heq
    rfl

theorem setted_afterFire {ev ev' : TimeEvent} {c : Clock} (h : ev.afterFire c = .ok ev') :
    ev'.timer.setted = ev.timer.setted := by
  rcases ev.afterFire_eq c with ⟨-, -, heq⟩ | ⟨-, heq⟩
  · cases h.symm.trans heq
    rfl
  · cases h.symm.trans heq
    rfl

theorem locked_restart {ev ev' : TimeEvent} {c : Clock} {again : Bool}
    (h : ev.restart c = .ok (ev', again)) : ev'.locked = ev.locked ∧ ev'.timer.setted = ev.timer.setted := by
  rcases ev.restart_eq c with ⟨-, heq⟩ | ⟨-, heq⟩
  · cases h.symm.trans heq
    exact ⟨rfl, rfl⟩
  · cases h.symm.trans heq
    exact ⟨rfl, rfl⟩

end TimeEvent

/-- `event_list:purge` keeps what is locked or started. -/
theorem State.mem_purge {s : State} {e : Nat} :
    e ∈ s.purge ↔ e ∈ s.events ∧ ((s.evs e).locked = true ∨ (s.evs e).started = true) := by
  unfold State.purge TimeEvent.dead
  rw [removeDown_eq_filter, List.mem_filter]
  cases (s.evs e).locked <;> cases (s.evs e).started <;> simp

/-! ## The invariant -/

/-- Holds in every reachable state. -/
structure Inv (s : State) : Prop where
  /-- An event is listed once. -/
  nodup : s.events.Nodup
  fresh : ∀ e ∈ s.events, e < s.next
  /-- Every event was given a deadline or an interval. -/
  setted : ∀ e < s.next, (s.evs e).timer.setted = true
  /-- The event of a running callback is locked, -/
  locked : ∀ e ∈ running s.stack, (s.evs e).locked = true
  /-- and still in the list. -/
  listed : ∀ e ∈ running s.stack, e ∈ s.events
  once : (running s.stack).Nodup
  born : ∀ e ∈ entered s.log, e < s.next

theorem inv_init : Inv init := by
  constructor
  · exact List.nodup_nil
  · intro e he; cases he
  · intro e he; exact absurd he (Nat.not_lt_zero e)
  · intro e he; cases he
  · intro e he; cases he
  · exact List.nodup_nil
  · intro e he; cases he

/-- Only the events, the list, the running callbacks and the callbacks entered matter. -/
theorem Inv.congr {s s' : State} (h : Inv s) (hsame : Same s s')
    (hrun : (running s'.stack).Sublist (running s.stack)) : Inv s' := by
  have hmem : ∀ e ∈ running s'.stack, e ∈ running s.stack := fun e he => hrun.subset he
  constructor
  · rw [hsame.events]; exact h.nodup
  · rw [hsame.events, hsame.next]; exact h.fresh
  · rw [hsame.next, hsame.evs]; exact h.setted
  · rw [hsame.evs]; exact fun e he => h.locked e (hmem e he)
  · rw [hsame.events]; exact fun e he => h.listed e (hmem e he)
  · exact hrun.nodup h.once
  · rw [hsame.entered, hsame.next]; exact h.born

theorem Inv.setEv {s : State} (h : Inv s) {e : Nat} {ev : TimeEvent}
    (hlocked : ev.locked = (s.evs e).locked) (hsetted : ev.timer.setted = true) : Inv (s.setEv e ev) := by
  refine ⟨h.nodup, h.fresh, ?_, ?_, h.listed, h.once, h.born⟩
  · intro x hx
    by_cases hxe : x = e
    · rw [hxe, State.setEv_self]
      exact hsetted
    · rw [State.setEv_ne s ev hxe]
      exact h.setted x hx
  · intro x hx
    by_cases hxe : x = e
    · rw [hxe, State.setEv_self, hlocked]
      exact h.locked e (hxe ▸ hx)
    · rw [State.setEv_ne s ev hxe]
      exact h.locked x hx

theorem Inv.add {s : State} (h : Inv s) {ev : TimeEvent} (hsetted : ev.timer.setted = true) :
    Inv (s.add ev) := by
  have hevs : ∀ e < s.next, (s.add ev).evs e = s.evs e := fun e he =>
    State.setEv_ne s ev (Nat.ne_of_lt he)
  have hrun : ∀ e ∈ running s.stack, e < s.next := fun e he => h.fresh e (h.listed e he)
  constructor
  · show (s.events ++ [s.next]).Nodup
    refine List.nodup_append.mpr ⟨h.nodup, List.nodup_singleton _, ?_⟩
    rintro a ha b hb rfl
    rw [List.mem_singleton.mp hb] at ha
    exact absurd (h.fresh _ ha) (Nat.lt_irrefl _)
  · intro e he
    rcases List.mem_append.mp he with he | he
    · exact Nat.lt_succ_of_lt (h.fresh e he)
    · rw [List.mem_singleton.mp he]
      exact Nat.lt_succ_self _
  · intro e he
    rcases Nat.lt_succ_iff_lt_or_eq.mp he with he | rfl
    · rw [hevs e he]
      exact h.setted e he
    · show ((s.setEv s.next ev).evs s.next).timer.setted = true
      rw [State.setEv_self]
      exact hsetted
  · intro e he
    rw [hevs e (hrun e he)]
    exact h.locked e he
  · exact fun e he => List.mem_append_left _ (h.listed e he)
  · exact h.once
  · exact fun e he => Nat.lt_succ_of_lt (h.born e he)

/-- A callback is entered: its event was not locked, so it was not running. -/
theorem Inv.enter {s s' : State} (h : Inv s) {i cnt e : Nat} {st : List Frame}
    (hstack : s.stack = .fire i cnt none :: st) (he : s.events[i]? = some e)
    (hlocked : (s.evs e).locked = false) (hevs : s'.evs = (s.setEv e (s.evs e).lock).evs)
    (hnext : s'.next = s.next) (hevents : s'.events = s.events)
    (hstack' : s'.stack = .fire i cnt (some e) :: st) (hlog : s'.log = s.log ++ [.enter e]) : Inv s' := by
  have hrun : running s.stack = running st := by rw [hstack, running_fire]; rfl
  have hrun' : running s'.stack = e :: running st := by rw [hstack', running_fire]; rfl
  have hmem : e ∈ s.events := List.mem_of_getElem? he
  have hnot : e ∉ running st := by
    intro hin
    rw [← hrun] at hin
    rw [h.locked e hin] at hlocked
    cases hlocked
  have hne : ∀ x ∈ running st, x ≠ e := fun x hx hxe => hnot (hxe ▸ hx)
  have hold : ∀ x ∈ running st, x ∈ running s.stack := fun x hx => by rw [hrun]; exact hx
  constructor
  · rw [hevents]; exact h.nodup
  · rw [hevents, hnext]; exact h.fresh
  · intro x hx
    rw [hnext] at hx
    rw [hevs]
    by_cases hxe : x = e
    · rw [hxe, State.setEv_self]
      exact h.setted e (h.fresh e hmem)
    · rw [State.setEv_ne s _ hxe]
      exact h.setted x hx
  · intro x hx
    rw [hrun'] at hx
    rw [hevs]
    rcases List.mem_cons.mp hx with rfl | hx
    · rw [State.setEv_self]
      rfl
    · rw [State.setEv_ne s _ (hne x hx)]
      exact h.locked x (hold x hx)
  · intro x hx
    rw [hrun'] at hx
    rw [hevents]
    rcases List.mem_cons.mp hx with rfl | hx
    · exact hmem
    · exact h.listed x (hold x hx)
  · rw [hrun', List.nodup_cons]
    exact ⟨hnot, hrun ▸ h.once⟩
  · intro x hx
    rw [hlog, entered_append] at hx
    rw [hnext]
    rcases List.mem_append.mp hx with hx | hx
    · exact h.born x hx
    · rw [List.mem_singleton.mp hx]
      exact h.fresh e hmem

/-- A callback returns: its event is unlocked, and no other invocation of it is running. -/
theorem Inv.leave {s s' : State} (h : Inv s) {i cnt e : Nat} {ev : TimeEvent} {st : List Frame} {c : Clock}
    (hstack : s.stack = .fire i cnt (some e) :: st) (hev : (s.evs e).unlock.afterFire c = .ok ev)
    (hevs : s'.evs = (s.setEv e ev).evs) (hnext : s'.next = s.next) (hevents : s'.events = s.events)
    (hrun' : running s'.stack = running st) (hlog : entered s'.log = entered s.log) : Inv s' := by
  have hrun : running s.stack = e :: running st := by rw [hstack, running_fire]; rfl
  have honce := h.once
  rw [hrun, List.nodup_cons] at honce
  have hne : ∀ x ∈ running st, x ≠ e := fun x hx hxe => honce.1 (hxe ▸ hx)
  have hold : ∀ x ∈ running st, x ∈ running s.stack := fun x hx => by
    rw [hrun]; exact List.mem_cons_of_mem e hx
  have hein : e ∈ running s.stack := by rw [hrun]; exact List.mem_cons_self
  constructor
  · rw [hevents]; exact h.nodup
  · rw [hevents, hnext]; exact h.fresh
  · intro x hx
    rw [hnext] at hx
    rw [hevs]
    by_cases hxe : x = e
    · rw [hxe, State.setEv_self, TimeEvent.setted_afterFire hev]
      exact h.setted e (h.fresh e (h.listed e hein))
    · rw [State.setEv_ne s _ hxe]
      exact h.setted x hx
  · intro x hx
    rw [hrun'] at hx
    rw [hevs, State.setEv_ne s _ (hne x hx)]
    exact h.locked x (hold x hx)
  · intro x hx
    rw [hrun'] at hx
    rw [hevents]
    exact h.listed x (hold x hx)
  · rw [hrun']; exact honce.2
  · rw [hlog, hnext]; exact h.born

/-- The list loses an event that is neither locked nor started. -/
theorem Inv.remove {s s' : State} (h : Inv s) (hevs : s'.evs = s.evs) (hnext : s'.next = s.next)
    (hsub : s'.events.Sublist s.events)
    (hkeep : ∀ e ∈ s.events, (s.evs e).locked = true → e ∈ s'.events)
    (hrun : running s'.stack = running s.stack) (hlog : entered s'.log = entered s.log) : Inv s' := by
  constructor
  · exact hsub.nodup h.nodup
  · rw [hnext]; exact fun e he => h.fresh e (hsub.subset he)
  · rw [hevs, hnext]; exact h.setted
  · rw [hevs, hrun]; exact h.locked
  · rw [hrun]; exact fun e he => hkeep e (h.listed e he) (h.locked e he)
  · rw [hrun]; exact h.once
  · rw [hlog, hnext]; exact h.born

/-- **What one move preserves.** -/
theorem step_inv {msec : Int} {s s' : State} {m : Move} (h : Inv s) (hstep : step msec s m = some s') :
    Inv s' := by
  cases step_effect hstep with
  | control hsame hpass => exact h.congr hsame (by rw [running_congr hpass])
  | throw n _ hsame hstack => exact h.congr hsame (by rw [hstack]; exact running_drop _ _)
  | add a _ hs =>
    rw [hs]
    exact h.add (TimeEvent.setted_arm _ _ _)
  | arm e a _ _ hs =>
    rw [hs]
    exact h.setEv (TimeEvent.locked_arm _ _ _) (TimeEvent.setted_arm _ _ _)
  | reset e ev _ he hev hs =>
    rw [hs]
    rw [TimeEvent.reset_ok hev]
    exact h.setEv rfl (h.setted e he)
  | restart e ev again _ he hev hs =>
    rw [hs]
    obtain ⟨hlocked, hsetted⟩ := TimeEvent.locked_restart hev
    exact h.setEv hlocked (hsetted.trans (h.setted e he))
  | begin cnt st hstack hsame hstack' =>
    refine h.congr hsame ?_
    rw [hstack, hstack']
    exact List.Sublist.refl _
  | skip i cnt e st _ hstack _ _ hs =>
    refine h.congr ?_ ?_
    · rw [hs]; exact ⟨rfl, rfl, rfl, rfl⟩
    · rw [hs, hstack]; exact List.Sublist.refl _
  | drop i cnt e st _ he hlocked _ hs =>
    subst hs
    refine h.remove rfl rfl (List.eraseIdx_sublist _ _) ?_ rfl rfl
    intro x hx hlock
    apply mem_eraseIdx_of_ne he hx
    rintro rfl
    rw [hlocked] at hlock
    cases hlock
  | enter i cnt e st _ hstack he hlocked _ hs =>
    subst hs
    exact h.enter hstack he hlocked rfl rfl rfl rfl rfl
  | leave i cnt e ev st hstack hev hs =>
    subst hs
    exact h.leave hstack hev rfl rfl rfl (by rw [running_fire]; rfl) rfl
  | finish i cnt st hstack _ hs =>
    subst hs
    refine h.remove rfl rfl ?_ ?_ ?_ rfl
    · show s.purge.Sublist s.events
      unfold State.purge
      rw [removeDown_eq_filter]
      exact List.filter_sublist
    · exact fun e he hlock => State.mem_purge.mpr ⟨he, Or.inl hlock⟩
    · show running st = running s.stack
      rw [hstack, running_fire]
      rfl

/-- **What every run preserves.** -/
theorem run_inv {msec : Int} {ms : List Move} {s : State} (h : run (step msec) init ms = some s) : Inv s :=
  run_invariant (step msec) (fun _ _ _ h hstep => step_inv h hstep) ms init s inv_init h

end Lzmq.Loop
