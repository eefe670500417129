/-
  What one move does to one event.

  Properties of a single event along a run need only its own record, whether it is listed, whether its
  callback is running and how often it was entered.  `Effect.onOne` reads that off an `Effect`: the
  event stays as it is, or user code arms, resets or restarts it, or its callback is entered or returns.
-/
import Lzmq.Loop.Invariant

namespace Lzmq.Loop

open Lzmq.Cursor Lzmq.Steps

/-- The event an action arms. -/
def Act.arms : Act → Option Nat
  | .arm e _ => some e
  | _ => none

/-- The event an action arms, resets or restarts. -/
def Act.handles : Act → Option Nat
  | .arm e _ => some e
  | .reset e => some e
  | .restart e => some e
  | _ => none

/-- User code throws an error past the callback it runs in. -/
def Act.throws : Act → Bool
  | .throw _ => true
  | _ => false

/-- What a move `m` from `s` to `s'` does to the event `e`. -/
inductive OnOne (s : State) (m : Move) (s' : State) (e : Nat) : Prop
  | keep (hev : s'.evs e = s.evs e) (hlog : (entered s'.log).count e = (entered s.log).count e)
  | arm (a : Arm) (hm : m.act = .arm e a) (hev : s'.evs e = (s.evs e).arm (m.clk 0) a)
      (hlog : entered s'.log = entered s.log)
  | reset (hm : m.act = .reset e) (hev : (s.evs e).reset = .ok (s'.evs e))
      (hlog : entered s'.log = entered s.log)
  | restart (again : Bool) (hm : m.act = .restart e)
      (hev : (s.evs e).restart (m.clk 0) = .ok (s'.evs e, again)) (hlog : entered s'.log = entered s.log)
  | enter (hlocked : (s.evs e).locked = false) (hdue : (s.evs e).sleepInterval (m.clk 0) = .ok 0)
      (hev : s'.evs e = (s.evs e).lock) (hlog : (entered s'.log).count e = (entered s.log).count e + 1)
  | leave (hrun : e ∈ running s.stack) (hev : (s.evs e).unlock.afterFire (m.clk 0) = .ok (s'.evs e))
      (hlog : entered s'.log = entered s.log)

theorem Same.onOne {s s' : State} (h : Same s s') (m : Move) (e : Nat) : OnOne s m s' e :=
  .keep (by rw [h.evs]) (by rw [h.entered])

/-- A move that replaces another event does nothing to `e`. -/
theorem onOne_of_ne {s s' : State} (m : Move) {e x : Nat} {ev : TimeEvent} (hne : e ≠ x)
    (hevs : s'.evs = (s.setEv x ev).evs) (hlog : entered s'.log = entered s.log) : OnOne s m s' e :=
  .keep (by rw [hevs, State.setEv_ne s ev hne]) (by rw [hlog])

theorem Effect.onOne {s s' : State} {m : Move} (h : Effect s m s') {e : Nat} (he : e < s.next) :
    OnOne s m s' e := by
  cases h with
  | control hsame _ | throw _ _ hsame _ | begin _ _ _ hsame _ => exact hsame.onOne m e
  | add a _ hs => exact onOne_of_ne m (Nat.ne_of_lt he) (by rw [hs]; rfl) (by rw [hs]; rfl)
  | arm x a hm _ hs =>
    subst hs
    by_cases hx : e = x
    · subst hx
      exact .arm a hm (State.setEv_self s e _) rfl
    · exact onOne_of_ne m hx rfl rfl
  | reset x ev hm _ hev hs =>
    subst hs
    by_cases hx : e = x
    · subst hx
      exact .reset hm (by rw [State.setEv_self, hev]) rfl
    · exact onOne_of_ne m hx rfl rfl
  | restart x ev again hm _ hev hs =>
    subst hs
    by_cases hx : e = x
    · subst hx
      exact .restart again hm (by rw [State.setEv_self, hev]) rfl
    · exact onOne_of_ne m hx rfl rfl
  | skip _ _ _ _ _ _ _ _ hs | drop _ _ _ _ _ _ _ _ hs | finish _ _ _ _ _ hs =>
    subst hs
    exact .keep rfl rfl
  | enter i cnt x st _ _ _ hlocked hdue hs =>
    have hlog : entered s'.log = entered s.log ++ [x] := by
      rw [hs]
      exact entered_append _ _
    have hevs : s'.evs = (s.setEv x (s.evs x).lock).evs := by rw [hs]
    by_cases hx : e = x
    · subst hx
      refine .enter hlocked hdue (by rw [hevs, State.setEv_self]) ?_
      rw [hlog, List.count_append, List.count_singleton_self]
    · refine .keep (by rw [hevs, State.setEv_ne s _ hx]) ?_
      rw [hlog, List.count_append, List.count_singleton, if_neg (by simpa using fun h => hx h.symm),
        Nat.add_zero]
  | leave i cnt x ev st hstack hev hs =>
    have hevs : s'.evs = (s.setEv x ev).evs := by rw [hs]
    have hlog : entered s'.log = entered s.log := by rw [hs]; rfl
    by_cases hx : e = x
    · subst hx
      refine .leave ?_ (by rw [hevs, State.setEv_self, hev]) hlog
      rw [hstack, running_fire]
      exact List.mem_cons_self
    · exact onOne_of_ne m hx hevs hlog

/-- Events are not forgotten. -/
theorem Effect.next_le {s s' : State} {m : Move} (h : Effect s m s') : s.next ≤ s'.next := by
  cases h with
  | control hsame _ | throw _ _ hsame _ | begin _ _ _ hsame _ => exact Nat.le_of_eq hsame.next.symm
  | add a _ hs =>
    subst hs
    exact Nat.le_succ _
  | arm _ _ _ _ hs | reset _ _ _ _ _ hs | restart _ _ _ _ _ _ hs | skip _ _ _ _ _ _ _ _ hs
  | drop _ _ _ _ _ _ _ _ hs | finish _ _ _ _ _ hs | enter _ _ _ _ _ _ _ _ _ hs
  | leave _ _ _ _ _ _ _ hs =>
    subst hs
    exact Nat.le_refl _

/-- **Kept in the list.**  An event that is locked or started stays in the list. -/
theorem Effect.listed {s s' : State} {m : Move} (h : Effect s m s') {e : Nat} (he : e ∈ s.events)
    (hlive : (s.evs e).locked = true ∨ (s.evs e).started = true) : e ∈ s'.events := by
  cases h with
  | control hsame _ | throw _ _ hsame _ | begin _ _ _ hsame _ =>
    rw [hsame.events]
    exact he
  | add a _ hs =>
    subst hs
    exact List.mem_append_left _ he
  | drop _ _ x _ _ hx hlocked hstarted hs =>
    subst hs
    apply mem_eraseIdx_of_ne hx he
    rintro rfl
    rw [hlocked, hstarted] at hlive
    rcases hlive with h | h <;> cases h
  | finish _ _ _ _ _ hs =>
    subst hs
    exact State.mem_purge.mpr ⟨he, hlive⟩
  | arm _ _ _ _ hs | reset _ _ _ _ _ hs | restart _ _ _ _ _ _ hs | skip _ _ _ _ _ _ _ _ hs
  | enter _ _ _ _ _ _ _ _ _ hs | leave _ _ _ _ _ _ _ hs =>
    subst hs
    exact he

/-- A callback that is running now was running before, or is entered by this move. -/
theorem Effect.running_of_running {s s' : State} {m : Move} (h : Effect s m s') {e : Nat}
    (he : e ∈ running s'.stack) :
    e ∈ running s.stack ∨ entered s'.log = entered s.log ++ [e] := by
  cases h with
  | control _ hpass => exact Or.inl (running_congr hpass ▸ he)
  | throw n _ _ hstack =>
    rw [hstack] at he
    exact Or.inl ((running_drop _ _).subset he)
  | begin cnt st hstack _ hstack' =>
    rw [hstack'] at he
    rw [hstack]
    exact Or.inl he
  | skip _ _ _ _ _ hstack _ _ hs | finish _ _ _ hstack _ hs =>
    subst hs
    rw [hstack]
    exact Or.inl he
  | enter _ _ x st _ hstack _ _ _ hs =>
    subst hs
    rcases List.mem_cons.mp (running_fire _ _ _ st ▸ he) with rfl | he
    · exact Or.inr (entered_append _ _)
    · rw [hstack]
      exact Or.inl he
  | leave _ _ _ _ st hstack _ hs =>
    subst hs
    rw [hstack, running_fire]
    exact Or.inl (List.mem_append_right _ he)
  | add _ _ hs | arm _ _ _ _ hs | reset _ _ _ _ _ hs | restart _ _ _ _ _ _ hs
  | drop _ _ _ _ _ _ _ _ hs =>
    subst hs
    exact Or.inl he

/-- An event is entered once more, or as often as before. -/
theorem OnOne.count_le {s s' : State} {m : Move} {e : Nat} (h : OnOne s m s' e) :
    (entered s.log).count e ≤ (entered s'.log).count e := by
  cases h with
  | keep _ hlog => exact Nat.le_of_eq hlog.symm
  | arm _ _ _ hlog | reset _ _ hlog | restart _ _ _ hlog | leave _ _ hlog =>
    exact Nat.le_of_eq (by rw [hlog])
  | enter _ _ _ hlog => omega

theorem run_count_le {msec : Int} {s t : State} {e : Nat} {ms : List Move} (he : e < s.next)
    (h : run (step msec) s ms = some t) :
    e < t.next ∧ (entered s.log).count e ≤ (entered t.log).count e := by
  have hkeep : ∀ (u : State) (m : Move) (u' : State),
      e < u.next ∧ (entered s.log).count e ≤ (entered u.log).count e → step msec u m = some u' →
      e < u'.next ∧ (entered s.log).count e ≤ (entered u'.log).count e := by
    rintro u m u' ⟨hu, hle⟩ hstep
    have heff := step_effect hstep
    exact ⟨Nat.lt_of_lt_of_le hu heff.next_le, Nat.le_trans hle (heff.onOne hu).count_le⟩
  exact run_invariant (step msec) hkeep ms s t ⟨he, Nat.le_refl _⟩ h

end Lzmq.Loop
