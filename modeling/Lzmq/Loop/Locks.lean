/-
  The lock of an event and its callback.

  `fire` locks an event while its callback runs, so that a nested pass leaves the event alone.  The lock is
  taken off after the callback has returned, and only then: an error that user code catches further down
  leaves the callbacks above without unlocking their events.  Such an event is locked for good: no pass
  enters it again, and none removes it.

  `locks_match_iff` says that this is the only way in which locks and callbacks come apart, and
  `Stuck.run` what becomes of the event.
-/
import Lzmq.Loop.Rearm

namespace Lzmq.Loop

open Lzmq.Steps

/-- The locked events are those whose callbacks are running. -/
def LocksMatch (s : State) : Prop := ∀ e, (s.evs e).locked = true ↔ e ∈ running s.stack

/-- In every state of a run. -/
def LocksAlong (msec : Int) (ms : List Move) : Prop :=
  ∀ ms₁ s, ms₁ <+: ms → run (step msec) init ms₁ = some s → LocksMatch s

/-- An error does not leave the callback of an event. -/
def LeavesNoCallback (s : State) (m : Move) : Prop :=
  ∀ n, m.act = .throw n → running (s.stack.take n) = []

theorem locksMatch_iff {s : State} (h : Inv s) : LocksMatch s ↔ LockedRuns s := by
  constructor
  · exact fun hmatch e => (hmatch e).mp
  · exact fun hruns e => ⟨hruns e, h.locked e⟩

theorem running_take_drop (st : List Frame) (n : Nat) :
    running st = running (st.take n) ++ running (st.drop n) := by
  rw [running, running, running, ← List.filterMap_append, List.take_append_drop]

/-- The callbacks left by an error keep their locks. -/
theorem throw_locks {s s' : State} {n : Nat} (h : Inv s) (hruns : LockedRuns s) (hsame : Same s s')
    (hstack : s'.stack = s.stack.drop n) : LockedRuns s' ↔ running (s.stack.take n) = [] := by
  have hsplit := running_take_drop s.stack n
  constructor
  · intro hruns'
    refine List.eq_nil_iff_forall_not_mem.mpr fun e he => ?_
    have hin : e ∈ running s.stack := by rw [hsplit]; exact List.mem_append_left _ he
    have hin' : e ∈ running (s.stack.drop n) := hstack ▸ hruns' e (by rw [hsame.evs]; exact h.locked e hin)
    -- it runs once
    have honce := h.once
    rw [hsplit] at honce
    exact (List.nodup_append.mp honce).2.2 e he e hin' rfl
  · intro hnil
    rw [hnil, List.nil_append] at hsplit
    exact hruns.congr hsame.evs (by rw [hstack, hsplit])

theorem step_throw {msec : Int} {s s' : State} {m : Move} {n : Nat} (hm : m.act = .throw n)
    (hstep : step msec s m = some s') : Same s s' ∧ s'.stack = s.stack.drop n := by
  unfold step at hstep
  rw [hm, if_neg (by rintro ⟨⟩)] at hstep
  split at hstep
  · dsimp only [State.user] at hstep
    split at hstep <;> cases hstep
    exact ⟨⟨rfl, rfl, rfl, rfl⟩, rfl⟩
  · cases hstep

/-- **One move.** -/
theorem step_locks {msec : Int} {s s' : State} {m : Move} (h : Inv s) (hmatch : LocksMatch s)
    (hstep : step msec s m = some s') : LocksMatch s' ↔ LeavesNoCallback s m := by
  have hruns := (locksMatch_iff h).mp hmatch
  rw [locksMatch_iff (step_inv h hstep)]
  by_cases hthrow : ∃ n, m.act = .throw n
  · obtain ⟨n, hm⟩ := hthrow
    obtain ⟨hsame, hstack⟩ := step_throw hm hstep
    rw [throw_locks h hruns hsame hstack]
    constructor
    · intro hnil k hk
      obtain rfl : n = k := Act.throw.inj (hm.symm.trans hk)
      exact hnil
    · exact fun hleaves => hleaves n hm
  · refine iff_of_true (hruns.step ?_ hstep) fun n hm => absurd ⟨n, hm⟩ hthrow
    cases hact : m.act with
    | throw n => exact absurd ⟨n, hact⟩ hthrow
    | _ => rfl

/-- **Locks and callbacks.**  In a run of the loop, with calls nested to any depth and errors that user code
    catches, the locked events are those of the running callbacks all the time, if and only if no error
    leaves the callback of an event. -/
theorem locks_match_iff {msec : Int} {ms : List Move} {t : State} (h : run (step msec) init ms = some t) :
    LocksAlong msec ms ↔ Meets (step msec) LeavesNoCallback init ms :=
  always_iff_meets (step msec) (fun _ _ _ => step_inv) (fun _ _ _ => step_locks) ms init t inv_init
    ((locksMatch_iff inv_init).mpr lockedRuns_init) h

/-- A repeating event whose callback polls again; the nested call raises an error in its I/O callback, which
    the callback of the event catches. -/
def caughtInside : List Move :=
  [Act.addInterval 10 |>.when 0, Act.call (.poll 50) |>.when 0, Act.tick.when 0,
    Act.pollerRet (some 0) |>.when 10, Act.tick.when 10, Act.call (.poll 0) |>.when 10, Act.tick.when 10,
    Act.throw 1 |>.when 10, Act.leave.when 10]

/-- The locks match in all states of that run. -/
theorem locks_match_caught_inside : ∃ t, run (step 1) init caughtInside = some t ∧ LocksAlong 1 caughtInside := by
  have hrun : run (step 1) init caughtInside = some _ := (Option.some_get (by decide)).symm
  refine ⟨_, hrun, (locks_match_iff hrun).mpr ?_⟩
  have hquiet : ∀ {s : State} {m : Move}, m.act.throws = false → LeavesNoCallback s m := by
    intro s m hm n hn
    rw [hn] at hm
    cases hm
  -- the error leaves the frame of the nested call only
  refine .cons (hquiet rfl) rfl (.cons (hquiet rfl) rfl (.cons (hquiet rfl) rfl (.cons (hquiet rfl) rfl
    (.cons (hquiet rfl) rfl (.cons (hquiet rfl) rfl (.cons (hquiet rfl) rfl (.cons ?_ rfl
      (.cons (hquiet rfl) rfl trivial))))))))
  intro n hn
  obtain rfl := Act.throw.inj hn
  rfl

/-- The callback of the only event raises an error, and the caller of `loop:poll` catches it. -/
def caughtOutside : List Move :=
  [Act.addInterval 10 |>.when 0, Act.call (.poll 50) |>.when 0, Act.tick.when 0,
    Act.pollerRet (some 0) |>.when 10, Act.tick.when 10, Act.throw 2 |>.when 10]

/-- The event stays locked, and no callback is running. -/
theorem not_locksAlong : ∃ t, run (step 1) init caughtOutside = some t ∧ ¬ LocksAlong 1 caughtOutside ∧
    (t.evs 0).locked = true ∧ running t.stack = [] ∧ (t.evs 0).started = true := by
  have hrun : run (step 1) init caughtOutside = some _ := (Option.some_get (by decide)).symm
  refine ⟨_, hrun, fun h => ?_, by decide, by decide, by decide⟩
  have hlocked := h caughtOutside _ List.prefix_rfl hrun 0
  revert hlocked
  decide

/-! ## An event that stays locked -/

/-- Locked, with no callback that will unlock it. -/
structure Stuck (e : Nat) (n : Nat) (s : State) : Prop where
  created : e < s.next
  listed : e ∈ s.events
  locked : (s.evs e).locked = true
  idle : e ∉ running s.stack
  count : (entered s.log).count e = n

theorem Stuck.step {msec : Int} {e n : Nat} {s s' : State} {m : Move} (h : Stuck e n s)
    (hstep : Loop.step msec s m = some s') : Stuck e n s' := by
  have heff := step_effect hstep
  have hone := heff.onOne h.created
  obtain ⟨hlocked, hcount⟩ : (s'.evs e).locked = true ∧ (entered s'.log).count e = n := by
    rw [← h.count, ← h.locked]
    cases hone with
    | keep hev hlog => exact ⟨by rw [hev], hlog⟩
    | arm a _ hev hlog => exact ⟨by rw [hev, TimeEvent.locked_arm], by rw [hlog]⟩
    | reset _ hev hlog => exact ⟨by rw [TimeEvent.reset_ok hev], by rw [hlog]⟩
    | restart again _ hev hlog => exact ⟨(TimeEvent.locked_restart hev).1, by rw [hlog]⟩
    | enter hunlocked _ _ _ => rw [h.locked] at hunlocked; cases hunlocked
    | leave hrun _ _ => exact absurd hrun h.idle
  refine ⟨Nat.lt_of_lt_of_le h.created heff.next_le, heff.listed h.listed (.inl h.locked), hlocked, ?_, hcount⟩
  intro hrun
  rcases heff.running_of_running hrun with hold | henter
  · exact h.idle hold
  · rw [henter, List.count_append, List.count_singleton_self, h.count] at hcount
    omega

/-- **Locked for good.**  The event is neither entered again nor removed, whatever the loop and user code
    do. -/
theorem Stuck.run {msec : Int} {e n : Nat} {s t : State} (h : Stuck e n s) (ms : List Move)
    (hrun : Steps.run (Loop.step msec) s ms = some t) : Stuck e n t :=
  run_invariant (Loop.step msec) (fun _ _ _ h hstep => h.step hstep) ms s t h hrun

end Lzmq.Loop
