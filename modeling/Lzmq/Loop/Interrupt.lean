/-
  Interrupting the loop.

  `zmq_loop:interrupt` sets a flag that no function of the loop clears.  `poll` and `flush` look at it
  before they call `poller:poll`, and `start` looks at it before every round.  But `flush` calls
  `poller:poll` in a loop of its own, as long as events keep arriving and its time is not over, and in
  that loop it does not look: an interruption made by an I/O callback takes effect there only when a
  poll finds nothing.

  `step_polls` says of every move whether it calls `poller:poll`, and that on an interrupted loop only
  another round of `flush` does (`FlushAgain`).  `interrupt_silent_iff` lifts that to runs.
-/
import Lzmq.Loop.Machine

namespace Lzmq.Loop

open Lzmq.Steps

/-! ## Calls of the poller -/

def Label.isPoll : Label → Bool
  | .pollerPoll _ => true
  | .enter _ => false

/-- How many calls of `poller:poll` were started. -/
def polls (log : List Label) : Nat := log.countP Label.isPoll

theorem polls_pollerPoll (log : List Label) (timeout : Int) :
    polls (log ++ [.pollerPoll timeout]) = polls log + 1 := by
  rw [polls, List.countP_append]
  rfl

theorem polls_enter (log : List Label) (e : Nat) : polls (log ++ [.enter e]) = polls log := by
  rw [polls, List.countP_append]
  rfl

/-- Wherever the run is cut, if the loop is interrupted there then no call of `poller:poll` comes after. -/
def SilentAfterInterrupt (msec : Int) (ms : List Move) : Prop :=
  ∀ (pre post : List Move) (s t : State), ms = pre ++ post → run (step msec) init pre = some s →
    s.interrupted = true → run (step msec) s post = some t → polls t.log = polls s.log

/-! ## One move -/

/-- `poller:poll` returns to `zmq_loop:flush`, which goes round its loop again: it found events, and time
    is left. -/
def FlushAgain (s : State) (m : Move) : Prop :=
  s.ctl = .user ∧ ∃ interval start total st cnt, s.stack = .flush interval start total :: st ∧
    m.act = .pollerRet (some cnt) ∧ cnt ≠ 0 ∧ 0 < interval - u64Delta start (m.clk 0).mono

/-- The condition on a move: `flush` does not go round its loop while the loop is interrupted. -/
def MoveOk (s : State) (m : Move) : Prop := s.interrupted = true → ¬ FlushAgain s m

/-- What a move does to the flag and to the calls of the poller. -/
inductive PollEffect (s : State) (m : Move) (s' : State) : Prop
  | quiet (hflag : s.interrupted = true → s'.interrupted = true) (hlog : polls s'.log = polls s.log)
      (hno : ¬ FlushAgain s m)
  /-- `poll` or `flush` is called and calls the poller. -/
  | start (hflag : s.interrupted = false) (hlog : polls s'.log = polls s.log + 1) (hno : ¬ FlushAgain s m)
  | again (hagain : FlushAgain s m) (hflag : s'.interrupted = s.interrupted)
      (hlog : polls s'.log = polls s.log + 1)

theorem not_flushAgain_of_act {s : State} {m : Move} (h : ∀ cnt, m.act ≠ .pollerRet (some cnt)) :
    ¬ FlushAgain s m := by
  rintro ⟨-, -, -, -, -, cnt, -, hm, -⟩
  exact h cnt hm

theorem interrupted_congr {s s' : State} (hint : s'.interrupt = s.interrupt)
    (hrun : s'.isRunning = s.isRunning) : s'.interrupted = s.interrupted := by
  rw [State.interrupted, State.interrupted, hint, hrun]

/-- A move that leaves the flag and the log alone. -/
theorem PollEffect.same {s s' : State} {m : Move} (hno : ¬ FlushAgain s m)
    (hint : s'.interrupt = s.interrupt) (hrun : s'.isRunning = s.isRunning) (hlog : s'.log = s.log) :
    PollEffect s m s' :=
  .quiet (fun h => (interrupted_congr hint hrun).trans h) (by rw [hlog]) hno

theorem interrupted_stop (s : State) : s.stop.interrupted = true := rfl

theorem begin_polls {msec : Int} {s s' : State} {m : Move} {f : Call} (hno : ¬ FlushAgain s m)
    (h : s.begin msec m.clk f = some s') : PollEffect s m s' := by
  cases f with
  | poll interval =>
    dsimp only [State.begin] at h
    by_cases hint : s.interrupted = true
    · rw [if_pos hint] at h
      cases h
      exact .same hno rfl rfl rfl
    · rw [if_neg hint] at h
      rw [Bool.not_eq_true] at hint
      split at h
      · cases h
      · cases h
        exact .start hint (polls_pollerPoll _ _) hno
  | sleepEx interval =>
    cases h
    exact .same hno rfl rfl rfl
  | flush interval =>
    dsimp only [State.begin] at h
    by_cases hint : s.interrupted = true
    · rw [if_pos hint] at h
      cases h
      exact .same hno rfl rfl rfl
    · rw [if_neg hint] at h
      rw [Bool.not_eq_true] at hint
      cases h
      exact .start hint (polls_pollerPoll _ _) hno
  | start ms =>
    cases h
    exact .same hno rfl rfl rfl

theorem fireStep_polls {s s' : State} {m : Move} {c : Clock} (hno : ¬ FlushAgain s m)
    (h : s.fireStep c = some s') : PollEffect s m s' := by
  unfold State.fireStep at h
  split at h
  · split at h
    · cases h
      exact .same hno rfl rfl rfl
    · split at h
      · cases h
        exact .same hno rfl rfl rfl
      · split at h
        · split at h
          · cases h
          · split at h
            · cases h
              exact .quiet id (polls_enter _ _) hno
            · cases h
              exact .same hno rfl rfl rfl
        · cases h
          exact .same hno rfl rfl rfl
  · cases h

theorem startAgain_polls {s : State} {m : Move} (hno : ¬ FlushAgain s m) (ms : Int) (fn : Bool)
    (st : List Frame) : PollEffect s m (s.startAgain ms fn st) := by
  unfold State.startAgain
  split
  · exact .same hno rfl rfl rfl
  · exact .same hno rfl rfl rfl

theorem resume_polls {s s' : State} {m : Move} {c : Clock} {cnt : Option Nat} (hno : ¬ FlushAgain s m)
    (h : s.resume c cnt = some s') : PollEffect s m s' := by
  unfold State.resume at h
  split at h
  · cases h
    exact .same hno rfl rfl rfl
  · cases h
    exact .same hno rfl rfl rfl
  · dsimp only at h
    split at h
    · cases h
      exact .same hno rfl rfl rfl
    · cases h
      exact .same hno rfl rfl rfl
  · cases h
    exact .same hno rfl rfl rfl
  · split at h
    · cases h
      exact .same hno rfl rfl rfl
    · cases h
      exact startAgain_polls hno _ _ _
  · split at h
    · cases h
      exact .same hno rfl rfl rfl
    · cases h

/-- The return of `poller:poll`: only here `flush` goes round its loop. -/
theorem pollerRet_polls {s s' : State} {m : Move} {cnt : Option Nat} (hctl : s.ctl = .user)
    (hm : m.act = .pollerRet cnt) (h : s.pollerRet (m.clk 0) cnt = some s') : PollEffect s m s' := by
  have hact : ∀ {n : Nat}, m.act = .pollerRet (some n) → cnt = some n := by
    intro n hn
    rw [hm] at hn
    exact Act.pollerRet.inj hn
  unfold State.pollerRet at h
  split at h
  · rename_i hstack
    cases h
    refine .quiet (fun _ => interrupted_stop s) rfl ?_
    rintro ⟨-, _, _, _, _, _, hflush, -⟩
    rw [hstack] at hflush
    cases hflush
  · rename_i hstack
    have hno : ¬ FlushAgain s m := by
      rintro ⟨-, _, _, _, _, _, hflush, -⟩
      rw [hstack] at hflush
      cases hflush
    split at h
    · cases h
      exact .same hno rfl rfl rfl
    · cases h
      exact .same hno rfl rfl rfl
  · cases h
    refine .same ?_ rfl rfl rfl
    rintro ⟨-, -, -, -, -, n, -, hn, -⟩
    cases hact hn
  · rename_i interval start total st n hstack
    dsimp only at h
    by_cases hend : n = 0 ∨ interval - u64Delta start (m.clk 0).mono ≤ 0
    · rw [if_pos hend] at h
      cases h
      refine .same ?_ rfl rfl rfl
      rintro ⟨-, _, _, _, _, k, hflush, hk, hne, hrest⟩
      rw [hstack] at hflush
      cases hflush
      cases hact hk
      rcases hend with hzero | hle
      · exact hne hzero
      · omega
    · rw [if_neg hend] at h
      rw [not_or] at hend
      cases h
      exact .again ⟨hctl, interval, start, total, st, n, hstack, hm, hend.1, by omega⟩ rfl
        (polls_pollerPoll _ _)
  · cases h

theorem onEvent_polls {s s' : State} {m : Move} {e : Nat} {f : TimeEvent → Except String TimeEvent}
    (hno : ¬ FlushAgain s m) (h : s.onEvent e f = some s') : PollEffect s m s' := by
  unfold State.onEvent at h
  split at h
  · split at h
    · cases h
      exact .same hno rfl rfl rfl
    · cases h
      exact .same hno rfl rfl rfl
  · cases h

theorem user_polls {s s' : State} {m : Move} (hctl : s.ctl = .user)
    (h : s.user (m.clk 0) m.act = some s') : PollEffect s m s' := by
  cases hm : m.act with
  | pollerRet cnt =>
    rw [hm] at h
    exact pollerRet_polls hctl hm h
  | interrupt =>
    rw [hm] at h
    cases h
    exact .quiet (fun _ => interrupted_stop s) rfl (not_flushAgain_of_act (by rw [hm]; nofun))
  | leave =>
    have hno : ¬ FlushAgain s m := not_flushAgain_of_act (by rw [hm]; nofun)
    rw [hm] at h
    dsimp only [State.user] at h
    unfold State.leave at h
    split at h
    · split at h
      · cases h
      · cases h
        exact .same hno rfl rfl rfl
    · cases h
      exact startAgain_polls hno _ _ _
    · cases h
  | throw n =>
    have hno : ¬ FlushAgain s m := not_flushAgain_of_act (by rw [hm]; nofun)
    rw [hm] at h
    dsimp only [State.user] at h
    split at h
    · cases h
      exact .same hno rfl rfl rfl
    · cases h
  | arm e a | reset e | restart e =>
    rw [hm] at h
    dsimp only [State.user] at h
    exact onEvent_polls (not_flushAgain_of_act (by rw [hm]; nofun)) h
  | addTime n | addInterval n | addOnce n | call f =>
    rw [hm] at h
    cases h
    exact .same (not_flushAgain_of_act (by rw [hm]; nofun)) rfl rfl rfl
  | tick =>
    rw [hm] at h
    cases h

/-- **One move.** -/
theorem step_polls {msec : Int} {s s' : State} {m : Move} (h : step msec s m = some s') :
    PollEffect s m s' := by
  unfold step at h
  by_cases hm : m.act = .tick
  · rw [if_pos hm] at h
    have hno : ¬ FlushAgain s m := not_flushAgain_of_act (by rw [hm]; nofun)
    unfold State.tick at h
    split at h
    · cases h
    · exact begin_polls hno h
    · exact fireStep_polls hno h
    · exact resume_polls hno h
  · rw [if_neg hm] at h
    split at h
    · rename_i hctl
      exact user_polls hctl h
    · cases h

/-! ## Runs -/

theorem PollEffect.interrupted {s s' : State} {m : Move} (h : PollEffect s m s')
    (hs : s.interrupted = true) : s'.interrupted = true := by
  cases h with
  | quiet hflag _ _ => exact hflag hs
  | start hflag _ _ => rw [hs] at hflag; cases hflag
  | again _ hflag _ => rw [hflag, hs]

theorem PollEffect.le {s s' : State} {m : Move} (h : PollEffect s m s') : polls s.log ≤ polls s'.log := by
  cases h with
  | quiet _ hlog _ => omega
  | start _ hlog _ => omega
  | again _ _ hlog => omega

/-- On an interrupted loop only another round of `flush` calls the poller. -/
theorem PollEffect.silent_iff {s s' : State} {m : Move} (h : PollEffect s m s') (hs : s.interrupted = true) :
    polls s'.log = polls s.log ↔ ¬ FlushAgain s m := by
  cases h with
  | quiet _ hlog hno => exact ⟨fun _ => hno, fun _ => hlog⟩
  | start hflag _ _ => rw [hs] at hflag; cases hflag
  | again hagain _ hlog => exact ⟨fun heq => by omega, fun hno => absurd hagain hno⟩

theorem polls_le_run {msec : Int} (ms : List Move) (s t : State) (h : run (step msec) s ms = some t) :
    polls s.log ≤ polls t.log := by
  have hstep (u : State) (m : Move) (u' : State) (hu : polls s.log ≤ polls u.log)
      (hu' : step msec u m = some u') : polls s.log ≤ polls u'.log := Nat.le_trans hu (step_polls hu').le
  exact run_invariant (step msec) hstep ms s t (Nat.le_refl _) h

/-- An interrupted loop whose moves meet the condition stays interrupted and silent. -/
theorem run_silent {msec : Int} : ∀ (ms : List Move) (s t : State), s.interrupted = true →
    Meets (step msec) MoveOk s ms → run (step msec) s ms = some t → polls t.log = polls s.log := by
  intro ms
  induction ms with
  | nil =>
    intro s t _ _ h
    rw [run_nil, Option.some.injEq] at h
    rw [h]
  | cons m ms ih =>
    intro s t hs hmeets h
    obtain ⟨s', hstep, hrest⟩ := run_cons_inv (step msec) h
    have heff := step_polls hstep
    rw [ih s' t (heff.interrupted hs) (hmeets.2 s' hstep) hrest]
    exact (heff.silent_iff hs).mpr (hmeets.1 hs)

/-- A silent run meets the condition at every move, by induction from the back of what it has done. -/
theorem meets_of_silent {msec : Int} : ∀ (ms : List Move) (s t : State), run (step msec) s ms = some t →
    (∀ pre post u, ms = pre ++ post → run (step msec) s pre = some u → u.interrupted = true →
      polls t.log = polls u.log) → Meets (step msec) MoveOk s ms := by
  intro ms
  induction ms with
  | nil => intro s t _ _; trivial
  | cons m ms ih =>
    intro s t h hsilent
    obtain ⟨s', hstep, hrest⟩ := run_cons_inv (step msec) h
    have heff := step_polls hstep
    refine ⟨fun hs => ?_, fun s'' hs'' => ?_⟩
    · -- between `s` and `t` nothing is polled, so nothing between `s` and `s'`
      have hle := polls_le_run ms s' t hrest
      have hge := heff.le
      have hall := hsilent [] (m :: ms) s rfl rfl hs
      exact (heff.silent_iff hs).mp (by omega)
    · obtain rfl : s' = s'' := Option.some.inj (hstep.symm.trans hs'')
      refine ih s' t hrest fun pre post u hms hu => ?_
      refine hsilent (m :: pre) post u (by rw [hms]; rfl) ?_
      rw [run_cons_some (step msec) pre hstep]
      exact hu

/-- **Interruption, exactly.**  In a run of the loop no call of `poller:poll` is started after the loop
    was interrupted iff `flush` never goes round its loop while the loop is interrupted. -/
theorem interrupt_silent_iff (msec : Int) (ms : List Move) (t : State)
    (h : run (step msec) init ms = some t) :
    SilentAfterInterrupt msec ms ↔ Meets (step msec) MoveOk init ms := by
  constructor
  · intro hsilent
    refine meets_of_silent ms init t h fun pre post u hms hu hint => ?_
    rw [hms] at h
    obtain ⟨u', hu', hpost⟩ := run_append_inv (step msec) pre post h
    obtain rfl : u = u' := Option.some.inj (hu.symm.trans hu')
    exact hsilent pre post u t hms hu hint hpost
  · intro hmeets pre post s t' hms hs hint hpost
    exact run_silent post s t' hint (meets_suffix (step msec) pre post (hms ▸ hmeets) hs) hpost

/-- `flush(100)` polls, the I/O callback interrupts the loop, and the poll returns 1. -/
def flushInterrupted : List Move :=
  [(Act.call (.flush (some 100))).when 0, Act.tick.when 0, Act.interrupt.when 0,
    (Act.pollerRet (some 1)).when 0]

/-- A run in which the interruption comes when `flush` has nothing more to read. -/
theorem interrupt_silent_flush : SilentAfterInterrupt 1
    [(Act.call (.flush (some 100))).when 0, Act.tick.when 0, Act.interrupt.when 0,
      (Act.pollerRet (some 0)).when 0] := by
  refine (interrupt_silent_iff 1 _ _ rfl).mpr (meets_of_forall (step 1) _ init fun m hm s _ => ?_)
  rintro ⟨-, _, _, _, _, cnt, -, hact, hne, -⟩
  simp only [List.mem_cons, List.not_mem_nil, or_false] at hm
  rcases hm with rfl | rfl | rfl | rfl
  · cases hact
  · cases hact
  · cases hact
  · cases hact
    exact hne rfl

/-- `flush` polls again after the callback of its first poll has interrupted the loop. -/
theorem not_silent_flush : ∃ ms t, run (step 1) init ms = some t ∧ ¬ SilentAfterInterrupt 1 ms := by
  refine ⟨flushInterrupted, _, rfl, fun hsilent => ?_⟩
  have hpolls := hsilent (flushInterrupted.take 3) (flushInterrupted.drop 3) _ _ rfl rfl rfl rfl
  cases hpolls

end Lzmq.Loop
