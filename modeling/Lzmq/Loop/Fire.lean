/-
  No timer is missed.

  Two facts about `zmq_loop:poll`.  It does not sleep past a timer: the timeout it gives to `poller:poll`
  is at most the remaining time of every event that is started and not locked (`sleepIntervalFrom_le`).
  And the pass of `fire` that follows enters the callback of every event that was due when it began, and
  enters it once (`pass_serves`).

  A pass walks the list by index while its callbacks append events and it removes stopped events itself.
  `Walk` is the invariant at a target event: it is due and still pending, or it was entered once and is
  behind the index.  The callback of another event cannot unlock or unlist it, and as long as no other
  callback arms, resets or restarts it, it stays due.  A pass begun by a callback would move the list
  under the index; `InPass` says that there is none.
-/
import Lzmq.Loop.OneEvent

namespace Lzmq.Loop

open Lzmq.Cursor Lzmq.Steps

/-! ## The timeout -/

/-- The minimum that `sleep_interval` computes. -/
theorem sleepIntervalFrom_le {evs : Nat → TimeEvent} {clk : Nat → Clock} : ∀ (es : List Nat) (i : Nat)
    (minInterval t : Int), sleepIntervalFrom evs clk i es minInterval = .ok t →
    t ≤ minInterval ∧ (0 ≤ minInterval → 0 ≤ t) ∧ ∀ (j e : Nat) (int : Int), es[j]? = some e →
      (evs e).locked = false → (evs e).sleepInterval (clk (i + j)) = .ok int → t ≤ int := by
  intro es
  induction es with
  | nil =>
    intro i minInterval t h
    cases h
    refine ⟨Int.le_refl _, id, ?_⟩
    intro j e int he
    cases he
  | cons x es ih =>
    intro i minInterval t h
    unfold sleepIntervalFrom at h
    split at h
    · split at h
      · cases h
      · rename_i int hint
        obtain ⟨hle, hpos, hall⟩ := ih _ _ _ h
        have hnonneg : 0 ≤ int := timerRest_nonneg hint
        have hmin : t ≤ minInterval ∧ t ≤ int := by split at hle <;> omega
        refine ⟨hmin.1, fun h0 => hpos (by split <;> omega), ?_⟩
        intro j e int' hj hlocked hint'
        cases j with
        | zero =>
          obtain rfl : x = e := Option.some.inj hj
          cases hint.symm.trans hint'
          exact hmin.2
        | succ j => exact hall j e int' hj hlocked (by rwa [Nat.add_assoc, Nat.add_comm 1 j])
    · rename_i hskip
      obtain ⟨hle, hpos, hall⟩ := ih _ _ _ h
      refine ⟨hle, hpos, ?_⟩
      intro j e int' hj hlocked hint'
      cases j with
      | zero =>
        -- an event whose remaining time was not read is locked or stopped
        obtain rfl : x = e := Option.some.inj hj
        exact absurd ⟨hlocked, started_of_timerRest hint'⟩ hskip
      | succ j => exact hall j e int' hj hlocked (by rwa [Nat.add_assoc, Nat.add_comm 1 j])

/-- The call of `poller:poll` by `zmq_loop:poll`. -/
theorem begin_poll {msec : Int} {s s' : State} {clk : Nat → Clock} {interval timeout : Int}
    (h : s.begin msec clk (.poll interval) = some s') (hlog : s'.log = s.log ++ [.pollerPoll timeout]) :
    ∃ t, timeout = t * msec ∧ s.sleepInterval clk interval = .ok t := by
  dsimp only [State.begin] at h
  split at h
  · cases h
    have := congrArg List.length hlog
    rw [List.length_append, List.length_singleton] at this
    exact absurd this (Nat.ne_of_lt (Nat.lt_succ_self _))
  · split at h
    · cases h
    · rename_i t ht
      cases h
      have hlabel := List.singleton_inj.mp (List.append_cancel_left hlog)
      exact ⟨t, (Label.pollerPoll.inj hlabel).symm, ht⟩

/-! ## A pass -/

/-- Started, not locked, and no time left. -/
structure TimeEvent.Due (c : Clock) (ev : TimeEvent) : Prop where
  started : ev.started = true
  unlocked : ev.locked = false
  rest : ev.sleepInterval c = .ok 0

/-- The innermost pass is the one that will return to `base`: no callback of it has begun another. -/
def InPass (base : List Frame) (s : State) : Prop := ∃ p, innermost s.stack = some p ∧ p.base = base

/-- A move of a pass whose callbacks return normally: no clock is behind `c`, and only the callback of
    `e` arms, resets or restarts `e`. -/
structure Calm (e : Nat) (c : Clock) (s : State) (m : Move) : Prop where
  normal : m.act.throws = false
  clock : ∀ k, c ≤ m.clk k
  own : m.act.handles = some e → ∃ p, innermost s.stack = some p ∧ p.ev = some e

/-- The position the pass will look at next. -/
def Pass.pos (p : Pass) : Nat := if p.ev.isSome then p.i + 1 else p.i

/-- The pass `p` in the state `s`, seen from the event `e`, which was entered `n` times before. -/
structure Walk (e n : Nat) (c : Clock) (s : State) (p : Pass) : Prop where
  /-- The event whose callback is running is where the pass has found it. -/
  here : ∀ x, p.ev = some x → s.events[p.i]? = some x
  target : ((entered s.log).count e = n ∧ e ∈ pending s.events p.pos ∧ (s.evs e).Due c) ∨
    ((entered s.log).count e = n + 1 ∧ e ∉ pending s.events p.pos)

/-- The invariant of a pass that returns to `base`, up to its return. -/
structure PassInv (e n : Nat) (c : Clock) (base : List Frame) (s : State) : Prop where
  inv : Inv s
  created : e < s.next
  inside : ∀ p, innermost s.stack = some p → p.base = base → Walk e n c s p
  returned : s.stack = base → (entered s.log).count e = n + 1

theorem running_of_pass {s : State} {p : Pass} {e : Nat} (hp : innermost s.stack = some p)
    (he : p.ev = some e) : e ∈ running s.stack := by
  rw [running_of_innermost, hp]
  show e ∈ p.ev.toList ++ running p.base
  rw [he]
  exact List.mem_cons_self

/-- In a pass the stack is not yet what it will return to. -/
theorem PassInv.within {e n : Nat} {c : Clock} {base : List Frame} {s : State} {p : Pass} (hinv : Inv s)
    (hcreated : e < s.next) (hp : innermost s.stack = some p) (hbase : p.base = base)
    (hwalk : Walk e n c s p) : PassInv e n c base s := by
  refine ⟨hinv, hcreated, fun q hq _ => ?_, fun hstack => ?_⟩
  · obtain rfl : p = q := Option.some.inj (hp.symm.trans hq)
    exact hwalk
  · have := innermost_length hp
    rw [hbase, hstack] at this
    exact absurd this (Nat.lt_irrefl _)

/-- A due event is not the one whose callback is running. -/
theorem Walk.waiting {e : Nat} {c : Clock} {s : State} {p : Pass} (hinv : Inv s)
    (hp : innermost s.stack = some p) (hdue : (s.evs e).Due c) {x : Nat} (hx : p.ev = some x) : x ≠ e := by
  rintro rfl
  have := hinv.locked x (running_of_pass hp hx)
  rw [hdue.unlocked] at this
  cases this

/-- A move that leaves the list and the position alone, and the target as well while that waits. -/
theorem Walk.congr {e n : Nat} {c : Clock} {s s' : State} {p p' : Pass} (h : Walk e n c s p) (hinv : Inv s)
    (hp : innermost s.stack = some p) (hpos : p'.pos = p.pos)
    (hhere : ∀ x, p'.ev = some x → s'.events[p'.i]? = some x) (hevents : s'.events = s.events)
    (hlog : entered s'.log = entered s.log) (hev : p.ev ≠ some e → s'.evs e = s.evs e) :
    Walk e n c s' p' := by
  refine ⟨hhere, ?_⟩
  rw [hpos, hevents, hlog]
  rcases h.target with ⟨hcount, hmem, hdue⟩ | hserved
  · refine Or.inl ⟨hcount, hmem, ?_⟩
    rw [hev fun he => Walk.waiting hinv hp hdue he rfl]
    exact hdue
  · exact Or.inr hserved

/-- An event is appended. -/
theorem Walk.add {e n : Nat} {c : Clock} {s : State} {p : Pass} (h : Walk e n c s p) (he : e < s.next)
    (ev : TimeEvent) : Walk e n c (s.add ev) p := by
  have hev : (s.add ev).evs e = s.evs e := State.setEv_ne s ev (Nat.ne_of_lt he)
  refine ⟨fun x hx => ?_, ?_⟩
  · have hget := h.here x hx
    obtain ⟨hlt, -⟩ := List.getElem?_eq_some_iff.mp hget
    show (s.events ++ [s.next])[p.i]? = some x
    rw [List.getElem?_append_left hlt, hget]
  · rw [hev]
    rcases h.target with ⟨hcount, hmem, hdue⟩ | ⟨hcount, hnot⟩
    · exact Or.inl ⟨hcount, mem_pending_append _ hmem, hdue⟩
    · refine Or.inr ⟨hcount, not_mem_pending_append hnot fun hin => ?_⟩
      exact Nat.ne_of_lt he (List.mem_singleton.mp hin)

/-- The pass goes past an event that is not the target, or past the target if that was entered. -/
theorem Walk.pass {e n i cnt x : Nat} {c : Clock} {s s' : State} {st : List Frame} {p' : Pass}
    (h : Walk e n c s ⟨i, cnt, none, st⟩) (hx : s.events[i]? = some x) (hne : (s.evs e).Due c → e ≠ x)
    (hhere : ∀ y, p'.ev = some y → s'.events[p'.i]? = some y)
    (hpending : pending s'.events p'.pos = pending s.events (i + 1))
    (hlog : (entered s'.log).count e = (entered s.log).count e) (hev : s'.evs e = s.evs e) :
    Walk e n c s' p' := by
  refine ⟨hhere, ?_⟩
  rw [hpending, hlog, hev]
  rcases h.target with ⟨hcount, hmem, hdue⟩ | ⟨hcount, hnot⟩
  · exact Or.inl ⟨hcount, pending_succ hx hmem (hne hdue), hdue⟩
  · exact Or.inr ⟨hcount, not_mem_pending_succ hnot⟩

/-- **The target is entered.**  It was pending, so this is the first time, and it is listed once. -/
theorem Walk.enter {e n i cnt : Nat} {c : Clock} {s s' : State} {st : List Frame}
    (h : Walk e n c s ⟨i, cnt, none, st⟩) (hnd : s.events.Nodup) (hx : s.events[i]? = some e)
    (hevents : s'.events = s.events) (hlog : entered s'.log = entered s.log ++ [e]) :
    Walk e n c s' ⟨i, cnt, some e, st⟩ := by
  have hcount : (entered s'.log).count e = (entered s.log).count e + 1 := by
    rw [hlog, List.count_append, List.count_singleton_self]
  have hmem : e ∈ pending s.events i := by
    rw [pending_eq_cons hx]
    exact List.mem_cons_self
  refine ⟨fun y hy => ?_, Or.inr ⟨?_, ?_⟩⟩
  · cases hy
    rw [hevents]
    exact hx
  · rcases h.target with ⟨hn, -, -⟩ | ⟨-, hnot⟩
    · omega
    · exact absurd hmem hnot
  · rw [hevents]
    exact not_mem_pending hnd hx

/-- Another event is entered. -/
theorem Walk.enter_other {e n i cnt x : Nat} {c : Clock} {s s' : State} {st : List Frame}
    (h : Walk e n c s ⟨i, cnt, none, st⟩) (hne : e ≠ x) (hx : s.events[i]? = some x)
    (hevents : s'.events = s.events) (hlog : entered s'.log = entered s.log ++ [x])
    (hev : s'.evs e = s.evs e) : Walk e n c s' ⟨i, cnt, some x, st⟩ := by
  have hcount : (entered s'.log).count e = (entered s.log).count e := by
    rw [hlog, List.count_append, List.count_singleton, if_neg (by simpa using fun h => hne h.symm),
      Nat.add_zero]
  refine h.pass hx (fun _ => hne) ?_ (by rw [hevents]; rfl) hcount hev
  rintro y ⟨⟩
  rw [hevents]
  exact hx

/-- An event other than a waiting target is replaced. -/
theorem Walk.setEv {e n x : Nat} {c : Clock} {s : State} {p : Pass} (h : Walk e n c s p) (hinv : Inv s)
    (hp : innermost s.stack = some p) (hx : p.ev ≠ some e → e ≠ x) (ev : TimeEvent) :
    Walk e n c (s.setEv x ev) p :=
  h.congr hinv hp rfl h.here rfl rfl fun hne => State.setEv_ne s ev (hx hne)

/-- A nested pass begins: the frames below it are more than `base`, so it is not the pass that returns
    to `base`. -/
theorem PassInv.nested {e n cnt : Nat} {c : Clock} {base st : List Frame} {s : State} (hinv : Inv s)
    (hcreated : e < s.next) (hlt : base.length < st.length)
    (hstack : s.stack = .fire 0 0 none :: .poll (some cnt) :: st) : PassInv e n c base s := by
  refine ⟨hinv, hcreated, fun q hq hqb => ?_, fun hend => ?_⟩
  · rw [hstack] at hq
    cases hq
    have := congrArg List.length hqb
    rw [List.length_cons] at this
    omega
  · have := congrArg List.length (hstack.symm.trans hend)
    rw [List.length_cons, List.length_cons] at this
    omega

/-- The pass returns: nothing is pending at the end of the list. -/
theorem PassInv.finish {e n i cnt : Nat} {c : Clock} {base : List Frame} {s s' : State} (hinv : Inv s')
    (hcreated : e < s'.next) (hwalk : Walk e n c s ⟨i, cnt, none, base⟩) (hi : s.events[i]? = none)
    (hstack : s'.stack = base) (hlog : entered s'.log = entered s.log) : PassInv e n c base s' := by
  refine ⟨hinv, hcreated, fun q hq hqb => ?_, fun _ => ?_⟩
  · have hlt := innermost_length hq
    rw [hqb, hstack] at hlt
    exact absurd hlt (Nat.lt_irrefl _)
  · rw [hlog]
    rcases hwalk.target with ⟨-, hmem, -⟩ | ⟨hcount, -⟩
    · rw [show Pass.pos ⟨i, cnt, none, base⟩ = i from rfl, pending_eq_nil hi] at hmem
      cases hmem
    · exact hcount

/-- `e` is armed, reset or restarted by its own callback only. -/
theorem Calm.other {e x : Nat} {c : Clock} {s : State} {m : Move} {p : Pass} (h : Calm e c s m)
    (hp : innermost s.stack = some p) (hx : m.act.handles = some x) (hne : p.ev ≠ some e) : e ≠ x := by
  rintro rfl
  obtain ⟨q, hq, hqe⟩ := h.own hx
  cases hq.symm.trans hp
  exact hne hqe

/-- **One move** of the pass. -/
theorem PassInv.step {msec : Int} {e n : Nat} {c : Clock} {base : List Frame} {s s' : State} {m : Move}
    (h : PassInv e n c base s) (hin : InPass base s) (hcalm : Calm e c s m)
    (hstep : Loop.step msec s m = some s') : PassInv e n c base s' := by
  obtain ⟨p, hp, hbase⟩ := hin
  have hwalk := h.inside p hp hbase
  have hinv' := step_inv h.inv hstep
  have heff := step_effect hstep
  have hcreated : e < s'.next := Nat.lt_of_lt_of_le h.created heff.next_le
  cases heff with
  | control hsame hpass =>
    refine .within hinv' hcreated (hpass.trans hp) hbase ?_
    refine hwalk.congr h.inv hp rfl ?_ hsame.events hsame.entered fun _ => by rw [hsame.evs]
    rw [hsame.events]
    exact hwalk.here
  | throw n hm _ _ =>
    have := hcalm.normal
    rw [hm] at this
    cases this
  | add a _ hs =>
    subst hs
    exact .within hinv' hcreated hp hbase (hwalk.add h.created _)
  | arm _ _ hm _ hs | reset _ _ hm _ _ hs | restart _ _ _ hm _ _ hs =>
    subst hs
    exact .within hinv' hcreated hp hbase (hwalk.setEv h.inv hp (hcalm.other hp (by rw [hm]; rfl)) _)
  | begin cnt st hstack _ hstack' =>
    rw [hstack] at hp
    have hbelow : innermost st = some p := hp
    exact .nested hinv' hcreated (hbase ▸ innermost_length hbelow) hstack'
  | skip i cnt x st _ hstack hx hev hs =>
    rw [hstack] at hp
    cases hp
    subst hs
    refine .within hinv' hcreated rfl hbase (hwalk.pass hx ?_ (fun y hy => by cases hy) rfl rfl rfl)
    -- a due event is not passed
    rintro hdue rfl
    rcases hev with hlock | hrest
    · rw [hdue.unlocked] at hlock
      cases hlock
    · exact hrest (timerRest_due (hcalm.clock 0) hdue.rest)
  | drop i cnt x st hstack hx _ hstop hs =>
    rw [hstack] at hp
    cases hp
    subst hs
    refine .within hinv' hcreated (p := ⟨i, cnt, none, st⟩) (by rw [hstack]; rfl) hbase
      (hwalk.pass hx ?_ (fun y hy => by cases hy) (pending_eraseIdx _ _) rfl rfl)
    -- nor removed
    rintro hdue rfl
    rw [hdue.started] at hstop
    cases hstop
  | enter i cnt x st _ hstack hx _ _ hs =>
    rw [hstack] at hp
    cases hp
    subst hs
    have hlog : entered (s.log ++ [Label.enter x]) = entered s.log ++ [x] := entered_append _ _
    by_cases hxe : e = x
    · subst hxe
      exact .within hinv' hcreated rfl hbase (hwalk.enter h.inv.nodup hx rfl hlog)
    · exact .within hinv' hcreated rfl hbase
        (hwalk.enter_other hxe hx rfl hlog (State.setEv_ne s _ hxe))
  | leave i cnt x ev st hstack _ hs =>
    have hp' := hp
    rw [hstack] at hp'
    cases hp'
    subst hs
    refine .within hinv' hcreated (p := ⟨i + 1, cnt + 1, none, st⟩) rfl hbase ?_
    refine hwalk.congr h.inv hp rfl (fun y hy => by cases hy) rfl rfl fun hne => ?_
    exact State.setEv_ne s ev fun hxe => hne (by rw [hxe])
  | finish i cnt st hstack hi hs =>
    rw [hstack] at hp
    cases hp
    subst hs hbase
    exact .finish hinv' hcreated hwalk hi rfl rfl

/-- **A whole pass.** -/
theorem pass_serves {msec : Int} {e cnt : Nat} {c : Clock} {base : List Frame} {s t : State} {ms : List Move}
    (hinv : Inv s) (hstack : s.stack = .fire 0 cnt none :: base) (he : e ∈ s.events) (hdue : (s.evs e).Due c)
    (hrun : RunWhile (step msec) (InPass base) s ms t) (hcalm : Meets (step msec) (Calm e c) s ms)
    (hend : t.stack = base) : (entered t.log).count e = (entered s.log).count e + 1 := by
  have hstart : PassInv e ((entered s.log).count e) c base s := by
    refine .within hinv (hinv.fresh e he) (p := ⟨0, cnt, none, base⟩) (by rw [hstack]; rfl) rfl ?_
    refine ⟨?_, Or.inl ⟨rfl, he, hdue⟩⟩
    rintro x ⟨⟩
  exact (hrun.invariant (step msec) (fun _ _ _ hin hcalm h hstep => h.step hin hcalm hstep) hcalm
    hstart).returned hend

/-! ## Every reachable state -/

/-- **No missed timer.**  When `zmq_loop:poll` calls `poller:poll`, the timeout in milliseconds is not
    negative, and not greater than the remaining time of a started, unlocked event of the list, at the
    moment that is read or at an earlier one.  And in a pass of `fire` whose callbacks return normally
    and begin no other pass, the callback of every event that was due when it began, and that no other
    callback arms, resets or restarts, has been entered exactly once when the pass returns. -/
theorem no_missed_timer {ver : Option Nat} {ms : List Move} {s : State}
    (h : run (step (zmqPollMsec ver)) init ms = some s) :
    (∀ (interval : Int) (clk : Nat → Clock) (s' : State) (timeout : Int),
      s.ctl = .call (.poll interval) → 0 ≤ interval → step (zmqPollMsec ver) s ⟨.tick, clk⟩ = some s' →
      s'.log = s.log ++ [.pollerPoll timeout] →
      ∃ t, timeout = t * zmqPollMsec ver ∧ 0 ≤ t ∧ ∀ (j e : Nat) (c : Clock), s.events[j]? = some e →
        (s.evs e).started = true → (s.evs e).locked = false → c ≤ clk j →
        ∃ rest, (s.evs e).sleepInterval c = .ok rest ∧ t ≤ rest) ∧
    (∀ (cnt : Nat) (st : List Frame) (e : Nat) (c : Clock) (ms' : List Move) (t : State),
      s.stack = .fire 0 0 none :: .poll (some cnt) :: st → e ∈ s.events → (s.evs e).Due c →
      RunWhile (step (zmqPollMsec ver)) (InPass (.poll (some cnt) :: st)) s ms' t →
      t.stack = .poll (some cnt) :: st → Meets (step (zmqPollMsec ver)) (Calm e c) s ms' →
      (entered t.log).count e = (entered s.log).count e + 1) := by
  have hinv := run_inv h
  refine ⟨?_, fun cnt st e c ms' t hstack he hdue hrun hend hcalm =>
    pass_serves hinv hstack he hdue hrun hcalm hend⟩
  intro interval clk s' timeout hctl h0 hstep hlog
  unfold step at hstep
  rw [if_pos rfl, State.tick, hctl] at hstep
  obtain ⟨t, ht, hmin⟩ := begin_poll hstep hlog
  obtain ⟨-, hpos, hall⟩ := sleepIntervalFrom_le s.events 0 interval t hmin
  refine ⟨t, ht, hpos h0, ?_⟩
  intro j e c hj hstarted hlocked hc
  -- the remaining time at `c` is at least the one that was read
  obtain ⟨rest, hrest⟩ := timerRest_isOk c hstarted (hinv.setted e (hinv.fresh e (List.mem_of_getElem? hj)))
  obtain ⟨int, hint, hle⟩ := timerRest_antitone hc hrest
  exact ⟨rest, hrest, Int.le_trans (hall j e int hj hlocked (by rw [Nat.zero_add]; exact hint)) hle⟩

/-- A repeating event 0 and a one-shot event 1, and a call of `loop:poll`. -/
def twoEvents : List Move :=
  [Act.addInterval 10 |>.when 0, Act.addOnce 10 |>.when 0, Act.call (.poll 50) |>.when 0]

/-- The call begins, -/
def polling : State := (run (step 1) init twoEvents).get (by decide)

/-- and `poller:poll` has returned after 10 ms. -/
def firing : State :=
  (run (step 1) init (twoEvents ++ [Act.tick.when 0, Act.pollerRet (some 0) |>.when 10])).get (by decide)

/-- The moves of the pass that fires both events. -/
def firesBoth : List Move := [Act.tick, Act.leave, Act.tick, Act.leave, Act.tick].map fun act => act.when 10

/-- `loop:poll` waits for 10 ms, and then the pass enters the callback of event 1 once. -/
theorem no_missed_timer_two :
    (∃ s', step 1 polling (Act.tick.when 0) = some s' ∧ s'.log = polling.log ++ [.pollerPoll 10] ∧
      ∃ rest, (polling.evs 1).sleepInterval ⟨0, 0⟩ = .ok rest ∧ 10 ≤ rest) ∧
    (∃ t, run (step 1) firing firesBoth = some t ∧
      (entered t.log).count 1 = (entered firing.log).count 1 + 1) := by
  have hmsec : zmqPollMsec (some 4) = 1 := rfl
  constructor
  · have hrun : run (step (zmqPollMsec (some 4))) init twoEvents = some polling := (Option.some_get _).symm
    have hstep : step (zmqPollMsec (some 4)) polling (Act.tick.when 0) = some _ := rfl
    obtain ⟨t, ht, -, hall⟩ := (no_missed_timer hrun).1 50 _ _ 10 rfl (by decide) hstep rfl
    obtain ⟨rest, hrest, hle⟩ := hall 1 1 ⟨0, 0⟩ rfl rfl rfl ⟨Nat.le_refl _, Nat.le_refl _⟩
    rw [hmsec, Int.mul_one] at ht
    exact ⟨_, rfl, rfl, rest, hrest, by rw [ht]; exact hle⟩
  · have hrun : run (step (zmqPollMsec (some 4))) init
        (twoEvents ++ [Act.tick.when 0, Act.pollerRet (some 0) |>.when 10]) = some firing :=
      (Option.some_get _).symm
    have hpass : RunWhile (step (zmqPollMsec (some 4))) (InPass [.poll (some 0)]) firing firesBoth _ :=
      .next ⟨_, rfl, rfl⟩ rfl (.next ⟨_, rfl, rfl⟩ rfl (.next ⟨_, rfl, rfl⟩ rfl
        (.next ⟨_, rfl, rfl⟩ rfl (.next ⟨_, rfl, rfl⟩ rfl (.done _)))))
    have hacts : ∀ act ∈ [Act.tick, Act.leave, Act.tick, Act.leave, Act.tick],
        act.throws = false ∧ act.handles = none := by decide
    have hcalm : Meets (step (zmqPollMsec (some 4))) (Calm 1 ⟨10, 10⟩) firing firesBoth := by
      refine meets_of_forall _ _ _ fun m hm s => ?_
      obtain ⟨act, hact, rfl⟩ := List.mem_map.mp hm
      obtain ⟨hthrow, hhandle⟩ := hacts act hact
      refine ⟨hthrow, fun k => ⟨Nat.le_refl _, Nat.le_refl _⟩, fun hown => ?_⟩
      rw [show (act.when 10).act.handles = none from hhandle] at hown
      cases hown
    exact ⟨_, rfl, (no_missed_timer hrun).2 0 [] 1 ⟨10, 10⟩ firesBoth _ rfl (by decide)
      ⟨rfl, rfl, rfl⟩ hpass rfl
      hcalm⟩

end Lzmq.Loop
