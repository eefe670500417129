/-
  A pass of `event_list:fire`, turn by turn.

  A pass walks the list by index while its own callbacks, and the passes nested in them, lengthen and
  shorten the list.  Two things follow from what a single turn does.

  An event leaves the list only while it is neither locked nor started, and when a pass returns its purge
  has left no such event (`list_keeps`).

  A turn brings the pass one step closer to the end of the list, unless events are added to the list
  meanwhile (`Turn.left`).  So a pass can only go on for ever when its callbacks keep adding events, and returns
  when they stop (`pass_ends`); `endless_pass` shows that one event from each callback is enough.
-/
import Lzmq.Loop.Fire
import Lzmq.Loop.Progress

namespace Lzmq.Loop

open Lzmq.Cursor Lzmq.Steps

/-! ## At the top of the loop -/

/-- A pass over the frames `st` is at the top of its loop. -/
def AtTop (st : List Frame) (s : State) : Prop :=
  s.ctl = .fire ∧ ∃ i cnt, s.stack = .fire i cnt none :: st

/-- Where a pass can be after one step from the top of its loop. -/
inductive TopStep (i cnt : Nat) (st : List Frame) (s s' : State) : Prop
  | finish (hi : s.events[i]? = none) (hs : s' = { s with events := s.purge }.ret st (some cnt))
  | skip (e : Nat) (he : s.events[i]? = some e) (hs : s' = { s with stack := .fire (i + 1) cnt none :: st })
  | drop (e : Nat) (he : s.events[i]? = some e) (hs : s' = { s with events := s.events.eraseIdx i })
  | enter (e : Nat) (he : s.events[i]? = some e)
      (hs : s' = { s.setEv e (s.evs e).lock with
        stack := .fire i cnt (some e) :: st, ctl := .user, log := s.log ++ [.enter e] })

theorem step_fire {msec : Int} {s s' : State} {m : Move} (hctl : s.ctl = .fire)
    (hstep : step msec s m = some s') : s.fireStep (m.clk 0) = some s' := by
  unfold step at hstep
  split at hstep
  · rwa [State.tick, hctl] at hstep
  · rw [hctl, if_neg (by rintro ⟨⟩)] at hstep
    cases hstep

theorem step_top {msec : Int} {s s' : State} {m : Move} {i cnt : Nat} {st : List Frame} (hctl : s.ctl = .fire)
    (hstack : s.stack = .fire i cnt none :: st) (hstep : step msec s m = some s') :
    TopStep i cnt st s s' := by
  have h := step_fire hctl hstep
  unfold State.fireStep at h
  split at h
  · rename_i heq
    cases heq.symm.trans hstack
    split at h
    · rename_i hi
      exact .finish hi (Option.some.inj h).symm
    · rename_i e hi
      split at h
      · exact .skip e hi (Option.some.inj h).symm
      · split at h
        · split at h
          · cases h
          · split at h
            · exact .enter e hi (Option.some.inj h).symm
            · exact .skip e hi (Option.some.inj h).symm
        · exact .drop e hi (Option.some.inj h).symm
  · rename_i hno
    exact absurd hstack (hno i cnt st)

/-! ## What leaves the list -/

/-- A call of `event_list:fire` returns. -/
def FireReturns (s s' : State) : Prop :=
  s.ctl = .fire ∧ ∃ i cnt, s.stack = .fire i cnt none :: s'.stack

/-- Only a pass takes events off the list, and it changes none then. -/
theorem Effect.same_of_removed {s s' : State} {m : Move} (h : Effect s m s') {e : Nat} (he : e ∈ s.events)
    (hgone : e ∉ s'.events) : s'.evs = s.evs := by
  cases h with
  | control hsame _ | throw _ _ hsame _ | begin _ _ _ hsame _ => exact hsame.evs
  | add a _ hs =>
    subst hs
    exact absurd (List.mem_append_left _ he) hgone
  | drop _ _ _ _ _ _ _ _ hs | finish _ _ _ _ _ hs | skip _ _ _ _ _ _ _ _ hs =>
    subst hs
    rfl
  | arm _ _ _ _ hs | reset _ _ _ _ _ hs | restart _ _ _ _ _ _ hs | enter _ _ _ _ _ _ _ _ _ hs
  | leave _ _ _ _ _ _ _ hs =>
    subst hs
    exact absurd he hgone

theorem fireReturns_purged {msec : Int} {s s' : State} {m : Move} (hstep : step msec s m = some s')
    (h : FireReturns s s') {e : Nat} (he : e ∈ s'.events) :
    (s'.evs e).locked = true ∨ (s'.evs e).started = true := by
  obtain ⟨hctl, i, cnt, hstack⟩ := h
  have hne : ∀ f : Frame, s'.stack ≠ f :: s'.stack := fun f heq => by
    have hlen := congrArg List.length heq
    rw [List.length_cons] at hlen
    omega
  cases step_top hctl hstack hstep with
  | finish _ hs =>
    have hevents : s'.events = s.purge := by rw [hs]; rfl
    have hevs : s'.evs = s.evs := by rw [hs]; rfl
    rw [hevs]
    exact (State.mem_purge.mp (hevents ▸ he)).2
  | skip _ _ hs => exact absurd (congrArg State.stack hs) (hne _)
  | drop _ _ hs => exact absurd ((congrArg State.stack hs).trans hstack) (hne _)
  | enter _ _ hs => exact absurd (congrArg State.stack hs) (hne _)

/-- **The event list keeps what it must.**  In every run, with calls nested to any depth: an event is listed
    once; when it is taken off the list it is neither locked nor started; and when a call of
    `event_list:fire` returns, every event of the list is locked or started. -/
theorem list_keeps {msec : Int} {ms : List Move} {s : State} (h : run (step msec) init ms = some s)
    {m : Move} {s' : State} (hstep : step msec s m = some s') : s.events.Nodup ∧
    (∀ e ∈ s.events, e ∉ s'.events →
      (s.evs e).locked = false ∧ (s.evs e).started = false ∧ s'.evs e = s.evs e) ∧
    (FireReturns s s' → ∀ e ∈ s'.events, (s'.evs e).locked = true ∨ (s'.evs e).started = true) := by
  have heff := step_effect hstep
  refine ⟨(run_inv h).nodup, fun e he hgone => ?_, fun hret e he => fireReturns_purged hstep hret he⟩
  have hdead : ¬((s.evs e).locked = true ∨ (s.evs e).started = true) := fun hlive =>
    hgone (heff.listed he hlive)
  rw [not_or, Bool.not_eq_true, Bool.not_eq_true] at hdead
  exact ⟨hdead.1, hdead.2, by rw [heff.same_of_removed he hgone]⟩

/-- A repeating event 0 and a one-shot event 1 have been fired, and the pass has come to the end of its
    list. -/
def bothFired : List Move :=
  ([Act.addInterval 10, .addOnce 10, .call (.poll 50), .tick].map fun act => act.when 0) ++
    [Act.pollerRet (some 0), .tick, .leave, .tick, .leave].map fun act => act.when 10

def atEnd : State := (run (step 1) init bothFired).get (by decide)

/-- When it returns the one-shot event is gone. -/
theorem list_keeps_atEnd : run (step 1) init bothFired = some atEnd ∧ ∃ s',
    step 1 atEnd (Act.tick.when 10) = some s' ∧ atEnd.events = [0, 1] ∧ s'.events = [0] ∧
    (atEnd.evs 1).locked = false ∧ (atEnd.evs 1).started = false ∧
    ∀ e ∈ s'.events, (s'.evs e).locked = true ∨ (s'.evs e).started = true := by
  have hrun : run (step 1) init bothFired = some atEnd := (Option.some_get _).symm
  refine ⟨hrun, _, rfl, rfl, rfl, rfl, rfl, ?_⟩
  exact (list_keeps hrun (m := Act.tick.when 10) rfl).2.2 ⟨rfl, 2, 2, rfl⟩

/-! ## Turns -/

/-- One turn of a pass over the frames `st`, from the top of its loop to the top again: it walks past an
    event or drops one, or it enters a callback, which does what it likes and returns. -/
inductive Turn (msec : Int) (st : List Frame) (s s' : State) : Prop
  | walk (clk : Nat → Clock) (hs : AtTop st s) (hstep : step msec s ⟨.tick, clk⟩ = some s')
      (hs' : AtTop st s')
  | fire (i cnt e : Nat) (clk : Nat → Clock) (s₁ : State) (ms : List Move) (hctl : s.ctl = .fire)
      (hstack : s.stack = .fire i cnt none :: st) (hstep : step msec s ⟨.tick, clk⟩ = some s₁)
      (henter : s₁.stack = .fire i cnt (some e) :: st)
      (hcallback : RunWhile (step msec) (fun u => (.fire i cnt (some e) :: st) <:+ u.stack) s₁ ms s')
      (hctl' : s'.ctl = .fire) (hstack' : s'.stack = .fire (i + 1) (cnt + 1) none :: st)

/-- So many turns. -/
inductive Turns (msec : Int) (st : List Frame) : Nat → State → State → Prop
  | zero (s : State) : Turns msec st 0 s s
  | succ {n : Nat} {s u t : State} (hturn : Turn msec st s u) (hrest : Turns msec st n u t) :
      Turns msec st (n + 1) s t

theorem Turns.snoc {msec : Int} {st : List Frame} {n : Nat} {s t u : State} (h : Turns msec st n s t)
    (hturn : Turn msec st t u) : Turns msec st (n + 1) s u := by
  induction h with
  | zero s => exact .succ hturn (.zero u)
  | succ hfirst _ ih => exact .succ hfirst (ih hturn)

/-- The events a pass has not come to. -/
def left (s : State) : Nat :=
  match s.stack with
  | .fire i _ _ :: _ => s.events.length - i
  | _ => 0

theorem left_eq {s : State} {i cnt : Nat} {ev : Option Nat} {st : List Frame}
    (h : s.stack = .fire i cnt ev :: st) : left s = s.events.length - i := by
  unfold left
  rw [h]

/-- The list grows by the events that are added, and no faster. -/
theorem Effect.length_le {s s' : State} {m : Move} (h : Effect s m s') :
    s.next ≤ s'.next ∧ s'.events.length + s.next ≤ s.events.length + s'.next := by
  refine ⟨h.next_le, ?_⟩
  cases h with
  | control hsame _ | throw _ _ hsame _ | begin _ _ _ hsame _ =>
    exact Nat.le_of_eq (by rw [hsame.events, hsame.next])
  | add a _ hs =>
    subst hs
    show (s.events ++ [s.next]).length + s.next ≤ s.events.length + (s.next + 1)
    rw [List.length_append, List.length_singleton]
    omega
  | drop _ _ _ _ _ _ _ _ hs =>
    subst hs
    exact Nat.add_le_add_right (List.length_eraseIdx_le _ _) _
  | finish _ _ _ _ _ hs =>
    subst hs
    refine Nat.add_le_add_right ?_ _
    show s.purge.length ≤ s.events.length
    unfold State.purge
    rw [removeDown_eq_filter]
    exact List.length_filter_le _ _
  | arm _ _ _ _ hs | reset _ _ _ _ _ hs | restart _ _ _ _ _ _ hs | skip _ _ _ _ _ _ _ _ hs
  | enter _ _ _ _ _ _ _ _ _ hs | leave _ _ _ _ _ _ _ hs =>
    subst hs
    exact Nat.le_refl _

/-- Along a callback, whatever it calls. -/
theorem callback_length_le {msec : Int} {P : State → Prop} {s t : State} {ms : List Move}
    (h : RunWhile (step msec) P s ms t) :
    s.next ≤ t.next ∧ t.events.length + s.next ≤ s.events.length + t.next := by
  induction h with
  | done s => exact ⟨Nat.le_refl _, Nat.le_refl _⟩
  | next _ hstep _ ih =>
    have hone := (step_effect hstep).length_le
    omega

/-- **One turn.**  The pass has come one event closer to the end of the list, apart from the events that
    were added meanwhile. -/
theorem Turn.left {msec : Int} {st : List Frame} {s s' : State} (h : Turn msec st s s') :
    s.next ≤ s'.next ∧ Loop.left s' + 1 + s.next ≤ Loop.left s + s'.next := by
  cases h with
  | walk clk hs hstep hs' =>
    obtain ⟨hctl, i, cnt, hstack⟩ := hs
    obtain ⟨-, i', cnt', hstack'⟩ := hs'
    rw [left_eq hstack, left_eq hstack']
    cases step_top hctl hstack hstep with
    | finish _ hs =>
      -- the pass has returned, to fewer frames
      have heq : st = .fire i' cnt' none :: st := by rw [← hstack', hs]; rfl
      exact absurd (congrArg List.length heq) (Nat.ne_of_lt (Nat.lt_succ_self _))
    | skip e he hs =>
      subst hs
      cases hstack'
      obtain ⟨hlt, -⟩ := List.getElem?_eq_some_iff.mp he
      dsimp only
      omega
    | drop e he hs =>
      subst hs
      cases hstack'.symm.trans hstack
      obtain ⟨hlt, -⟩ := List.getElem?_eq_some_iff.mp he
      dsimp only
      rw [List.length_eraseIdx_of_lt hlt]
      omega
    | enter e he hs =>
      subst hs
      cases hstack'
  | fire i cnt e clk s₁ ms hctl hstack hstep henter hcallback _ hstack' =>
    rw [left_eq hstack, left_eq hstack']
    have hrun := callback_length_le hcallback
    cases step_top hctl hstack hstep with
    | enter e he hs =>
      subst hs
      obtain ⟨hlt, -⟩ := List.getElem?_eq_some_iff.mp he
      dsimp only [State.setEv] at hrun
      omega
    | finish _ hs =>
      have heq : st = .fire i cnt (some e) :: st := by rw [← henter, hs]; rfl
      exact absurd (congrArg List.length heq) (Nat.ne_of_lt (Nat.lt_succ_self _))
    | skip _ _ hs =>
      subst hs
      cases henter
    | drop _ _ hs =>
      subst hs
      cases henter.symm.trans hstack

theorem Turns.left {msec : Int} {st : List Frame} {n : Nat} {s t : State} (h : Turns msec st n s t) :
    s.next ≤ t.next ∧ Loop.left t + n + s.next ≤ Loop.left s + t.next := by
  induction h with
  | zero s => exact ⟨Nat.le_refl _, Nat.le_refl _⟩
  | succ hturn _ ih =>
    have hone := hturn.left
    omega

/-- What a pass at the top of its loop does next: it returns, it goes on, or it enters a callback. -/
theorem top_cases {msec : Int} {st : List Frame} {s : State} (hinv : Inv s) (htop : AtTop st s)
    (clk : Nat → Clock) : ∃ s', step msec s ⟨.tick, clk⟩ = some s' ∧
      (FireReturns s s' ∧ s'.stack = st ∨ Turn msec st s s' ∨
        s'.ctl = .user ∧ ∃ i cnt e, s'.stack = .fire i cnt (some e) :: st) := by
  obtain ⟨hctl, i, cnt, hstack⟩ := htop
  obtain ⟨s', hs'⟩ := Option.isSome_iff_exists.mp (fireStep_isSome hinv ⟨i, cnt, st, hstack⟩ (clk 0))
  have hstep : step msec s ⟨.tick, clk⟩ = some s' := by
    unfold step
    rw [if_pos rfl, State.tick, hctl]
    exact hs'
  refine ⟨s', hstep, ?_⟩
  cases step_top hctl hstack hstep with
  | finish _ hs =>
    have hst : s'.stack = st := by rw [hs]; rfl
    exact .inl ⟨⟨hctl, i, cnt, by rw [hst]; exact hstack⟩, hst⟩
  | skip e _ hs =>
    exact .inr (.inl (.walk clk ⟨hctl, i, cnt, hstack⟩ hstep (by rw [hs]; exact ⟨hctl, i + 1, cnt, rfl⟩)))
  | drop e _ hs =>
    exact .inr (.inl (.walk clk ⟨hctl, i, cnt, hstack⟩ hstep (by rw [hs]; exact ⟨hctl, i, cnt, hstack⟩)))
  | enter e _ hs => exact .inr (.inr (by rw [hs]; exact ⟨rfl, i, cnt, e, rfl⟩))

/-- The pass over the frames `st` returns. -/
def PassReturns (msec : Int) (st : List Frame) (s : State) : Prop :=
  ∀ clk, ∃ s', step msec s ⟨.tick, clk⟩ = some s' ∧ FireReturns s s' ∧ s'.stack = st

/-- As many turns as a sequence of them takes. -/
theorem turns_of_forall {msec : Int} {st : List Frame} {f : Nat → State} :
    ∀ n, (∀ m < n, Turns msec st m (f 0) (f m) → Turn msec st (f m) (f (m + 1))) →
      Turns msec st n (f 0) (f n)
  | 0, _ => .zero _
  | n + 1, h => by
    have hrest := turns_of_forall n fun m hm => h m (Nat.lt_succ_of_lt hm)
    exact hrest.snoc (h n (Nat.lt_succ_self n) hrest)

/-- **A pass ends unless its callbacks keep adding events.**  At the top of its loop a pass returns, goes on
    or enters a callback; it makes no more turns than there are events left in the list and events added
    meanwhile; a pass that never ends adds events without end; and if its callbacks return and add at most `k`
    events, it returns, after at most `k` turns more than there are events. -/
theorem pass_ends {msec : Int} {ms : List Move} {st : List Frame} {s : State}
    (h : run (step msec) init ms = some s) (htop : AtTop st s) :
    (∀ clk, ∃ s', step msec s ⟨.tick, clk⟩ = some s' ∧
      (FireReturns s s' ∧ s'.stack = st ∨ Turn msec st s s' ∨
        s'.ctl = .user ∧ ∃ i cnt e, s'.stack = .fire i cnt (some e) :: st)) ∧
    (∀ n t, Turns msec st n s t → n ≤ s.events.length + (t.next - s.next)) ∧
    (∀ f : Nat → State, f 0 = s → (∀ n, Turn msec st (f n) (f (n + 1))) →
      ∀ k, ∃ n, s.next + k ≤ (f n).next) ∧
    (∀ f : Nat → State, f 0 = s → ∀ k, (∀ n, Turns msec st n s (f n) →
      (f n).next ≤ s.next + k ∧ (PassReturns msec st (f n) ∨ Turn msec st (f n) (f (n + 1)))) →
        ∃ n, n ≤ s.events.length + k ∧ Turns msec st n s (f n) ∧ PassReturns msec st (f n)) := by
  have hleft : left s ≤ s.events.length := by
    obtain ⟨-, i, cnt, hstack⟩ := htop
    rw [left_eq hstack]
    exact Nat.sub_le _ _
  have hbound : ∀ n t, Turns msec st n s t → n ≤ s.events.length + (t.next - s.next) := by
    intro n t hturns
    have := hturns.left
    omega
  refine ⟨top_cases (run_inv h) htop, hbound, fun f hf hturn k => ?_, fun f hf k hcalls => ?_⟩
  · -- after as many turns as there are events left, and `k` more
    refine ⟨s.events.length + k, ?_⟩
    have := (turns_of_forall (s.events.length + k) fun m _ _ => hturn m).left
    rw [hf] at this
    omega
  · refine Classical.byContradiction fun hnone => ?_
    have hgo : ∀ m < s.events.length + k + 1, Turns msec st m (f 0) (f m) →
        Turn msec st (f m) (f (m + 1)) := by
      intro m hm hturns
      rw [hf] at hturns
      exact (hcalls m hturns).2.resolve_left fun hreturns =>
        hnone ⟨m, Nat.le_of_lt_succ hm, hturns, hreturns⟩
    have hturns := turns_of_forall _ hgo
    rw [hf] at hturns
    -- one turn too many
    have := hbound _ _ hturns
    have := (hcalls _ hturns).1
    omega

/-- After the first of the callbacks of `bothFired`. -/
def oneFired : State := (run (step 1) init (bothFired.take 7)).get (by decide)

/-- Two turns lead from `firing` to `atEnd`. -/
def firingTurns : Nat → State
  | 0 => firing
  | 1 => oneFired
  | _ => atEnd

theorem firingTurns_turn (n : Nat) (hn : n < 2) :
    Turn 1 [.poll (some 0)] (firingTurns n) (firingTurns (n + 1)) := by
  obtain rfl | rfl : n = 0 ∨ n = 1 := by omega
  · exact .fire 0 0 0 (Act.tick.when 10).clk _ [Act.leave.when 10] rfl rfl rfl rfl
      (.next ⟨[], rfl⟩ rfl (.done _)) rfl rfl
  · exact .fire 1 1 1 (Act.tick.when 10).clk _ [Act.leave.when 10] rfl rfl rfl rfl
      (.next ⟨[], rfl⟩ rfl (.done _)) rfl rfl

/-- `firing` has two events to come, and its callbacks add none. -/
theorem pass_ends_firing : AtTop [.poll (some 0)] firing ∧
    (∀ n t, Turns 1 [.poll (some 0)] n firing t → n ≤ 2 + (t.next - 2)) ∧
    ∃ n, n ≤ 2 ∧ Turns 1 [.poll (some 0)] n firing (firingTurns n) ∧
      PassReturns 1 [.poll (some 0)] (firingTurns n) := by
  have hrun : run (step 1) init
      (twoEvents ++ [Act.tick.when 0, Act.pollerRet (some 0) |>.when 10]) = some firing :=
    (Option.some_get _).symm
  have htop : AtTop [.poll (some 0)] firing := ⟨rfl, 0, 0, rfl⟩
  obtain ⟨-, hbound, -, hreturns⟩ := pass_ends hrun htop
  refine ⟨htop, hbound, hreturns firingTurns rfl 0 fun n _ => ?_⟩
  by_cases hn : n < 2
  · refine ⟨?_, Or.inr (firingTurns_turn n hn)⟩
    obtain rfl | rfl : n = 0 ∨ n = 1 := by omega
    · exact Nat.le_refl _
    · exact Nat.le_refl _
  · obtain ⟨n, rfl⟩ := Nat.exists_eq_add_of_le (Nat.le_of_not_lt hn)
    rw [Nat.add_comm 2 n]
    exact ⟨Nat.le_refl _, Or.inl fun clk => ⟨_, rfl, ⟨rfl, 2, 2, rfl⟩, rfl⟩⟩

/-! ## A pass that does not end -/

/-- An event that is always due. -/
def always : TimeEvent := TimeEvent.init.setInterval ⟨0, 0⟩ 0

/-- A pass that has fired `n` events and is about to fire the last one of the list. -/
structure Busy (n : Nat) (s : State) : Prop where
  ctl : s.ctl = .fire
  stack : s.stack = [.fire n n none, .poll (some 0)]
  length : s.events.length = n + 1
  last : s.events[n]? = some n
  next : s.next = n + 1
  due : s.evs n = always

theorem step_enter {msec : Int} {s : State} {clk : Nat → Clock} {i cnt e : Nat} {st : List Frame}
    (hctl : s.ctl = .fire) (hstack : s.stack = .fire i cnt none :: st) (he : s.events[i]? = some e)
    (hlocked : (s.evs e).locked = false) (hdue : (s.evs e).sleepInterval (clk 0) = .ok 0) :
    step msec s ⟨.tick, clk⟩ = some { s.setEv e (s.evs e).lock with
      stack := .fire i cnt (some e) :: st, ctl := .user, log := s.log ++ [.enter e] } := by
  have hstarted : (s.evs e).started = true := started_of_timerRest hdue
  unfold step
  rw [if_pos rfl, State.tick, hctl]
  dsimp only [State.fireStep]
  rw [hstack]
  dsimp only
  rw [he]
  dsimp only
  rw [if_neg (by rw [hlocked]; decide), if_pos hstarted, hdue]
  rfl

theorem step_leave {msec : Int} {s : State} {clk : Nat → Clock} {i cnt e : Nat} {ev : TimeEvent}
    {st : List Frame} (hctl : s.ctl = .user) (hstack : s.stack = .fire i cnt (some e) :: st)
    (hev : (s.evs e).unlock.afterFire (clk 0) = .ok ev) :
    step msec s ⟨.leave, clk⟩ = some { s.setEv e ev with
      stack := .fire (i + 1) (cnt + 1) none :: st, ctl := .fire } := by
  unfold step
  rw [if_neg (by rintro ⟨⟩), if_pos hctl]
  dsimp only [State.user, State.leave]
  rw [hstack]
  dsimp only
  rw [hev]

/-- The callback adds one event with the interval 0. -/
theorem Busy.turn {n : Nat} {s : State} (h : Busy n s) :
    ∃ s', Turn 1 [.poll (some 0)] s s' ∧ Busy (n + 1) s' := by
  obtain ⟨s₁, henter, hs₁⟩ : ∃ s₁, step 1 s (Act.tick.when 0) = some s₁ ∧ s₁ = _ :=
    ⟨_, step_enter h.ctl h.stack h.last (by rw [h.due]; rfl) (by rw [h.due]; rfl), rfl⟩
  have hnext : s₁.next = n + 1 := by rw [hs₁]; exact h.next
  have hevents : s₁.events = s.events := by rw [hs₁]; rfl
  have hstack : s₁.stack = [.fire n n (some n), .poll (some 0)] := by rw [hs₁]
  have hev : s₁.evs n = always.lock := by
    rw [hs₁, ← h.due]
    exact State.setEv_self _ _ _
  -- the callback
  have hadd : step 1 s₁ (Act.addInterval 0 |>.when 0) = some (s₁.add always) := by
    rw [hs₁]
    rfl
  have hev' : (s₁.add always).evs n = always.lock := by
    rw [← hev]
    exact State.setEv_ne _ _ (by omega)
  obtain ⟨s₂, hleave, hs₂⟩ : ∃ s₂, step 1 (s₁.add always) (Act.leave.when 0) = some s₂ ∧ s₂ = _ :=
    ⟨_, step_leave (by rw [hs₁]; rfl) hstack (by rw [hev']; rfl), rfl⟩
  have hstack₂ : s₂.stack = [.fire (n + 1) (n + 1) none, .poll (some 0)] := by rw [hs₂]
  have hctl₂ : s₂.ctl = .fire := by rw [hs₂]
  have hevents₂ : s₂.events = s.events ++ [n + 1] := by rw [hs₂, ← hevents, ← hnext]; rfl
  have hcallback : RunWhile (step 1) (fun u => [.fire n n (some n), .poll (some 0)] <:+ u.stack) s₁
      [Act.addInterval 0 |>.when 0, Act.leave.when 0] s₂ := by
    have hin : [.fire n n (some n), .poll (some 0)] <:+ s₁.stack := hstack ▸ List.suffix_rfl
    exact .next hin hadd (.next hin hleave (.done s₂))
  refine ⟨s₂, .fire n n n _ s₁ _ h.ctl h.stack henter hstack hcallback hctl₂ hstack₂, hctl₂, hstack₂,
    ?_, ?_, ?_, ?_⟩
  · rw [hevents₂, List.length_append, List.length_singleton, h.length]
  · rw [hevents₂, List.getElem?_append_right (Nat.le_of_eq h.length), h.length, Nat.sub_self]
    rfl
  · rw [hs₂]
    exact congrArg (· + 1) hnext
  · rw [hs₂]
    show ((s₁.add always).setEv n _).evs (n + 1) = always
    rw [State.setEv_ne _ _ (Nat.succ_ne_self n), Nat.succ_eq_add_one, ← hnext]
    exact State.setEv_self _ _ _

/-- One event with the interval 0, and a call of `loop:poll`. -/
def oneAlways : List Move :=
  [Act.addInterval 0, .call (.poll 50), .tick, .pollerRet (some 0)].map fun act => act.when 0

def dueAlways : State := (run (step 1) init oneAlways).get (by decide)

theorem busy_dueAlways : Busy 0 dueAlways := ⟨rfl, rfl, rfl, rfl, rfl, rfl⟩

/-- **A pass that does not end.**  Each callback adds one event with the interval 0 and the same callback,
    and returns.  After `n` turns the pass has fired `n` events, and it takes another turn. -/
theorem endless_pass : ∃ s st, run (step 1) init oneAlways = some s ∧ AtTop st s ∧
    ∃ f : Nat → State, f 0 = s ∧ ∀ n, Turn 1 st (f n) (f (n + 1)) ∧
      (f n).stack = .fire n n none :: st ∧ (f n).next = n + 1 := by
  refine ⟨dueAlways, [.poll (some 0)], (Option.some_get _).symm, ⟨rfl, 0, 0, rfl⟩, ?_⟩
  obtain ⟨f, hf, hall⟩ := exists_endless busy_dueAlways fun _ _ => Busy.turn
  exact ⟨f, hf, fun n => ⟨(hall n).2, (hall n).1.stack, (hall n).1.next⟩⟩

end Lzmq.Loop
