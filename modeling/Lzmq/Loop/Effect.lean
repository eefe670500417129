/-
  What one move can do.

  `Effect s m s'` lists the ways a move leads from `s` to `s'`.  Most of the moves only pass control
  around: the events, the list and the innermost pass of `fire` stay as they are (`Effect.control`).  The
  other constructors are the moves that matter: a callback is entered or returns, a pass begins, goes on
  or ends, an event is added, armed, reset or restarted, and user code throws.

  Everything that is proved about runs of the loop starts from `step_effect`; the definitions of the
  machine are unfolded here and nowhere later, except where control itself is the subject.
-/
import Lzmq.Loop.Machine

namespace Lzmq.Loop

/-! ## The innermost pass -/

/-- A pass of `event_list:fire`: its local variables, the event whose callback is running, and the
    frames it will return to. -/
structure Pass where
  i : Nat
  cnt : Nat
  ev : Option Nat
  base : List Frame

def innermost : List Frame → Option Pass
  | [] => none
  | .fire i cnt ev :: st => some ⟨i, cnt, ev, st⟩
  | _ :: st => innermost st

theorem innermost_length : ∀ {st : List Frame} {p : Pass}, innermost st = some p →
    p.base.length < st.length := by
  intro st
  induction st with
  | nil => intro p h; cases h
  | cons f st ih =>
    intro p h
    cases f with
    | fire i cnt ev =>
      cases h
      exact Nat.lt_succ_self _
    | poll cnt => exact Nat.lt_succ_of_lt (ih h)
    | sleepEx interval start c => exact Nat.lt_succ_of_lt (ih h)
    | flush interval start c => exact Nat.lt_succ_of_lt (ih h)
    | start ms fn running => exact Nat.lt_succ_of_lt (ih h)

theorem running_fire (i cnt : Nat) (ev : Option Nat) (st : List Frame) :
    running (.fire i cnt ev :: st) = ev.toList ++ running st := by
  cases ev <;> rfl

/-- What runs is known from the innermost pass. -/
theorem running_of_innermost : ∀ {st : List Frame}, running st =
    match innermost st with
    | none => []
    | some p => p.ev.toList ++ running p.base := by
  intro st
  induction st with
  | nil => rfl
  | cons f st ih =>
    cases f with
    | fire i cnt ev => exact running_fire i cnt ev st
    | poll cnt => exact ih
    | sleepEx interval start c => exact ih
    | flush interval start c => exact ih
    | start ms fn running => exact ih

theorem running_congr {st st' : List Frame} (h : innermost st' = innermost st) :
    running st' = running st := by
  rw [running_of_innermost, h, ← running_of_innermost]

theorem running_drop (st : List Frame) (n : Nat) : (running (st.drop n)).Sublist (running st) :=
  (List.drop_sublist n st).filterMap _

theorem entered_append (log log' : List Label) : entered (log ++ log') = entered log ++ entered log' :=
  List.filterMap_append

/-! ## Effects -/

/-- The events, the event list and the callbacks entered so far are the same. -/
structure Same (s s' : State) : Prop where
  evs : s'.evs = s.evs
  next : s'.next = s.next
  events : s'.events = s.events
  entered : entered s'.log = entered s.log

/-- The action that adds an event armed with `a`. -/
def Arm.adds : Arm → Act
  | .setTime tm => .addTime tm
  | .setInterval interval => .addInterval interval
  | .setIntervalOnce interval => .addOnce interval

/-- What a move `m` from `s` to `s'` does. -/
inductive Effect (s : State) (m : Move) (s' : State) : Prop
  | control (hsame : Same s s') (hpass : innermost s'.stack = innermost s.stack)
  | throw (n : Nat) (hm : m.act = .throw n) (hsame : Same s s') (hstack : s'.stack = s.stack.drop n)
  | add (a : Arm) (hm : m.act = a.adds) (hs : s' = s.add (TimeEvent.init.arm (m.clk 0) a))
  | arm (e : Nat) (a : Arm) (hm : m.act = .arm e a) (he : e < s.next)
      (hs : s' = s.setEv e ((s.evs e).arm (m.clk 0) a))
  | reset (e : Nat) (ev : TimeEvent) (hm : m.act = .reset e) (he : e < s.next)
      (hev : (s.evs e).reset = .ok ev) (hs : s' = s.setEv e ev)
  | restart (e : Nat) (ev : TimeEvent) (again : Bool) (hm : m.act = .restart e) (he : e < s.next)
      (hev : (s.evs e).restart (m.clk 0) = .ok (ev, again)) (hs : s' = s.setEv e ev)
  /-- A pass begins. -/
  | begin (cnt : Nat) (st : List Frame) (hstack : s.stack = .poll none :: st) (hsame : Same s s')
      (hstack' : s'.stack = .fire 0 0 none :: .poll (some cnt) :: st)
  /-- It passes an event that is locked or not due, -/
  | skip (i cnt e : Nat) (st : List Frame) (hm : m.act = .tick) (hstack : s.stack = .fire i cnt none :: st)
      (he : s.events[i]? = some e)
      (hev : (s.evs e).locked = true ∨ (s.evs e).sleepInterval (m.clk 0) ≠ .ok 0)
      (hs : s' = { s with stack := .fire (i + 1) cnt none :: st })
  /-- drops one that was stopped, -/
  | drop (i cnt e : Nat) (st : List Frame) (hstack : s.stack = .fire i cnt none :: st)
      (he : s.events[i]? = some e) (hlocked : (s.evs e).locked = false) (hstarted : (s.evs e).started = false)
      (hs : s' = { s with events := s.events.eraseIdx i })
  /-- enters the callback of one that is due, -/
  | enter (i cnt e : Nat) (st : List Frame) (hm : m.act = .tick) (hstack : s.stack = .fire i cnt none :: st)
      (he : s.events[i]? = some e) (hlocked : (s.evs e).locked = false)
      (hdue : (s.evs e).sleepInterval (m.clk 0) = .ok 0)
      (hs : s' = { s.setEv e (s.evs e).lock with
        stack := .fire i cnt (some e) :: st, ctl := .user, log := s.log ++ [.enter e] })
  /-- which returns to it, -/
  | leave (i cnt e : Nat) (ev : TimeEvent) (st : List Frame) (hstack : s.stack = .fire i cnt (some e) :: st)
      (hev : (s.evs e).unlock.afterFire (m.clk 0) = .ok ev)
      (hs : s' = { s.setEv e ev with stack := .fire (i + 1) (cnt + 1) none :: st, ctl := .fire })
  /-- and at the end of the list it returns. -/
  | finish (i cnt : Nat) (st : List Frame) (hstack : s.stack = .fire i cnt none :: st)
      (hi : s.events[i]? = none) (hs : s' = { s with events := s.purge }.ret st (some cnt))

theorem Same.refl (s : State) : Same s s := ⟨rfl, rfl, rfl, rfl⟩

/-- A call of `poller:poll` is recorded; it enters no callback of an event. -/
theorem entered_pollerPoll (log : List Label) (timeout : Int) :
    entered (log ++ [.pollerPoll timeout]) = entered log := by
  rw [entered_append]
  exact List.append_nil _

theorem startAgain_effect {s : State} {m : Move} {ms : Int} {fn running : Bool} {st : List Frame}
    (hstack : s.stack = .start ms fn running :: st) : Effect s m (s.startAgain ms fn st) := by
  unfold State.startAgain
  split
  · exact .control ⟨rfl, rfl, rfl, rfl⟩ (by rw [hstack]; rfl)
  · exact .control ⟨rfl, rfl, rfl, rfl⟩ (by rw [hstack]; rfl)

theorem fireStep_effect {s s' : State} {m : Move} (hm : m.act = .tick) (h : s.fireStep (m.clk 0) = some s') :
    Effect s m s' := by
  unfold State.fireStep at h
  split at h
  · rename_i i cnt st hstack
    split at h
    · rename_i hnone
      exact .finish i cnt st hstack hnone (Option.some.inj h).symm
    · rename_i e he
      by_cases hlocked : (s.evs e).locked = true
      · rw [if_pos hlocked] at h
        exact .skip i cnt e st hm hstack he (Or.inl hlocked) (Option.some.inj h).symm
      rw [if_neg hlocked] at h
      rw [Bool.not_eq_true] at hlocked
      by_cases hstarted : (s.evs e).started = true
      · rw [if_pos hstarted] at h
        split at h
        · cases h
        · rename_i int hint
          by_cases hzero : int = 0
          · rw [if_pos hzero] at h
            exact .enter i cnt e st hm hstack he hlocked (by rw [hint, hzero]) (Option.some.inj h).symm
          · rw [if_neg hzero] at h
            exact .skip i cnt e st hm hstack he
              (Or.inr (by rw [hint]; exact fun heq => hzero (Except.ok.inj heq))) (Option.some.inj h).symm
      · rw [if_neg hstarted] at h
        rw [Bool.not_eq_true] at hstarted
        exact .drop i cnt e st hstack he hlocked hstarted (Option.some.inj h).symm
  · cases h

theorem begin_effect {msec : Int} {s s' : State} {m : Move} {f : Call}
    (h : s.begin msec m.clk f = some s') : Effect s m s' := by
  cases f with
  | poll interval =>
    dsimp only [State.begin] at h
    split at h
    · cases h
      exact .control ⟨rfl, rfl, rfl, rfl⟩ rfl
    · split at h
      · cases h
      · cases h
        exact .control ⟨rfl, rfl, rfl, entered_pollerPoll _ _⟩ rfl
  | sleepEx interval =>
    cases h
    exact .control ⟨rfl, rfl, rfl, rfl⟩ rfl
  | flush interval =>
    dsimp only [State.begin] at h
    split at h
    · cases h
      exact .control ⟨rfl, rfl, rfl, rfl⟩ rfl
    · cases h
      exact .control ⟨rfl, rfl, rfl, entered_pollerPoll _ _⟩ rfl
  | start ms =>
    cases h
    exact .control ⟨rfl, rfl, rfl, rfl⟩ rfl

theorem resume_effect {s s' : State} {m : Move} {cnt : Option Nat} (h : s.resume (m.clk 0) cnt = some s') :
    Effect s m s' := by
  unfold State.resume at h
  split at h
  · rename_i hstack
    cases h
    exact .control ⟨rfl, rfl, rfl, rfl⟩ (by rw [hstack]; rfl)
  · rename_i hstack
    cases h
    exact .control ⟨rfl, rfl, rfl, rfl⟩ (by rw [hstack]; rfl)
  · rename_i hstack
    dsimp only at h
    split at h <;> cases h
    · exact .control ⟨rfl, rfl, rfl, rfl⟩ (by rw [hstack]; rfl)
    · exact .control ⟨rfl, rfl, rfl, rfl⟩ (by rw [hstack]; rfl)
  · rename_i hstack
    cases h
    exact .control ⟨rfl, rfl, rfl, rfl⟩ (by rw [hstack]; rfl)
  · rename_i hstack
    split at h <;> cases h
    · exact .control ⟨rfl, rfl, rfl, rfl⟩ (by rw [hstack]; rfl)
    · exact startAgain_effect hstack
  · split at h <;> cases h
    exact .control ⟨rfl, rfl, rfl, rfl⟩ rfl

theorem pollerRet_effect {s s' : State} {m : Move} {cnt : Option Nat}
    (h : s.pollerRet (m.clk 0) cnt = some s') : Effect s m s' := by
  unfold State.pollerRet at h
  split at h
  · rename_i hstack
    cases h
    exact .control ⟨rfl, rfl, rfl, rfl⟩ (by rw [hstack]; rfl)
  · rename_i st cnt hstack
    split at h <;> cases h
    · exact .control ⟨rfl, rfl, rfl, rfl⟩ (by rw [hstack]; rfl)
    · exact .begin cnt st hstack ⟨rfl, rfl, rfl, rfl⟩ rfl
  · rename_i hstack
    cases h
    exact .control ⟨rfl, rfl, rfl, rfl⟩ (by rw [hstack]; rfl)
  · rename_i hstack
    dsimp only at h
    split at h <;> cases h
    · exact .control ⟨rfl, rfl, rfl, rfl⟩ (by rw [hstack]; rfl)
    · exact .control ⟨rfl, rfl, rfl, entered_pollerPoll _ _⟩ (by rw [hstack]; rfl)
  · cases h

theorem leave_effect {s s' : State} {m : Move} (h : s.leave (m.clk 0) = some s') : Effect s m s' := by
  unfold State.leave at h
  split at h
  · rename_i i cnt e st hstack
    split at h
    · cases h
    · rename_i ev hev
      exact .leave i cnt e ev st hstack hev (Option.some.inj h).symm
  · rename_i hstack
    cases h
    exact startAgain_effect hstack
  · cases h

/-- A method of an event raises an error, or replaces the event. -/
theorem onEvent_cases {s s' : State} {e : Nat} {f : TimeEvent → Except String TimeEvent}
    (h : s.onEvent e f = some s') :
    s' = s ∨ e < s.next ∧ ∃ ev, f (s.evs e) = .ok ev ∧ s' = s.setEv e ev := by
  unfold State.onEvent at h
  split at h
  · rename_i he
    split at h
    · exact Or.inl (Option.some.inj h).symm
    · rename_i ev hev
      exact Or.inr ⟨he, ev, hev, (Option.some.inj h).symm⟩
  · cases h

theorem user_effect {s s' : State} {m : Move} (h : s.user (m.clk 0) m.act = some s') : Effect s m s' := by
  cases hm : m.act with
  | addTime tm =>
    rw [hm] at h
    exact .add (.setTime tm) hm (Option.some.inj h).symm
  | addInterval interval =>
    rw [hm] at h
    exact .add (.setInterval interval) hm (Option.some.inj h).symm
  | addOnce interval =>
    rw [hm] at h
    exact .add (.setIntervalOnce interval) hm (Option.some.inj h).symm
  | arm e a =>
    rw [hm] at h
    dsimp only [State.user] at h
    rcases onEvent_cases h with rfl | ⟨he, ev, hev, hs⟩
    · exact .control (.refl s') rfl
    · cases hev
      exact .arm e a hm he hs
  | reset e =>
    rw [hm] at h
    dsimp only [State.user] at h
    rcases onEvent_cases h with rfl | ⟨he, ev, hev, hs⟩
    · exact .control (.refl s') rfl
    · exact .reset e ev hm he hev hs
  | restart e =>
    rw [hm] at h
    dsimp only [State.user] at h
    rcases onEvent_cases h with rfl | ⟨he, ev, hev, hs⟩
    · exact .control (.refl s') rfl
    · cases hr : (s.evs e).restart (m.clk 0) with
      | error msg => rw [hr] at hev; cases hev
      | ok r =>
        rw [hr] at hev
        cases hev
        exact .restart e r.1 r.2 hm he hr hs
  | interrupt =>
    rw [hm] at h
    cases h
    exact .control ⟨rfl, rfl, rfl, rfl⟩ rfl
  | call f =>
    rw [hm] at h
    cases h
    exact .control ⟨rfl, rfl, rfl, rfl⟩ rfl
  | leave =>
    rw [hm] at h
    exact leave_effect h
  | pollerRet cnt =>
    rw [hm] at h
    exact pollerRet_effect h
  | throw n =>
    rw [hm] at h
    dsimp only [State.user] at h
    split at h <;> cases h
    exact .throw n hm ⟨rfl, rfl, rfl, rfl⟩ rfl
  | tick =>
    rw [hm] at h
    cases h

/-- **One move.** -/
theorem step_effect {msec : Int} {s s' : State} {m : Move} (h : step msec s m = some s') :
    Effect s m s' := by
  unfold step at h
  split at h
  · rename_i hm
    unfold State.tick at h
    split at h
    · cases h
    · exact begin_effect h
    · exact fireStep_effect hm h
    · exact resume_effect h
  · split at h
    · exact user_effect h
    · cases h

end Lzmq.Loop
