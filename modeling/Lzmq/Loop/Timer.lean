/-
  Timers and time events.

  A timer (ztimer.c) is monotonic, with an interval, or absolute, with a point of UTC time.  Both kinds
  have a flag `STARTED` and a flag `SETTED`, and `rest` raises an error unless both are set.  A time
  event (impl/loop.lua) owns a timer and replaces it when it is armed with a value of the other kind;
  after its callback `restart` starts a repeating event again and stops every other one.

  All times are milliseconds; the 64-bit counters are far from their bounds.
-/
import Mathlib.Data.Int.Order.Basic

namespace Lzmq.Loop

/-! ## Clocks -/

/-- A reading of the two clocks: `GetMonotonicTime` and `GetUtcTime`. -/
structure Clock where
  mono : Nat
  utc : Nat
deriving DecidableEq

/-- Neither clock went backwards. -/
instance : LE Clock := ⟨fun c c' => c.mono ≤ c'.mono ∧ c.utc ≤ c'.utc⟩

/-- `U64Delta` -/
def u64Delta (s e : Int) : Int := if e > s then e - s else -(s - e)

theorem u64Delta_eq (s e : Int) : u64Delta s e = e - s := by
  unfold u64Delta
  split <;> omega

/-! ## Timers -/

inductive Kind
  | monotonic
  | absolute
deriving DecidableEq

/-- `zmonotonic_timer` and `zabsolute_timer`: `fire` is an interval in the one and a time point in the
    other. -/
structure Timer where
  kind : Kind
  start : Nat
  fire : Int
  started : Bool
  setted : Bool
deriving DecidableEq

/-- `ztimer.monotonic()`, `ztimer.absolute()` -/
def timerCreate (kind : Kind) : Timer := ⟨kind, 0, 0, false, false⟩

/-- The clock a timer reads. -/
def Clock.time (c : Clock) : Kind → Nat
  | .monotonic => c.mono
  | .absolute => c.utc

/-- `luazmq_montimer_start`, `luazmq_abstimer_start`; without a number the value of `fire` is kept. -/
def timerStart (t : Timer) (c : Clock) (fire : Option Int) : Timer :=
  let t := { t with start := c.time t.kind, started := true }
  match fire with
  | none => t
  | some fire => { t with fire := fire, setted := true }

/-- `luazmq_montimer_stop`, `luazmq_abstimer_stop` -/
def timerStop (t : Timer) : Except String Timer :=
  if t.started then .ok { t with started := false } else .error "LuaZMQ3: timer not started"

/-- `luazmq_montimer_rest` after its checks. -/
def montimerRest (t : Timer) (c : Clock) : Int :=
  let elapsed := u64Delta t.start c.mono
  if elapsed ≥ t.fire then 0 else t.fire - elapsed

/-- `luazmq_abstimer_rest` after its checks. -/
def abstimerRest (t : Timer) (c : Clock) : Int :=
  let rest := u64Delta c.utc t.fire
  if rest ≤ 0 then 0 else rest

/-- `timer:rest()`, of either kind. -/
def timerRest (t : Timer) (c : Clock) : Except String Int :=
  if t.started = false then .error "LuaZMQ3: timer not started"
  else if t.setted = false then .error "LuaZMQ3: timer not setted"
  else
    match t.kind with
    | .monotonic => .ok (montimerRest t c)
    | .absolute => .ok (abstimerRest t c)

theorem timerRest_nonneg {t : Timer} {c : Clock} {r : Int} (h : timerRest t c = .ok r) : 0 ≤ r := by
  unfold timerRest at h
  split at h
  · cases h
  · split at h
    · cases h
    · split at h <;> cases h
      · dsimp only [montimerRest]
        split <;> omega
      · dsimp only [abstimerRest]
        split <;> omega

/-- The remaining time does not grow while no clock goes backwards. -/
theorem timerRest_antitone {t : Timer} {c c' : Clock} (hc : c ≤ c') {r : Int} (h : timerRest t c = .ok r) :
    ∃ r', timerRest t c' = .ok r' ∧ r' ≤ r := by
  have hmono : c.mono ≤ c'.mono := hc.1
  have hutc : c.utc ≤ c'.utc := hc.2
  unfold timerRest at h ⊢
  split at h
  · cases h
  · rename_i hstarted
    split at h
    · cases h
    · rename_i hsetted
      rw [if_neg hstarted, if_neg hsetted]
      split at h <;> rw [Except.ok.injEq] at h <;> refine ⟨_, rfl, ?_⟩ <;> subst h
      · dsimp only [montimerRest]
        rw [u64Delta_eq, u64Delta_eq]
        split <;> split <;> omega
      · dsimp only [abstimerRest]
        rw [u64Delta_eq, u64Delta_eq]
        split <;> split <;> omega

/-- A timer that is due stays due. -/
theorem timerRest_due {t : Timer} {c c' : Clock} (hc : c ≤ c') (h : timerRest t c = .ok 0) :
    timerRest t c' = .ok 0 := by
  obtain ⟨r, hr, hle⟩ := timerRest_antitone hc h
  rw [hr, Int.le_antisymm hle (timerRest_nonneg hr)]

/-- `rest` has a value for a started timer only. -/
theorem started_of_timerRest {t : Timer} {c : Clock} {r : Int} (h : timerRest t c = .ok r) :
    t.started = true := by
  unfold timerRest at h
  split at h
  · cases h
  · rename_i hstarted
    rwa [Bool.not_eq_false] at hstarted

/-- `rest` of a timer that was started with a number does not raise. -/
theorem timerRest_isOk {t : Timer} (c : Clock) (hstarted : t.started = true) (hsetted : t.setted = true) :
    ∃ r, timerRest t c = .ok r := by
  unfold timerRest
  rw [if_neg (by rw [hstarted]; decide), if_neg (by rw [hsetted]; decide)]
  split
  · exact ⟨_, rfl⟩
  · exact ⟨_, rfl⟩

/-! ## Time events -/

/-- `time_event`; `once` is false when it is nil.  The callback is known by the event it belongs to. -/
structure TimeEvent where
  timer : Timer
  locked : Bool
  once : Bool
deriving DecidableEq

namespace TimeEvent

def init : TimeEvent := ⟨timerCreate .monotonic, false, false⟩

def setTime (ev : TimeEvent) (c : Clock) (tm : Nat) : TimeEvent :=
  let timer := if ev.timer.kind = .monotonic then timerCreate .absolute else ev.timer
  { ev with timer := timerStart timer c (some tm) }

def setInterval (ev : TimeEvent) (c : Clock) (interval : Int) : TimeEvent :=
  let timer := if ev.timer.kind = .absolute then timerCreate .monotonic else ev.timer
  { ev with timer := timerStart timer c (some interval), once := false }

def setIntervalOnce (ev : TimeEvent) (c : Clock) (interval : Int) : TimeEvent :=
  { ev.setInterval c interval with once := true }

def sleepInterval (ev : TimeEvent) (c : Clock) : Except String Int := timerRest ev.timer c

def started (ev : TimeEvent) : Bool := ev.timer.started

def reset (ev : TimeEvent) : Except String TimeEvent :=
  (timerStop ev.timer).map fun timer => { ev with timer := timer }

/-- `time_event:restart`: a one-shot event is stopped, any other is started again. -/
def restart (ev : TimeEvent) (c : Clock) : Except String (TimeEvent × Bool) :=
  let isOnce := ev.once || ev.timer.kind == .absolute
  if isOnce then
    if ev.timer.started then (timerStop ev.timer).map fun timer => ({ ev with timer := timer }, false)
    else .ok (ev, false)
  else .ok ({ ev with timer := timerStart ev.timer c none }, true)

def lock (ev : TimeEvent) : TimeEvent := { ev with locked := true }

def unlock (ev : TimeEvent) : TimeEvent := { ev with locked := false }

end TimeEvent

/-! ## Arming -/

/-- The three calls that arm an event. -/
inductive Arm
  | setTime (tm : Nat)
  | setInterval (interval : Int)
  | setIntervalOnce (interval : Int)
deriving DecidableEq

def TimeEvent.arm (ev : TimeEvent) (c : Clock) : Arm → TimeEvent
  | .setTime tm => ev.setTime c tm
  | .setInterval interval => ev.setInterval c interval
  | .setIntervalOnce interval => ev.setIntervalOnce c interval

/-- The event is started with the deadline or the interval of `a`. -/
def TimeEvent.ArmedWith (ev : TimeEvent) : Arm → Prop
  | .setTime tm => ev.started = true ∧ ev.timer.kind = .absolute ∧ ev.timer.fire = tm
  | .setInterval d =>
    ev.started = true ∧ ev.timer.kind = .monotonic ∧ ev.timer.fire = d ∧ ev.once = false
  | .setIntervalOnce d =>
    ev.started = true ∧ ev.timer.kind = .monotonic ∧ ev.timer.fire = d ∧ ev.once = true

/-- An event that `restart` stops. -/
def TimeEvent.OneShot (ev : TimeEvent) : Prop := ev.once = true ∨ ev.timer.kind = .absolute

namespace TimeEvent

theorem ArmedWith.started {ev : TimeEvent} {a : Arm} (h : ev.ArmedWith a) : ev.started = true := by
  cases a with
  | setTime tm => exact h.1
  | setInterval d => exact h.1
  | setIntervalOnce d => exact h.1

/-- A timer that was absolute is replaced by a monotonic one. -/
theorem kind_monotonic (t : Timer) :
    (if t.kind = .absolute then timerCreate .monotonic else t).kind = .monotonic := by
  cases hk : t.kind with
  | monotonic => exact hk
  | absolute => rfl

/-- Arming does what it says; the lock stays as it is. -/
theorem armedWith_arm (ev : TimeEvent) (c : Clock) (a : Arm) : (ev.arm c a).ArmedWith a := by
  cases a with
  | setTime tm =>
    refine ⟨rfl, ?_, rfl⟩
    show (if ev.timer.kind = .monotonic then timerCreate .absolute else ev.timer).kind = .absolute
    cases hk : ev.timer.kind with
    | monotonic => rfl
    | absolute => exact hk
  | setInterval d => exact ⟨rfl, kind_monotonic ev.timer, rfl, rfl⟩
  | setIntervalOnce d => exact ⟨rfl, kind_monotonic ev.timer, rfl, rfl⟩

@[simp] theorem locked_arm (ev : TimeEvent) (c : Clock) (a : Arm) : (ev.arm c a).locked = ev.locked := by
  cases a <;> rfl

@[simp] theorem setted_arm (ev : TimeEvent) (c : Clock) (a : Arm) : (ev.arm c a).timer.setted = true := by
  cases a <;> rfl

theorem reset_ok {ev ev' : TimeEvent} (h : ev.reset = .ok ev') :
    ev' = { ev with timer := { ev.timer with started := false } } := by
  unfold reset timerStop at h
  split at h
  · exact (Except.ok.inj h).symm
  · cases h

/-- `restart` never raises: it stops a one-shot event, and starts another one with the value it has. -/
theorem restart_eq (ev : TimeEvent) (c : Clock) :
    (ev.OneShot ∧ ev.restart c = .ok ({ ev with timer := { ev.timer with started := false } }, false)) ∨
    (¬ ev.OneShot ∧ ev.restart c = .ok ({ ev with timer := timerStart ev.timer c none }, true)) := by
  unfold restart OneShot
  by_cases honce : ev.once = true ∨ ev.timer.kind = .absolute
  · have hb : (ev.once || ev.timer.kind == .absolute) = true := by
      rcases honce with h | h <;> simp [h]
    refine Or.inl ⟨honce, ?_⟩
    dsimp only
    rw [hb, if_pos rfl]
    by_cases hs : ev.timer.started = true
    · rw [if_pos hs, timerStop, if_pos hs]
      rfl
    · rw [if_neg hs]
      rw [Bool.not_eq_true] at hs
      congr 2
      rw [← hs]
  · have hb : (ev.once || ev.timer.kind == .absolute) = false := by
      rw [not_or] at honce
      simp [honce.1, honce.2]
    refine Or.inr ⟨honce, ?_⟩
    dsimp only
    rw [hb, if_neg Bool.false_ne_true]

end TimeEvent

end Lzmq.Loop
