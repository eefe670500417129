/-
  The event loop as a machine with a call stack.

  `zmq_loop:poll`, `sleep_ex`, `flush`, `start` and `event_list:fire` call user code (I/O callbacks
  inside `poller:poll`, time event callbacks inside `fire`, the function given to `start`), and user code
  may call them again.  So a state of the loop has a stack of frames, one for each of their calls that
  has not returned, with the local variables of the call.  `Ctl` says who is in control: user code, a
  function that is about to be called, a pass of `fire`, or a call that has returned to the frame below.

  A move is an action and the readings of the clocks it takes.  User code chooses the actions; `tick` is
  the next step of the loop's own code.  What `poller:poll` returns is part of the action `pollerRet`:
  between its call and its return the I/O callbacks run, as user code.  An error that user code catches
  `n` frames further down is the action `throw n`.

  `destroy` is left out: a run is the life of one loop.
-/
import Lzmq.Lib.Cursor
import Lzmq.Lib.Steps
import Lzmq.Loop.Timer
import Mathlib.Logic.Function.Basic

namespace Lzmq.Loop

open Lzmq.Cursor

/-! ## States -/

/-- A call that has not returned, with its local variables. -/
inductive Frame
  /-- `zmq_loop:poll`: `none` inside `poller:poll`, then what that returned. -/
  | poll (cnt : Option Nat)
  /-- `event_list:fire`: how many positions are behind it, and the event whose callback is running. -/
  | fire (i cnt : Nat) (ev : Option Nat)
  | sleepEx (interval : Int) (start c : Nat)
  /-- `zmq_loop:flush`, inside `poller:poll`. -/
  | flush (interval : Int) (start c : Nat)
  /-- `zmq_loop:start`: whether there is a function to call, and whether it is running. -/
  | start (ms : Int) (fn running : Bool)
deriving DecidableEq

/-- The frame has called user code. -/
def Frame.inUser : Frame → Bool
  | .poll cnt => cnt.isNone
  | .fire _ _ ev => ev.isSome
  | .sleepEx .. => false
  | .flush .. => true
  | .start _ _ running => running

/-- What user code may call. -/
inductive Call
  | poll (interval : Int)
  | sleepEx (interval : Int)
  | flush (interval : Option Int)
  | start (ms : Option Int)
deriving DecidableEq

/-- Who is in control. -/
inductive Ctl
  | user
  | call (f : Call)
  | fire
  | ret (cnt : Option Nat)
deriving DecidableEq

/-- What a run leaves behind: the timeouts given to `poller:poll` and the callbacks that were entered. -/
inductive Label
  | pollerPoll (timeout : Int)
  | enter (ev : Nat)
deriving DecidableEq

/-- A loop.  Events are numbered in the order of their creation; `events` is the event list. -/
structure State where
  evs : Nat → TimeEvent
  next : Nat
  events : List Nat
  interrupt : Bool
  isRunning : Option Bool
  stack : List Frame
  ctl : Ctl
  log : List Label

def init : State := ⟨fun _ => .init, 0, [], false, none, [], .user, []⟩

def entered (log : List Label) : List Nat :=
  log.filterMap fun
    | .enter e => some e
    | .pollerPoll _ => none

/-- The events whose callbacks are running, the innermost one first. -/
def running (stack : List Frame) : List Nat :=
  stack.filterMap fun
    | .fire _ _ ev => ev
    | _ => none

/-- User code is running: the main program, or the callback of the top frame. -/
def inUser : List Frame → Bool
  | [] => true
  | f :: _ => f.inUser

/-! ## Parts of the event list's functions -/

/-- `event_list:sleep_interval`, from the position `i` on. -/
def sleepIntervalFrom (evs : Nat → TimeEvent) (clk : Nat → Clock) : Nat → List Nat → Int → Except String Int
  | _, [], minInterval => .ok minInterval
  | i, e :: es, minInterval =>
    if (evs e).locked = false ∧ (evs e).started = true then
      match (evs e).sleepInterval (clk i) with
      | .error msg => .error msg
      | .ok int => sleepIntervalFrom evs clk (i + 1) es (if minInterval > int then int else minInterval)
    else sleepIntervalFrom evs clk (i + 1) es minInterval

/-- Neither locked nor started. -/
def TimeEvent.dead (ev : TimeEvent) : Bool := !ev.locked && !ev.started

/-- After the callback: `if ev:started() and ev:restart() then assert(ev:started()) else
    assert(not ev:started()) end`; an error when an assertion fails. -/
def TimeEvent.afterFire (ev : TimeEvent) (c : Clock) : Except String TimeEvent :=
  if ev.started then
    match ev.restart c with
    | .error msg => .error msg
    | .ok (ev, true) => if ev.started then .ok ev else .error "assertion failed!"
    | .ok (ev, false) => if ev.started then .error "assertion failed!" else .ok ev
  else .ok ev

/-! ## The loop -/

namespace State

variable (s : State)

def setEv (e : Nat) (ev : TimeEvent) : State := { s with evs := Function.update s.evs e ev }

/-- The call in the top frame returns to the frame below, `st`. -/
def ret (st : List Frame) (cnt : Option Nat) : State := { s with stack := st, ctl := .ret cnt }

/-- `zmq_loop:interrupt`, and its other name `stop` -/
def stop : State := { s with isRunning := some false, interrupt := true }

def interrupted : Bool := s.interrupt || s.isRunning == some false

/-! ## The event list -/

def sleepInterval (clk : Nat → Clock) (minInterval : Int) : Except String Int :=
  sleepIntervalFrom s.evs clk 0 s.events minInterval

/-- `event_list:purge` -/
def purge : List Nat := removeDown (fun e => (s.evs e).dead) s.events.length s.events

/-- `event_list:fire`: one round of its loop, up to the callback; after the last round it returns. -/
def fireStep (c : Clock) : Option State :=
  match s.stack with
  | .fire i cnt none :: st =>
    match s.events[i]? with
    | none => some ({ s with events := s.purge }.ret st (some cnt))
    | some e =>
      if (s.evs e).locked then some { s with stack := .fire (i + 1) cnt none :: st }
      else if (s.evs e).started then
        match (s.evs e).sleepInterval c with
        | .error _ => none
        | .ok int =>
          if int = 0 then
            some { s.setEv e (s.evs e).lock with
              stack := .fire i cnt (some e) :: st
              ctl := .user
              log := s.log ++ [.enter e] }
          else some { s with stack := .fire (i + 1) cnt none :: st }
      else some { s with events := s.events.eraseIdx i }
  | _ => none

/-! ## Calls of the loop's functions -/

/-- A function is called; its code up to the next call. -/
def begin (msec : Int) (clk : Nat → Clock) : Call → Option State
  | .poll interval =>
    if s.interrupted then some (s.ret s.stack none)
    else
      match s.sleepInterval clk interval with
      | .error _ => none
      | .ok interval =>
        some { s with
          stack := .poll none :: s.stack
          ctl := .user
          log := s.log ++ [.pollerPoll (interval * msec)] }
  | .sleepEx interval =>
    some { s with stack := .sleepEx interval (clk 0).mono 0 :: s.stack, ctl := .call (.poll interval) }
  | .flush interval =>
    if s.interrupted then some (s.ret s.stack none)
    else
      some { s with
        stack := .flush (interval.getD 0) (clk 0).mono 0 :: s.stack
        ctl := .user
        log := s.log ++ [.pollerPoll 0] }
  | .start ms =>
    -- without `ms` the function is replaced by an empty one
    some { s with
      stack := .start (ms.getD 60000) ms.isSome false :: s.stack
      ctl := .call (.sleepEx (ms.getD 60000)) }

/-- The end of a round of `zmq_loop:start`, after its function. -/
def startAgain (ms : Int) (fn : Bool) (st : List Frame) : State :=
  if s.interrupted then s.ret st none
  else { s with stack := .start ms fn false :: st, ctl := .call (.sleepEx ms) }

/-- A call has returned `cnt` to the top frame. -/
def resume (c : Clock) (cnt : Option Nat) : Option State :=
  match s.stack, cnt with
  | .poll (some n) :: st, some cnt => some (s.ret st (some (n + cnt)))
  | .sleepEx _ _ _ :: st, none => some (s.ret st none)
  | .sleepEx interval start total :: st, some cnt =>
    let rest := interval - u64Delta start c.mono
    if rest ≤ 0 then some (s.ret st (some (total + cnt)))
    else some { s with stack := .sleepEx interval start (total + cnt) :: st, ctl := .call (.poll rest) }
  | .start _ _ false :: st, none => some (s.ret st none)
  | .start ms fn false :: st, some _ =>
    if fn then some { s with stack := .start ms fn true :: st, ctl := .user }
    else some (s.startAgain ms fn st)
  | st, _ => if Loop.inUser st then some { s with ctl := .user } else none

/-- The next step of the loop's code. -/
def tick (msec : Int) (clk : Nat → Clock) : Option State :=
  match s.ctl with
  | .user => none
  | .call f => s.begin msec clk f
  | .fire => s.fireStep (clk 0)
  | .ret cnt => s.resume (clk 0) cnt

/-- `poller:poll` returns to `zmq_loop:poll` or `zmq_loop:flush`; nil is `none`. -/
def pollerRet (c : Clock) (cnt : Option Nat) : Option State :=
  match s.stack, cnt with
  | .poll none :: st, none => some (s.stop.ret st none)
  | .poll none :: st, some cnt =>
    if s.interrupted then some (s.ret st none)
    else some { s with stack := .fire 0 0 none :: .poll (some cnt) :: st, ctl := .fire }
  | .flush _ _ _ :: st, none => some (s.ret st none)
  | .flush interval start total :: st, some cnt =>
    let rest := interval - u64Delta start c.mono
    if cnt = 0 ∨ rest ≤ 0 then
      some (s.ret st (if s.interrupted then none else some (total + cnt)))
    else
      some { s with
        stack := .flush interval start (total + cnt) :: st
        log := s.log ++ [.pollerPoll 0] }
  | _, _ => none

/-- The callback of the top frame returns, to `event_list:fire` or to `zmq_loop:start`. -/
def leave (c : Clock) : Option State :=
  match s.stack with
  | .fire i cnt (some e) :: st =>
    match (s.evs e).unlock.afterFire c with
    | .error _ => none
    | .ok ev => some { s.setEv e ev with stack := .fire (i + 1) (cnt + 1) none :: st, ctl := .fire }
  | .start ms fn true :: st => some (s.startAgain ms fn st)
  | _ => none

/-! ## Calls on events -/

/-- `event_list:add` of a new event. -/
def add (ev : TimeEvent) : State :=
  { s.setEv s.next ev with next := s.next + 1, events := s.events ++ [s.next] }

def addTime (c : Clock) (tm : Nat) : State := s.add (TimeEvent.init.setTime c tm)

def addInterval (c : Clock) (interval : Int) : State := s.add (TimeEvent.init.setInterval c interval)

def addOnce (c : Clock) (interval : Int) : State := s.add (TimeEvent.init.setIntervalOnce c interval)

/-- A method of an event handle; when it raises an error the event is as before. -/
def onEvent (e : Nat) (f : TimeEvent → Except String TimeEvent) : Option State :=
  if e < s.next then
    match f (s.evs e) with
    | .error _ => some s
    | .ok ev => some (s.setEv e ev)
  else none

end State

/-! ## Moves -/

inductive Act
  | addTime (tm : Nat)
  | addInterval (interval : Int)
  | addOnce (interval : Int)
  | arm (e : Nat) (a : Arm)
  | reset (e : Nat)
  | restart (e : Nat)
  | interrupt
  | call (f : Call)
  | leave
  | pollerRet (cnt : Option Nat)
  | throw (n : Nat)
  | tick
deriving DecidableEq

/-- An action, and what the clocks show at its first reading, its second one, and so on. -/
structure Move where
  act : Act
  clk : Nat → Clock

/-- An action while both clocks show `t`. -/
def Act.when (act : Act) (t : Nat) : Move := ⟨act, fun _ => ⟨t, t⟩⟩

/-- User code acts. -/
def State.user (s : State) (c : Clock) : Act → Option State
  | .addTime tm => some (s.addTime c tm)
  | .addInterval interval => some (s.addInterval c interval)
  | .addOnce interval => some (s.addOnce c interval)
  | .arm e a => s.onEvent e fun ev => .ok (ev.arm c a)
  | .reset e => s.onEvent e TimeEvent.reset
  | .restart e => s.onEvent e fun ev => (ev.restart c).map Prod.fst
  | .interrupt => some s.stop
  | .call f => some { s with ctl := .call f }
  | .leave => s.leave c
  | .pollerRet cnt => s.pollerRet c cnt
  | .throw n =>
    if n ≤ s.stack.length ∧ inUser (s.stack.drop n) = true then some { s with stack := s.stack.drop n }
    else none
  | .tick => none

/-- One move; `msec` is `ZMQ_POLL_MSEC`. -/
def step (msec : Int) (s : State) (m : Move) : Option State :=
  if m.act = .tick then s.tick msec m.clk
  else if s.ctl = .user then s.user (m.clk 0) m.act
  else none

/-- `ZMQ_POLL_MSEC`, from the major version of the library if it reports one. -/
def zmqPollMsec : Option Nat → Int
  | none => 1000
  | some ver => if ver > 2 then 1 else 1000

end Lzmq.Loop
