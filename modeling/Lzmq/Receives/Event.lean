/-
  `recv_event` of both bindings (`luazmq_skt_recv_event` of `zsocket.c`, `zmq_recv_event` of `lzmq/ffi/api.lua`),
  as built against libzmq 4.0 and later.

  A monitor event is a message of two parts: six bytes with the event and its value in the byte order of the
  machine, and the address.  Both bindings receive the two parts with two calls.  The C binding asserts that the
  first part is followed by another one, that it has six bytes and that the second part is the last, and an
  assertion that fails ends the process; the FFI binding checks the six bytes only and raises.

  Two questions are settled here for whole sequences of calls.  On the stream of a monitor every call returns the
  next event, or nothing and leaves the stream alone, as long as no second receive fails (`c_events_iff`,
  `ffi_events_iff`).  On any stream the two bindings do the same as long as the C binding does not end the process
  (`events_agree_iff`).
-/
import Lzmq.Lib.Bytes
import Lzmq.CSocket.Receive

namespace Lzmq.Receives

open Lzmq.Steps Lzmq.Bytes
open Lzmq.CSocket

/-! ## Events -/

/-- An event of a socket monitor: its bit, the value that goes with it, and the address. -/
structure Event where
  id : UInt16
  value : Int32
  addr : List UInt8
deriving DecidableEq, Repr

/-- `sizeof(event_id)`, `sizeof(event_value)` -/
def idSize : Nat := 2

@[inherit_doc idSize] def valueSize : Nat := 4

/-- The two parts in which libzmq sends an event. -/
def Event.parts (o : Order) (e : Event) : List Part :=
  [⟨o.write idSize e.id.toNat ++ o.write valueSize e.value.toUInt32.toNat, true⟩, ⟨e.addr, false⟩]

/-- What a monitor sends. -/
def stream (o : Order) (es : List Event) : List Part := es.flatMap (Event.parts o)

/-- The two `memcpy` out of the first part, and the bytes of the second. -/
def readEvent (o : Order) (data addr : List UInt8) : Event where
  id := UInt16.ofNat (o.read (data.take idSize))
  value := (UInt32.ofNat (o.read ((data.drop idSize).take valueSize))).toInt32
  addr := addr

/-- How a call of `recv_event` ends. -/
inductive EventReply
  | event (e : Event)
  | fail
  | raise
  /-- `assert` of C: the process ends. -/
  | abort
deriving DecidableEq, Repr

/-- `luazmq_skt_recv_event` -/
def luazmqSktRecvEvent (o : Order) (z : Zmq) : EventReply × Zmq :=
  match zmqMsgRecv z with
  | (none, z) => (.fail, z)
  | (some msg1, z) =>
    if !msg1.more then (.abort, z)
    else if msg1.data.length ≠ idSize + valueSize then (.abort, z)
    else
      match zmqMsgRecv z with
      | (none, z) => (.fail, z)
      | (some msg2, z) => if msg2.more then (.abort, z) else (.event (readEvent o msg1.data msg2.data), z)

/-- `api.zmq_recv_event`; `Socket:recv_event` returns what it returns, or the error. -/
def ffiRecvEvent (o : Order) (z : Zmq) : EventReply × Zmq :=
  match zmqMsgInit z with
  | (false, z) => (.fail, z)
  | (true, z) =>
    match zmqMsgRecv z with
    | (none, z) => (.fail, z)
    | (some msg1, z) =>
      if msg1.data.length ≠ idSize + valueSize then (.raise, z)
      else
        match zmqMsgRecv z with
        | (none, z) => (.fail, z)
        | (some msg2, z) => (.event (readEvent o msg1.data msg2.data), z)

/-! ## Reading an event -/

/-- **Round trip** of an event. -/
theorem readEvent_parts (o : Order) (e : Event) : readEvent o
    (o.write idSize e.id.toNat ++ o.write valueSize e.value.toUInt32.toNat) e.addr = e := by
  have hid : (o.write idSize e.id.toNat).length = idSize := length_write o _ _
  have hvalue : (o.write valueSize e.value.toUInt32.toNat).length = valueSize := length_write o _ _
  have hread := read_write o (w := idSize) (n := e.id.toNat) e.id.toNat_lt
  have hread' := read_write o (w := valueSize) (n := e.value.toUInt32.toNat) e.value.toUInt32.toNat_lt
  rw [readEvent, List.take_left' hid, List.drop_left' hid, List.take_of_length_le (Nat.le_of_eq hvalue), hread,
    hread', UInt16.ofNat_toNat, UInt32.ofNat_toNat, Int32.toInt32_toUInt32]

theorem stream_nil (o : Order) : stream o [] = [] := rfl

theorem stream_cons (o : Order) (e : Event) (es : List Event) :
    stream o (e :: es) = e.parts o ++ stream o es := List.flatMap_cons

/-! ## The stream of a monitor -/

/-- libzmq at the start of a call, with what becomes of the calls made of it. -/
def callWith (z : Zmq) (outcomes : List Bool) : Zmq := { z with outcomes := outcomes }

/-- A call of the C binding; a process that has ended makes no further one. -/
def cEventStep (o : Order) (z : Zmq) (outcomes : List Bool) : Option Zmq :=
  match luazmqSktRecvEvent o (callWith z outcomes) with
  | (.abort, _) => none
  | (_, z) => some z

/-- A call of the FFI binding. -/
def ffiEventStep (o : Order) (z : Zmq) (outcomes : List Bool) : Option Zmq :=
  some (ffiRecvEvent o (callWith z outcomes)).2

/-- The call returns the next event, or it fails and takes nothing. -/
def NextEvent (o : Order) (reply : EventReply) (z z' : Zmq) : Prop :=
  (∃ e es, z.incoming = stream o (e :: es) ∧ reply = .event e ∧ z'.incoming = stream o es) ∨
    (reply = .fail ∧ z'.incoming = z.incoming)

/-- There is an event to receive, and only the first of its parts is received. -/
def Halved (z : Zmq) (first second : Bool) : Prop := z.incoming ≠ [] ∧ first = true ∧ second = false

theorem cons_ne_stream_tail (o : Order) (e : Event) (es : List Event) :
    ⟨e.addr, false⟩ :: stream o es ≠ stream o (e :: es) := by
  intro h
  have hlen := congrArg List.length h
  rw [stream_cons, List.length_append, List.length_cons] at hlen
  have htwo : (e.parts o).length = 2 := rfl
  omega

/-- The receive of a part that is there. -/
theorem zmqMsgRecv_cons (p : Part) (ps : List Part) (rcvmore : Bool) (outcomes : List Bool) :
    zmqMsgRecv ⟨p :: ps, rcvmore, outcomes⟩ = if outcomes.getD 0 true then (some p, ⟨ps, p.more, outcomes.drop 1⟩)
      else (none, ⟨p :: ps, rcvmore, outcomes.drop 1⟩) := by
  rw [zmqMsgRecv, attempt_eq]
  cases outcomes.getD 0 true <;> rfl

theorem zmqMsgRecv_nil (rcvmore : Bool) (outcomes : List Bool) :
    zmqMsgRecv ⟨[], rcvmore, outcomes⟩ = (none, ⟨[], rcvmore, outcomes.drop 1⟩) := by
  rw [zmqMsgRecv, attempt_eq]
  cases outcomes.getD 0 true <;> rfl

section OneCall

variable (o : Order) (e : Event) (es : List Event) (rcvmore : Bool) (outcomes : List Bool)

/-- **One call** of the C binding on the stream of a monitor. -/
theorem luazmqSktRecvEvent_stream : luazmqSktRecvEvent o ⟨stream o (e :: es), rcvmore, outcomes⟩ =
    if outcomes.getD 0 true then
      if outcomes.getD 1 true then (.event e, ⟨stream o es, false, outcomes.drop 2⟩)
      else (.fail, ⟨⟨e.addr, false⟩ :: stream o es, true, outcomes.drop 2⟩)
    else (.fail, ⟨stream o (e :: es), rcvmore, outcomes.drop 1⟩) := by
  rw [luazmqSktRecvEvent, stream_cons, Event.parts, List.cons_append, List.cons_append, List.nil_append,
    zmqMsgRecv_cons]
  cases outcomes.getD 0 true with
  | false => rfl
  | true =>
    have hlen : (o.write idSize e.id.toNat ++ o.write valueSize e.value.toUInt32.toNat).length =
        idSize + valueSize := by rw [List.length_append, length_write, length_write]
    simp only [if_true, Bool.not_true, Bool.false_eq_true, if_false, hlen, ne_eq, not_true]
    rw [zmqMsgRecv_cons, getD_drop_one, List.drop_drop]
    cases outcomes.getD (0 + 1) true with
    | false => rfl
    | true =>
      simp only [if_true, Bool.false_eq_true, if_false]
      rw [readEvent_parts]

/-- **One call** of the FFI binding on the stream of a monitor. -/
theorem ffiRecvEvent_stream : ffiRecvEvent o ⟨stream o (e :: es), rcvmore, outcomes⟩ =
    if outcomes.getD 0 true then
      if outcomes.getD 1 true then
        if outcomes.getD 2 true then (.event e, ⟨stream o es, false, outcomes.drop 3⟩)
        else (.fail, ⟨⟨e.addr, false⟩ :: stream o es, true, outcomes.drop 3⟩)
      else (.fail, ⟨stream o (e :: es), rcvmore, outcomes.drop 2⟩)
    else (.fail, ⟨stream o (e :: es), rcvmore, outcomes.drop 1⟩) := by
  rw [ffiRecvEvent, zmqMsgInit, attempt_eq]
  cases outcomes.getD 0 true with
  | false => rfl
  | true =>
    simp only [if_true]
    rw [stream_cons, Event.parts, List.cons_append, List.cons_append, List.nil_append, zmqMsgRecv_cons,
      getD_drop_one, List.drop_drop]
    cases outcomes.getD (0 + 1) true with
    | false => rfl
    | true =>
      have hlen : (o.write idSize e.id.toNat ++ o.write valueSize e.value.toUInt32.toNat).length =
          idSize + valueSize := by rw [List.length_append, length_write, length_write]
      simp only [if_true, hlen, ne_eq, not_true, if_false]
      rw [zmqMsgRecv_cons, List.drop_drop, List.getD_eq_getElem?_getD, List.getElem?_drop,
        ← List.getD_eq_getElem?_getD]
      cases outcomes.getD (1 + 1 + 0) true with
      | false => rfl
      | true =>
        simp only [if_true]
        rw [readEvent_parts]

end OneCall

/-- A monitor that has sent nothing more. -/
theorem luazmqSktRecvEvent_nil (o : Order) (rcvmore : Bool) (outcomes : List Bool) :
    luazmqSktRecvEvent o ⟨[], rcvmore, outcomes⟩ = (.fail, ⟨[], rcvmore, outcomes.drop 1⟩) := by
  rw [luazmqSktRecvEvent, zmqMsgRecv_nil]

theorem ffiRecvEvent_nil (o : Order) (rcvmore : Bool) (outcomes : List Bool) :
    ∃ rest, ffiRecvEvent o ⟨[], rcvmore, outcomes⟩ = (.fail, ⟨[], rcvmore, rest⟩) := by
  rw [ffiRecvEvent, zmqMsgInit, attempt_eq]
  cases outcomes.getD 0 true with
  | false => exact ⟨_, rfl⟩
  | true =>
    refine ⟨(outcomes.drop 1).drop 1, ?_⟩
    simp only
    rw [zmqMsgRecv_nil]

/-- The events still to come. -/
def OnStream (o : Order) (z : Zmq) : Prop := ∃ es, z.incoming = stream o es

/-- A call that fails and leaves the second part of an event behind is not as it should be. -/
theorem not_nextEvent_halved {o : Order} {e : Event} {es : List Event} {z z' : Zmq}
    (hz : z.incoming = stream o (e :: es)) (hz' : z'.incoming = ⟨e.addr, false⟩ :: stream o es) :
    ¬ NextEvent o .fail z z' := by
  rintro (⟨_, _, _, hreply, _⟩ | ⟨_, hsame⟩)
  · cases hreply
  · exact cons_ne_stream_tail o e es (hz'.symm.trans (hsame.trans hz))

theorem cEventStep_iff (o : Order) (z : Zmq) (outcomes : List Bool) (h : OnStream o z) :
    (∃ z', cEventStep o z outcomes = some z' ∧ NextEvent o (luazmqSktRecvEvent o (callWith z outcomes)).1 z z') ↔
      ¬ Halved z (outcomes.getD 0 true) (outcomes.getD 1 true) := by
  obtain ⟨incoming, rcvmore, rest⟩ := z
  obtain ⟨es, hes⟩ := h
  obtain rfl : incoming = stream o es := hes
  rw [cEventStep, callWith, Halved]
  cases es with
  | nil =>
    simp only [stream_nil]
    rw [luazmqSktRecvEvent_nil]
    exact iff_of_true ⟨_, rfl, Or.inr ⟨rfl, rfl⟩⟩ fun hh => hh.1 rfl
  | cons e es =>
    simp only
    rw [luazmqSktRecvEvent_stream]
    cases h0 : outcomes.getD 0 true with
    | false => exact iff_of_true ⟨_, rfl, Or.inr ⟨rfl, rfl⟩⟩ fun hh => absurd hh.2.1 (by simp)
    | true =>
      cases h1 : outcomes.getD 1 true with
      | true => exact iff_of_true ⟨_, rfl, Or.inl ⟨e, es, rfl, rfl, rfl⟩⟩ fun hh => absurd hh.2.2 (by simp)
      | false =>
        refine iff_of_false ?_ fun hh => hh ⟨by rw [stream_cons]; exact List.cons_ne_nil _ _, rfl, rfl⟩
        rintro ⟨z', hz', hnext⟩
        obtain rfl := Option.some.inj hz'
        exact not_nextEvent_halved rfl rfl hnext

theorem ffiEventStep_iff (o : Order) (z : Zmq) (outcomes : List Bool) (h : OnStream o z) :
    (∃ z', ffiEventStep o z outcomes = some z' ∧ NextEvent o (ffiRecvEvent o (callWith z outcomes)).1 z z') ↔
      ¬ Halved z (outcomes.getD 0 true && outcomes.getD 1 true) (outcomes.getD 2 true) := by
  obtain ⟨incoming, rcvmore, rest⟩ := z
  obtain ⟨es, hes⟩ := h
  obtain rfl : incoming = stream o es := hes
  rw [ffiEventStep, callWith, Halved]
  cases es with
  | nil =>
    simp only [stream_nil]
    obtain ⟨rest', hnil⟩ := ffiRecvEvent_nil o rcvmore outcomes
    rw [hnil]
    exact iff_of_true ⟨_, rfl, Or.inr ⟨rfl, rfl⟩⟩ fun hh => hh.1 rfl
  | cons e es =>
    simp only
    rw [ffiRecvEvent_stream]
    cases h0 : outcomes.getD 0 true with
    | false => exact iff_of_true ⟨_, rfl, Or.inr ⟨rfl, rfl⟩⟩ fun hh => absurd hh.2.1 (by simp)
    | true =>
      cases h1 : outcomes.getD 1 true with
      | false => exact iff_of_true ⟨_, rfl, Or.inr ⟨rfl, rfl⟩⟩ fun hh => absurd hh.2.1 (by simp)
      | true =>
        cases h2 : outcomes.getD 2 true with
        | true => exact iff_of_true ⟨_, rfl, Or.inl ⟨e, es, rfl, rfl, rfl⟩⟩ fun hh => absurd hh.2.2 (by simp)
        | false =>
          refine iff_of_false ?_ fun hh => hh ⟨by rw [stream_cons]; exact List.cons_ne_nil _ _, rfl, rfl⟩
          rintro ⟨z', hz', hnext⟩
          obtain rfl := Option.some.inj hz'
          exact not_nextEvent_halved rfl rfl hnext

theorem NextEvent.onStream {o : Order} {reply : EventReply} {z z' : Zmq} (h : NextEvent o reply z z')
    (hz : OnStream o z) : OnStream o z' := by
  obtain ⟨_, es, _, _, hz'⟩ | ⟨_, hz'⟩ := h
  · exact ⟨es, hz'⟩
  · obtain ⟨es, hes⟩ := hz
    exact ⟨es, hz'.trans hes⟩

/-- **The C binding and the events of a monitor.**  Every call of a sequence returns the next event or fails without
    taking anything, and the process goes on, iff no call receives only the first part of an event. -/
theorem c_events_iff (o : Order) (es : List Event) (calls : List (List Bool)) :
    Keeps (cEventStep o) (fun z outcomes => NextEvent o (luazmqSktRecvEvent o (callWith z outcomes)).1 z)
      ⟨stream o es, false, []⟩ calls ↔
    Meets (cEventStep o) (fun z outcomes => ¬ Halved z (outcomes.getD 0 true) (outcomes.getD 1 true))
      ⟨stream o es, false, []⟩ calls :=
  keeps_iff_meets (cEventStep o) (OnStream o) (cEventStep_iff o)
    (fun _ _ _ hz _ hok => hok.onStream hz) calls _ ⟨es, rfl⟩

/-- **The FFI binding and the events of a monitor**, likewise. -/
theorem ffi_events_iff (o : Order) (es : List Event) (calls : List (List Bool)) :
    Keeps (ffiEventStep o) (fun z outcomes => NextEvent o (ffiRecvEvent o (callWith z outcomes)).1 z)
      ⟨stream o es, false, []⟩ calls ↔
    Meets (ffiEventStep o) (fun z outcomes =>
        ¬ Halved z (outcomes.getD 0 true && outcomes.getD 1 true) (outcomes.getD 2 true))
      ⟨stream o es, false, []⟩ calls :=
  keeps_iff_meets (ffiEventStep o) (OnStream o) (ffiEventStep_iff o)
    (fun _ _ _ hz _ hok => hok.onStream hz) calls _ ⟨es, rfl⟩

/-! ## Any stream -/

/-- A socket of each binding. -/
structure EventPair where
  c : Zmq
  ffi : Zmq
deriving DecidableEq, Repr

/-- A call of each, with the receives going the same way; there is no room for the message not to be made. -/
def eventPairStep (o : Order) (s : EventPair) (outcomes : List Bool) : Option EventPair :=
  (cEventStep o s.c outcomes).map fun c => ⟨c, (ffiRecvEvent o (callWith s.ffi (true :: outcomes))).2⟩

/-- The same event or failure, and the same parts left. -/
def EventsAgree (o : Order) (s : EventPair) (outcomes : List Bool) (s' : EventPair) : Prop :=
  (luazmqSktRecvEvent o (callWith s.c outcomes)).1 = (ffiRecvEvent o (callWith s.ffi (true :: outcomes))).1 ∧
    s'.c.incoming = s'.ffi.incoming

/-- What the C binding asserts of the parts that a call receives. -/
def Asserted (z : Zmq) (outcomes : List Bool) : Prop :=
  ∀ msg1 rest, z.incoming = msg1 :: rest → outcomes.getD 0 true = true →
    msg1.more = true ∧ msg1.data.length = idSize + valueSize ∧
      ∀ msg2 rest', rest = msg2 :: rest' → outcomes.getD 1 true = true → msg2.more = false

/-- A call of which the assertions hold. -/
theorem recvEvent_agrees (o : Order) (ps : List Part) (more more' : Bool) (outcomes : List Bool)
    (h : Asserted ⟨ps, more, outcomes⟩ outcomes) :
    (luazmqSktRecvEvent o ⟨ps, more, outcomes⟩).1 = (ffiRecvEvent o ⟨ps, more', true :: outcomes⟩).1 ∧
      (luazmqSktRecvEvent o ⟨ps, more, outcomes⟩).1 ≠ .abort ∧
      (luazmqSktRecvEvent o ⟨ps, more, outcomes⟩).2.incoming =
        (ffiRecvEvent o ⟨ps, more', true :: outcomes⟩).2.incoming := by
  rw [luazmqSktRecvEvent, ffiRecvEvent, zmqMsgInit, attempt_eq]
  simp only [List.getD_cons_zero, List.drop_one, List.tail_cons]
  cases ps with
  | nil =>
    rw [zmqMsgRecv_nil, zmqMsgRecv_nil]
    exact ⟨rfl, EventReply.noConfusion, rfl⟩
  | cons msg1 rest =>
    rw [zmqMsgRecv_cons, zmqMsgRecv_cons]
    cases h0 : outcomes.getD 0 true with
    | false => exact ⟨rfl, EventReply.noConfusion, rfl⟩
    | true =>
      obtain ⟨hmore, hlen, hlast⟩ := h msg1 rest rfl h0
      simp only [if_true, hmore, Bool.not_true, Bool.false_eq_true, if_false, hlen, ne_eq, not_true]
      cases rest with
      | nil =>
        rw [zmqMsgRecv_nil]
        exact ⟨rfl, EventReply.noConfusion, rfl⟩
      | cons msg2 rest' =>
        rw [zmqMsgRecv_cons, getD_drop_one]
        cases h1 : outcomes.getD (0 + 1) true with
        | false => exact ⟨rfl, EventReply.noConfusion, rfl⟩
        | true =>
          simp only [if_true, hlast msg2 rest' rfl h1, Bool.false_eq_true, if_false]
          exact ⟨trivial, EventReply.noConfusion, trivial⟩

/-- **The process ends** when an assertion fails, and only then. -/
theorem luazmqSktRecvEvent_abort_iff (o : Order) (z : Zmq) (outcomes : List Bool) :
    (luazmqSktRecvEvent o (callWith z outcomes)).1 = .abort ↔ ¬ Asserted z outcomes := by
  obtain ⟨ps, more, rest⟩ := z
  constructor
  · intro habort hok
    exact (recvEvent_agrees o ps more more outcomes hok).2.1 habort
  · intro hbad
    rw [Asserted] at hbad
    simp only [not_forall] at hbad
    obtain ⟨msg1, rest, hps, h0, hbad⟩ := hbad
    subst hps
    rw [luazmqSktRecvEvent, callWith]
    simp only
    rw [zmqMsgRecv_cons, if_pos h0]
    simp only
    cases hmore : msg1.more with
    | false => rfl
    | true =>
      by_cases hlen : msg1.data.length = idSize + valueSize
      · rw [not_and, not_and] at hbad
        have hlast := hbad hmore hlen
        simp only [not_forall] at hlast
        obtain ⟨msg2, rest', hrest, h1, hmsg2⟩ := hlast
        subst hrest
        simp only [Bool.not_true, Bool.false_eq_true, if_false, hlen, ne_eq, not_true]
        rw [zmqMsgRecv_cons, getD_drop_one, if_pos h1]
        simp only [Bool.not_eq_false] at hmsg2
        simp only [hmsg2, if_true]
      · simp only [Bool.not_true, Bool.false_eq_true, if_false, ne_eq, hlen, not_false_eq_true, if_true]

theorem eventPairStep_iff (o : Order) (s : EventPair) (outcomes : List Bool) (h : s.c.incoming = s.ffi.incoming) :
    (∃ s', eventPairStep o s outcomes = some s' ∧ EventsAgree o s outcomes s') ↔ Asserted s.c outcomes := by
  constructor
  · rintro ⟨s', hs', -⟩
    by_contra hbad
    have habort := (luazmqSktRecvEvent_abort_iff o s.c outcomes).mpr hbad
    rw [eventPairStep, cEventStep] at hs'
    generalize luazmqSktRecvEvent o (callWith s.c outcomes) = r at hs' habort
    obtain ⟨reply, z⟩ := r
    subst habort
    cases hs'
  · intro hok
    obtain ⟨hreply, habort, hsame⟩ := recvEvent_agrees o s.c.incoming s.c.rcvmore s.ffi.rcvmore outcomes hok
    have hffi : callWith s.ffi (true :: outcomes) = ⟨s.c.incoming, s.ffi.rcvmore, true :: outcomes⟩ := by
      rw [callWith, h]
    rw [← hffi] at hreply hsame
    have hc : cEventStep o s.c outcomes = some (luazmqSktRecvEvent o (callWith s.c outcomes)).2 := by
      rw [cEventStep]
      replace habort : (luazmqSktRecvEvent o (callWith s.c outcomes)).1 ≠ .abort := habort
      generalize luazmqSktRecvEvent o (callWith s.c outcomes) = r at habort
      obtain ⟨reply, z⟩ := r
      cases reply with
      | abort => exact absurd rfl habort
      | event e => rfl
      | fail => rfl
      | raise => rfl
    exact ⟨_, by rw [eventPairStep, hc, Option.map_some], hreply, hsame⟩

/-- **`recv_event` in both bindings.**  On any stream of parts the two bindings return the same event or failure at
    every call, and leave the same parts, iff what the C binding asserts holds at every call; otherwise its process
    ends. -/
theorem events_agree_iff (o : Order) (incoming : List Part) (calls : List (List Bool)) :
    Keeps (eventPairStep o) (EventsAgree o) ⟨⟨incoming, false, []⟩, ⟨incoming, false, []⟩⟩ calls ↔
      Meets (eventPairStep o) (fun s => Asserted s.c) ⟨⟨incoming, false, []⟩, ⟨incoming, false, []⟩⟩ calls :=
  keeps_iff_meets (eventPairStep o) (fun s => s.c.incoming = s.ffi.incoming) (eventPairStep_iff o)
    (fun _ _ _ _ _ hok => hok.2) calls _ rfl

end Lzmq.Receives
