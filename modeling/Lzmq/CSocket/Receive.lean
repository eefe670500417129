/-
  The receive methods of the C binding (`zsocket.c`, `zmsg.c`) and the cached more flag.

  A socket object caches the more flag of the last part received in a bit of its `flags`, and `skt:more`
  reads that bit.  `recv`, `recv_len`, `recv_msg` and `recv_new_msg` store it after each part;
  `msg:recv(skt)`, `recv_all` and `recvx` receive parts and leave the bit alone, and `recv_len` leaves it
  alone when the query for ZMQ_RCVMORE fails after the part has been received.

  libzmq is the record `Zmq`: the parts still to arrive, the more flag of the last part it delivered
  (what ZMQ_RCVMORE reports) and an oracle saying which of the calls to come fail.  A failed receive
  consumes nothing.  `moreOk_iff_meets` is the exact condition under which the cached flag is right after
  every operation of a sequence.
-/
import Lzmq.Lib.Steps
import Mathlib.Data.List.Basic

namespace Lzmq.CSocket

open Lzmq.Steps

/-! ## libzmq -/

/-- A message part. -/
structure Part where
  data : List UInt8
  more : Bool
deriving DecidableEq, Repr

/-- libzmq's side of a socket. -/
structure Zmq where
  incoming : List Part
  rcvmore : Bool
  /-- Whether the next calls succeed; beyond the list they do. -/
  outcomes : List Bool
deriving DecidableEq, Repr

/-- One call that may fail. -/
def Zmq.attempt (z : Zmq) : Bool × Zmq :=
  match z.outcomes with
  | [] => (true, z)
  | ok :: outcomes => (ok, { z with outcomes := outcomes })

/-- `zmq_msg_init` -/
def zmqMsgInit (z : Zmq) : Bool × Zmq := z.attempt

/-- `zmq_msg_recv`: the part received, or -1. -/
def zmqMsgRecv (z : Zmq) : Option Part × Zmq :=
  match z.attempt with
  | (false, z) => (none, z)
  | (true, z) =>
    match z.incoming with
    | [] => (none, z)
    | p :: ps => (some p, { z with incoming := ps, rcvmore := p.more })

/-- `zmq_getsockopt(skt, ZMQ_RCVMORE, ..)` -/
def zmqGetRcvmore (z : Zmq) : Option Bool × Zmq :=
  match z.attempt with
  | (false, z) => (none, z)
  | (true, z) => (some z.rcvmore, z)

/-! ## Socket objects -/

/-- `LUAZMQ_FLAG_DONT_DESTROY`, `LUAZMQ_FLAG_MORE` -/
def flagDontDestroy : UInt8 := (0x01 : UInt8) <<< 2

@[inherit_doc flagDontDestroy] def flagMore : UInt8 := (0x01 : UInt8) <<< 3

/-- `zsocket`, with the part of libzmq behind it. -/
structure ZSocket where
  flags : UInt8
  zmq : Zmq
deriving DecidableEq, Repr

/-- A new socket object; one that wraps a foreign handle does not destroy it. -/
def newSocket (own : Bool) (incoming : List Part) (outcomes : List Bool) : ZSocket where
  flags := if own then 0 else flagDontDestroy
  zmq := ⟨incoming, false, outcomes⟩

/-- `luazmq_skt_more` -/
def ZSocket.more (skt : ZSocket) : Bool := skt.flags &&& flagMore != 0

/-- `if(more) skt->flags |= LUAZMQ_FLAG_MORE; else skt->flags &= ~LUAZMQ_FLAG_MORE;` -/
def ZSocket.setMore (skt : ZSocket) (more : Bool) : ZSocket :=
  { skt with flags := if more then skt.flags ||| flagMore else skt.flags &&& ~~~flagMore }

/-- Values pushed on the Lua stack. -/
inductive LuaVal
  | nil
  | err
  | bool (b : Bool)
  | int (n : Nat)
  | str (data : List UInt8)
  | table (elems : List (List UInt8))
  | msg (data : List UInt8)
  | skt
deriving DecidableEq, Repr

/-- A method returns values or raises an error. -/
inductive Reply
  | ret (vals : List LuaVal)
  | raise
deriving DecidableEq, Repr

/-- `luazmq_fail` -/
def luazmqFail : List LuaVal := [.nil, .err]

/-! ## The receive methods -/

/-- `luazmq_skt_recv` -/
def luazmqSktRecv (skt : ZSocket) : Reply × ZSocket :=
  match zmqMsgInit skt.zmq with
  | (false, z) => (.ret luazmqFail, { skt with zmq := z })
  | (true, z) =>
    match zmqMsgRecv z with
    | (none, z) => (.ret luazmqFail, { skt with zmq := z })
    | (some p, z) => (.ret [.str p.data, .bool p.more], ZSocket.setMore { skt with zmq := z } p.more)

/-- `luazmq_skt_recv_len`; the buffer may be too large to allocate. -/
def luazmqSktRecvLen (skt : ZSocket) (len : Nat) : Reply × ZSocket :=
  match skt.zmq.attempt with
  | (false, z) => (.raise, { skt with zmq := z })
  | (true, z) =>
    match zmqMsgRecv z with
    | (none, z) => (.ret luazmqFail, { skt with zmq := z })
    | (some p, z) =>
      match zmqGetRcvmore z with
      | (none, z) => (.ret luazmqFail, { skt with zmq := z })
      | (some more, z) =>
        (.ret [.str (p.data.take len), .bool more, .int p.data.length],
          ZSocket.setMore { skt with zmq := z } more)

/-- `luazmq_skt_recv_msg` -/
def luazmqSktRecvMsg (skt : ZSocket) : Reply × ZSocket :=
  match zmqMsgRecv skt.zmq with
  | (none, z) => (.ret luazmqFail, { skt with zmq := z })
  | (some p, z) => (.ret [.msg p.data, .bool p.more], ZSocket.setMore { skt with zmq := z } p.more)

/-- `luazmq_skt_recv_new_msg`, called with a message object or without. -/
def luazmqSktRecvNewMsg (skt : ZSocket) (given : Bool) : Reply × ZSocket :=
  if given then luazmqSktRecvMsg skt
  else
    match zmqMsgInit skt.zmq with
    | (false, z) => (.ret luazmqFail, { skt with zmq := z })
    | (true, z) => luazmqSktRecvMsg { skt with zmq := z }

/-- `luazmq_msg_recv` -/
def luazmqMsgRecv (skt : ZSocket) : Reply × ZSocket :=
  match zmqMsgRecv skt.zmq with
  | (none, z) => (.ret luazmqFail, { skt with zmq := z })
  | (some p, z) => (.ret [.msg p.data, .bool p.more], { skt with zmq := z })

theorem incoming_attempt (z : Zmq) : z.attempt.2.incoming = z.incoming := by
  rw [Zmq.attempt]
  split <;> rfl

theorem incoming_zmqMsgRecv {z z' : Zmq} {p : Part} (h : zmqMsgRecv z = (some p, z')) :
    z.incoming = p :: z'.incoming := by
  rw [zmqMsgRecv] at h
  have hatt := incoming_attempt z
  generalize z.attempt = r at h hatt
  obtain ⟨ok, z₁⟩ := r
  cases ok with
  | false => cases h
  | true =>
    simp only at h hatt
    rw [← hatt]
    cases hin : z₁.incoming with
    | nil => rw [hin] at h; cases h
    | cons q qs => rw [hin] at h; cases h; rfl

/-- The loop of `recv_all` and `recvx`: the parts of one message, and whether all of them came. -/
def recvParts (z : Zmq) (got : List (List UInt8)) : Bool × List (List UInt8) × Zmq :=
  match _hinit : zmqMsgInit z with
  | (false, z) => (false, got, z)
  | (true, z₁) =>
    match _hrecv : zmqMsgRecv z₁ with
    | (none, z₂) => (false, got, z₂)
    | (some p, z₂) =>
      if p.more then recvParts z₂ (got ++ [p.data]) else (true, got ++ [p.data], z₂)
termination_by z.incoming.length
decreasing_by
  have h := incoming_attempt z
  rw [show z.attempt = (true, z₁) from _hinit, incoming_zmqMsgRecv _hrecv] at h
  rw [← h, List.length_cons]
  omega

/-- `luazmq_skt_recv_all` -/
def luazmqSktRecvAll (skt : ZSocket) : Reply × ZSocket :=
  match recvParts skt.zmq [] with
  | (true, got, z) => (.ret [.table got], { skt with zmq := z })
  | (false, got, z) => (.ret (luazmqFail ++ [.table got]), { skt with zmq := z })

/-- `lua_insert(L, 1)` -/
def luaInsert1 (stack : List LuaVal) : List LuaVal := stack.getLast?.toList ++ stack.dropLast

/-- `luazmq_skt_recvx`: on failure `lua_insert(L, 1)` runs once more than there are values of
    `luazmq_fail`, and the top `2 + i` values are returned. -/
def luazmqSktRecvx (skt : ZSocket) : Reply × ZSocket :=
  match recvParts skt.zmq [] with
  | (true, got, z) => (.ret (got.map .str), { skt with zmq := z })
  | (false, got, z) =>
    let stack := luaInsert1 (luaInsert1 (luaInsert1 ([.skt] ++ got.map .str ++ luazmqFail)))
    (.ret (stack.drop (stack.length - (luazmqFail.length + got.length))), { skt with zmq := z })

example : luaInsert1 [.int 1, .int 2, .int 3] = [.int 3, .int 1, .int 2] := by decide

/-! ## Operations -/

/-- The receive operations on one socket. -/
inductive Op
  | recv
  | recvLen (len : Nat)
  | recvMsg
  | recvNewMsg (given : Bool)
  | msgRecv
  | recvAll
  | recvx
deriving DecidableEq, Repr

def Op.run (skt : ZSocket) : Op → Reply × ZSocket
  | .recv => luazmqSktRecv skt
  | .recvLen len => luazmqSktRecvLen skt len
  | .recvMsg => luazmqSktRecvMsg skt
  | .recvNewMsg given => luazmqSktRecvNewMsg skt given
  | .msgRecv => luazmqMsgRecv skt
  | .recvAll => luazmqSktRecvAll skt
  | .recvx => luazmqSktRecvx skt

def opStep (skt : ZSocket) (op : Op) : Option ZSocket := some (op.run skt).2

/-- The cached flag is the one ZMQ_RCVMORE would report. -/
def MoreOk (skt : ZSocket) : Prop := skt.more = skt.zmq.rcvmore

/-! ## The condition -/

/-- The parts that a loop of `zmq_msg_init` and `zmq_msg_recv` receives: up to the first call that fails,
    or the end of the message. -/
def partsTo : List Part → List Bool → List Part
  | [], _ => []
  | p :: ps, outcomes =>
    if outcomes.getD 0 true = true ∧ outcomes.getD 1 true = true then
      p :: if p.more then partsTo ps (outcomes.drop 2) else []
    else []

/-- The part that one `zmq_msg_recv` receives. -/
def nextPart (z : Zmq) : Option Part := if z.outcomes.getD 0 true then z.incoming.head? else none

/-- The condition on an operation: if it does not store the flag of the last part it receives, that flag
    is the one already cached. -/
def OpOk (skt : ZSocket) : Op → Prop
  | .recv => True
  | .recvMsg => True
  | .recvNewMsg _ => True
  | .recvLen _ =>
    -- the allocation and the receive succeed, the query for ZMQ_RCVMORE does not
    ∀ p, skt.zmq.incoming.head? = some p → skt.zmq.outcomes.getD 0 true = true →
      skt.zmq.outcomes.getD 1 true = true → skt.zmq.outcomes.getD 2 true = false → p.more = skt.more
  | .msgRecv => ∀ p, nextPart skt.zmq = some p → p.more = skt.more
  | .recvAll => ∀ p, (partsTo skt.zmq.incoming skt.zmq.outcomes).getLast? = some p → p.more = skt.more
  | .recvx => ∀ p, (partsTo skt.zmq.incoming skt.zmq.outcomes).getLast? = some p → p.more = skt.more

/-! ## What the calls do -/

theorem attempt_eq (z : Zmq) :
    z.attempt = (z.outcomes.getD 0 true, { z with outcomes := z.outcomes.drop 1 }) := by
  obtain ⟨incoming, rcvmore, outcomes⟩ := z
  cases outcomes with
  | nil => rfl
  | cons ok outcomes => rfl

theorem zmqMsgRecv_none {z : Zmq} (h : nextPart z = none) :
    zmqMsgRecv z = (none, { z with outcomes := z.outcomes.drop 1 }) := by
  rw [zmqMsgRecv, attempt_eq]
  rw [nextPart] at h
  cases hok : z.outcomes.getD 0 true with
  | false => rfl
  | true =>
    rw [if_pos hok, List.head?_eq_none_iff] at h
    simp only
    rw [h]

theorem zmqMsgRecv_some {z : Zmq} {p : Part} (h : nextPart z = some p) :
    zmqMsgRecv z = (some p, ⟨z.incoming.tail, p.more, z.outcomes.drop 1⟩) := by
  rw [zmqMsgRecv, attempt_eq]
  rw [nextPart] at h
  cases hok : z.outcomes.getD 0 true with
  | false => rw [hok] at h; cases h
  | true =>
    rw [if_pos hok] at h
    simp only
    cases hin : z.incoming with
    | nil => rw [hin] at h; cases h
    | cons q qs => rw [hin] at h; cases h; rfl

theorem getD_drop_one (l : List Bool) (i : Nat) : (l.drop 1).getD i true = l.getD (i + 1) true := by
  cases l with
  | nil => rfl
  | cons b l => rfl

@[simp] theorem more_setMore (skt : ZSocket) (more : Bool) : (skt.setMore more).more = more := by
  have hset : ∀ f : UInt8, (f ||| flagMore) &&& flagMore = flagMore := by
    intro f
    refine UInt8.toBitVec_inj.mp ?_
    rw [UInt8.toBitVec_and, UInt8.toBitVec_or]
    ext i hi
    rw [BitVec.getElem_and, BitVec.getElem_or]
    cases f.toBitVec[i] <;> simp
  have hclear : ∀ f : UInt8, (f &&& ~~~flagMore) &&& flagMore = 0 := by
    intro f
    rw [UInt8.and_assoc, UInt8.not_and_self, UInt8.and_zero]
  rw [ZSocket.more, ZSocket.setMore]
  cases more with
  | true =>
    simp only [if_true]
    rw [hset]
    decide
  | false =>
    simp only [Bool.false_eq_true, if_false]
    rw [hclear]
    decide

@[simp] theorem zmq_setMore (skt : ZSocket) (more : Bool) : (skt.setMore more).zmq = skt.zmq := rfl

/-- A call of the loop that fails. -/
theorem recvParts_stop {z : Zmq} (got : List (List UInt8)) (h : z.outcomes.getD 0 true = false ∨
    nextPart { z with outcomes := z.outcomes.drop 1 } = none) :
    ∃ outcomes, recvParts z got = (false, got, { z with outcomes := outcomes }) := by
  rw [recvParts]
  split
  case h_1 z₁ hinit =>
    rw [zmqMsgInit, attempt_eq, Prod.mk.injEq] at hinit
    exact ⟨_, by rw [← hinit.2]⟩
  case h_2 z₁ hinit =>
    rw [zmqMsgInit, attempt_eq, Prod.mk.injEq] at hinit
    obtain ⟨hok, rfl⟩ := hinit
    have hnone := h.resolve_left (by rw [hok]; simp)
    split
    case h_1 z₂ hrecv =>
      rw [zmqMsgRecv_none hnone, Prod.mk.injEq] at hrecv
      exact ⟨_, by rw [← hrecv.2]⟩
    case h_2 p z₂ hrecv =>
      rw [zmqMsgRecv_none hnone, Prod.mk.injEq] at hrecv
      cases hrecv.1

/-- A call of the loop in which libzmq fails. -/
theorem recvParts_fails {z : Zmq} (got : List (List UInt8))
    (hok : ¬ (z.outcomes.getD 0 true = true ∧ z.outcomes.getD 1 true = true)) :
    ∃ outcomes, recvParts z got = (false, got, { z with outcomes := outcomes }) := by
  refine recvParts_stop got ?_
  by_cases h0 : z.outcomes.getD 0 true = true
  · apply Or.inr
    have h1 : ¬ z.outcomes.getD 1 true = true := fun h1 => hok ⟨h0, h1⟩
    rw [nextPart, getD_drop_one, if_neg h1]
  · exact Or.inl (by simpa using h0)

/-- A round of the loop that receives a part. -/
theorem recvParts_part {z : Zmq} (got : List (List UInt8)) {p : Part} (hok : z.outcomes.getD 0 true = true)
    (h : nextPart { z with outcomes := z.outcomes.drop 1 } = some p) :
    recvParts z got = if p.more then recvParts ⟨z.incoming.tail, p.more, z.outcomes.drop 2⟩ (got ++ [p.data])
      else (true, got ++ [p.data], ⟨z.incoming.tail, p.more, z.outcomes.drop 2⟩) := by
  rw [recvParts]
  split
  case h_1 z₁ hinit =>
    rw [zmqMsgInit, attempt_eq, Prod.mk.injEq, hok] at hinit
    cases hinit.1
  case h_2 z₁ hinit =>
    rw [zmqMsgInit, attempt_eq, Prod.mk.injEq] at hinit
    obtain ⟨-, rfl⟩ := hinit
    split
    case h_1 z₂ hrecv =>
      rw [zmqMsgRecv_some h, Prod.mk.injEq] at hrecv
      cases hrecv.1
    case h_2 q z₂ hrecv =>
      rw [zmqMsgRecv_some h, Prod.mk.injEq] at hrecv
      obtain ⟨hq, rfl⟩ := hrecv
      cases hq
      rw [List.drop_drop]

/-- The more flag libzmq reports after a loop is that of the last part the loop received. -/
theorem recvParts_rcvmore : ∀ (ps : List Part) (z : Zmq) (got : List (List UInt8)), z.incoming = ps →
    (recvParts z got).2.2.rcvmore = (((partsTo ps z.outcomes).getLast?).map Part.more).getD z.rcvmore := by
  intro ps
  induction ps with
  | nil =>
    intro z got hz
    obtain ⟨outcomes, h⟩ := recvParts_stop (z := z) got (Or.inr (by
      rw [nextPart, hz]
      split <;> rfl))
    rw [h]
    rfl
  | cons p ps ih =>
    intro z got hz
    rw [partsTo]
    by_cases hok : z.outcomes.getD 0 true = true ∧ z.outcomes.getD 1 true = true
    · have hnext : nextPart { z with outcomes := z.outcomes.drop 1 } = some p := by
        rw [nextPart, hz, getD_drop_one, if_pos hok.2]
        rfl
      rw [if_pos hok, recvParts_part got hok.1 hnext, hz, List.tail_cons]
      cases hmore : p.more with
      | false =>
        simp only [Bool.false_eq_true, if_false, List.getLast?_singleton, Option.map_some,
          Option.getD_some, hmore]
      | true =>
        simp only [if_true]
        rw [ih _ _ rfl]
        cases hlast : (partsTo ps (z.outcomes.drop 2)).getLast? with
        | none =>
          rw [List.getLast?_eq_none_iff] at hlast
          rw [hlast, List.getLast?_singleton, Option.map_some, hmore]
          rfl
        | some q => rw [List.getLast?_cons, hlast]; rfl
    · rw [if_neg hok]
      obtain ⟨outcomes, h⟩ := recvParts_fails got hok
      rw [h]
      rfl

/-- What an operation leaves of the cached flag. -/
theorem flags_recvAll (skt : ZSocket) : (luazmqSktRecvAll skt).2.flags = skt.flags ∧
    (luazmqSktRecvAll skt).2.zmq = (recvParts skt.zmq []).2.2 := by
  rw [luazmqSktRecvAll]
  generalize recvParts skt.zmq [] = r
  obtain ⟨ok, got, z⟩ := r
  cases ok <;> exact ⟨rfl, rfl⟩

theorem flags_recvx (skt : ZSocket) : (luazmqSktRecvx skt).2.flags = skt.flags ∧
    (luazmqSktRecvx skt).2.zmq = (recvParts skt.zmq []).2.2 := by
  rw [luazmqSktRecvx]
  generalize recvParts skt.zmq [] = r
  obtain ⟨ok, got, z⟩ := r
  cases ok <;> exact ⟨rfl, rfl⟩

/-! ## One operation -/

theorem moreOk_setMore {skt : ZSocket} {more : Bool} (h : skt.zmq.rcvmore = more) :
    MoreOk (skt.setMore more) := by
  rw [MoreOk, more_setMore, zmq_setMore, h]

/-- An operation that leaves the cached flag alone, after which libzmq's flag is that of `last`. -/
theorem moreOk_unchanged {skt skt' : ZSocket} (last : Option Part) (hskt : MoreOk skt)
    (hflags : skt'.flags = skt.flags)
    (hzmq : skt'.zmq.rcvmore = (last.map Part.more).getD skt.zmq.rcvmore) :
    MoreOk skt' ↔ ∀ p, last = some p → p.more = skt.more := by
  rw [MoreOk] at hskt
  rw [MoreOk, hzmq, show skt'.more = skt.more from by rw [ZSocket.more, hflags]; rfl]
  cases last with
  | none => simp [hskt]
  | some p => simp [eq_comm]

theorem moreOk_recvMsg {skt : ZSocket} (h : MoreOk skt) : MoreOk (luazmqSktRecvMsg skt).2 := by
  rw [luazmqSktRecvMsg]
  cases hnext : nextPart skt.zmq with
  | none => rw [zmqMsgRecv_none hnext]; exact h
  | some p => rw [zmqMsgRecv_some hnext]; exact moreOk_setMore rfl

theorem moreOk_recv {skt : ZSocket} (h : MoreOk skt) : MoreOk (luazmqSktRecv skt).2 := by
  rw [luazmqSktRecv, zmqMsgInit, attempt_eq]
  cases skt.zmq.outcomes.getD 0 true with
  | false => exact h
  | true =>
    simp only
    cases hnext : nextPart { skt.zmq with outcomes := skt.zmq.outcomes.drop 1 } with
    | none => rw [zmqMsgRecv_none hnext]; exact h
    | some p => rw [zmqMsgRecv_some hnext]; exact moreOk_setMore rfl

theorem moreOk_recvNewMsg {skt : ZSocket} (h : MoreOk skt) (given : Bool) :
    MoreOk (luazmqSktRecvNewMsg skt given).2 := by
  rw [luazmqSktRecvNewMsg]
  cases given with
  | true => exact moreOk_recvMsg h
  | false =>
    rw [zmqMsgInit, attempt_eq]
    cases skt.zmq.outcomes.getD 0 true with
    | false => exact h
    | true => exact moreOk_recvMsg h

theorem moreOk_msgRecv {skt : ZSocket} (h : MoreOk skt) :
    MoreOk (luazmqMsgRecv skt).2 ↔ OpOk skt .msgRecv := by
  refine moreOk_unchanged (nextPart skt.zmq) h ?_ ?_
  · rw [luazmqMsgRecv]
    cases hnext : nextPart skt.zmq with
    | none => rw [zmqMsgRecv_none hnext]
    | some p => rw [zmqMsgRecv_some hnext]
  · rw [luazmqMsgRecv]
    cases hnext : nextPart skt.zmq with
    | none => rw [zmqMsgRecv_none hnext]; rfl
    | some p => rw [zmqMsgRecv_some hnext]; rfl

theorem moreOk_recvLen {skt : ZSocket} (h : MoreOk skt) (len : Nat) :
    MoreOk (luazmqSktRecvLen skt len).2 ↔ OpOk skt (.recvLen len) := by
  rw [luazmqSktRecvLen, attempt_eq, OpOk]
  cases h0 : skt.zmq.outcomes.getD 0 true with
  | false =>
    refine ⟨fun _ _ _ hok => ?_, fun _ => h⟩
    cases hok
  | true =>
    simp only
    cases hnext : nextPart { skt.zmq with outcomes := skt.zmq.outcomes.drop 1 } with
    | none =>
      rw [zmqMsgRecv_none hnext]
      refine ⟨fun _ p hp _ h1 _ => ?_, fun _ => h⟩
      rw [nextPart, getD_drop_one, if_pos h1, hp] at hnext
      cases hnext
    | some p =>
      rw [zmqMsgRecv_some hnext]
      simp only
      have hp : skt.zmq.incoming.head? = some p ∧ skt.zmq.outcomes.getD 1 true = true := by
        rw [nextPart, getD_drop_one] at hnext
        by_cases h1 : skt.zmq.outcomes.getD 1 true = true
        · rw [if_pos h1] at hnext
          exact ⟨hnext, h1⟩
        · rw [if_neg h1] at hnext
          cases hnext
      rw [zmqGetRcvmore, attempt_eq, List.drop_drop, List.getD_eq_getElem?_getD, List.getElem?_drop,
        ← List.getD_eq_getElem?_getD]
      cases h2 : skt.zmq.outcomes.getD (1 + 1 + 0) true with
      | false =>
        -- the part is consumed and the flag is not stored
        refine Iff.trans (moreOk_unchanged (some p) h rfl rfl) ?_
        constructor
        · rintro hsame q hq - - -
          exact hsame q (hp.1.symm.trans hq)
        · intro hsame q hq
          exact hsame q (hp.1.trans hq) trivial hp.2 rfl
      | true =>
        refine ⟨fun _ q _ _ _ hq => ?_, fun _ => moreOk_setMore rfl⟩
        cases hq

/-- **One operation** leaves the cached flag right iff it meets `OpOk`. -/
theorem opStep_iff (skt : ZSocket) (op : Op) (h : MoreOk skt) :
    (∃ skt', opStep skt op = some skt' ∧ MoreOk skt') ↔ OpOk skt op := by
  have hstep : (∃ skt', opStep skt op = some skt' ∧ MoreOk skt') ↔ MoreOk (op.run skt).2 :=
    ⟨fun ⟨_, hs, hok⟩ => Option.some.inj hs ▸ hok, fun hok => ⟨_, rfl, hok⟩⟩
  rw [hstep]
  cases op with
  | recv => exact ⟨fun _ => trivial, fun _ => moreOk_recv h⟩
  | recvMsg => exact ⟨fun _ => trivial, fun _ => moreOk_recvMsg h⟩
  | recvNewMsg given => exact ⟨fun _ => trivial, fun _ => moreOk_recvNewMsg h given⟩
  | recvLen len => exact moreOk_recvLen h len
  | msgRecv => exact moreOk_msgRecv h
  | recvAll =>
    obtain ⟨hflags, hzmq⟩ := flags_recvAll skt
    exact moreOk_unchanged _ h hflags ((congrArg Zmq.rcvmore hzmq).trans (recvParts_rcvmore _ _ _ rfl))
  | recvx =>
    obtain ⟨hflags, hzmq⟩ := flags_recvx skt
    exact moreOk_unchanged _ h hflags ((congrArg Zmq.rcvmore hzmq).trans (recvParts_rcvmore _ _ _ rfl))

/-! ## Sequences of operations -/

theorem moreOk_newSocket (own : Bool) (incoming : List Part) (outcomes : List Bool) :
    MoreOk (newSocket own incoming outcomes) := by
  show ((if own then 0 else flagDontDestroy) &&& flagMore != 0) = false
  cases own <;> decide

/-- **The cached more flag, exactly.**  On a new socket, for any incoming parts and any failing calls, the
    cached flag is right after every operation iff every operation meets `OpOk`. -/
theorem moreOk_iff_meets (own : Bool) (incoming : List Part) (outcomes : List Bool) (ops : List Op) :
    Keeps opStep (fun _ _ skt' => MoreOk skt') (newSocket own incoming outcomes) ops ↔
      Meets opStep OpOk (newSocket own incoming outcomes) ops :=
  keeps_iff_meets opStep MoreOk opStep_iff (fun _ _ _ _ _ hok => hok) ops _
    (moreOk_newSocket own incoming outcomes)

/-- `recv` of the first part of a message of two and `recv_all` of the rest: the flag stays set. -/
theorem not_moreOk_recvAll :
    ¬ Keeps opStep (fun _ _ skt' => MoreOk skt') (newSocket true [⟨[1], true⟩, ⟨[2], false⟩] [])
      [.recv, .recvAll] := by
  rintro ⟨s, hs, hs', t, ht, hok, -⟩
  obtain rfl := Option.some.inj (hs.symm.trans (Option.some_get (by decide)).symm)
  have hcond := (opStep_iff _ .recvAll hs').mp ⟨t, ht, hok⟩
  exact absurd (hcond ⟨[2], false⟩ (by decide)) (by decide)

end Lzmq.CSocket
