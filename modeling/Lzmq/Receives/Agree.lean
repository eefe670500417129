/-
  The receive methods of the two bindings, one sequence of calls at a time.

  Both bindings are run beside each other over the same parts and the same failing calls of libzmq (each request
  says which calls of libzmq it makes succeed).  They return the same values and leave the same parts behind in most
  cases; `AgreeOk` lists the others:
    * a failed `recv_all` returns the parts it has in the C binding only, and a failed `recvx` returns a socket in
      their place there;
    * `recv_len` loses its part in the C binding when the query for the more flag fails;
    * `recv_new_msg` of the FFI binding raises when no message can be made, and when it is given one;
    * `more` is a cached bit in the C binding, which other receives may have left behind, and a query in the other.
  `agrees_iff_meets` says that these are all, over every sequence of requests.
-/
import Lzmq.FfiSocket.Receive

namespace Lzmq.Receives

open Lzmq.Steps
open Lzmq.CSocket

/-! ## Requests -/

/-- The receive methods, and the query for the more flag. -/
inductive Call
  | op (op : Op)
  | more
deriving DecidableEq, Repr

/-- A call of a method, and which of libzmq's calls in it succeed; beyond the list they do. -/
structure Request where
  call : Call
  outcomes : List Bool
deriving DecidableEq, Repr

/-- libzmq at the start of a request. -/
def ready (z : Zmq) (r : Request) : Zmq := { z with outcomes := r.outcomes }

/-- The methods of the C binding. -/
def cCall (skt : ZSocket) : Call → Reply × ZSocket
  | .op op => op.run skt
  | .more => (.ret [.bool skt.more], skt)

/-- The methods of the FFI binding. -/
def ffiCall (z : Zmq) : Call → Reply × Zmq
  | .op .recv => FfiSocket.recv z
  | .op (.recvLen len) => FfiSocket.recvLen len z
  | .op .recvMsg => FfiSocket.msgRecv z
  | .op (.recvNewMsg given) => FfiSocket.recvNewMsg given z
  | .op .msgRecv => FfiSocket.msgRecv z
  | .op .recvAll => FfiSocket.recvAll z
  | .op .recvx => FfiSocket.recvx z
  | .more => FfiSocket.more z

def cRequest (skt : ZSocket) (r : Request) : Reply × ZSocket := cCall { skt with zmq := ready skt.zmq r } r.call

def ffiRequest (z : Zmq) (r : Request) : Reply × Zmq := ffiCall (ready z r) r.call

/-! ## The bindings beside each other -/

/-- A socket of each binding. -/
structure Pair where
  c : ZSocket
  ffi : Zmq
deriving DecidableEq, Repr

/-- New sockets with the same parts to come. -/
def start (own : Bool) (incoming : List Part) : Pair where
  c := newSocket own incoming []
  ffi := ⟨incoming, false, []⟩

def pairStep (s : Pair) (r : Request) : Option Pair := some ⟨(cRequest s.c r).2, (ffiRequest s.ffi r).2⟩

/-- libzmq has the same parts left, and delivered the same part last. -/
def SameStream (z z' : Zmq) : Prop := z.incoming = z'.incoming ∧ z.rcvmore = z'.rcvmore

/-- The same values, and the same parts left. -/
def Agrees (s : Pair) (r : Request) (s' : Pair) : Prop :=
  (cRequest s.c r).1 = (ffiRequest s.ffi r).1 ∧ SameStream s'.c.zmq s'.ffi

/-- A failed `zmq_getsockopt` after a part has been received. -/
def QueryFails (z : Zmq) (r : Request) : Prop :=
  z.incoming ≠ [] ∧ r.outcomes.getD 0 true = true ∧ r.outcomes.getD 1 true = true ∧ r.outcomes.getD 2 true = false

/-- When the bindings agree on a request. -/
def AgreeOk (skt : ZSocket) (r : Request) : Prop :=
  match r.call with
  | .op .recv => True
  | .op .recvMsg => True
  | .op .msgRecv => True
  | .op (.recvNewMsg given) => given = false ∧ r.outcomes.getD 0 true = true
  | .op (.recvLen _) => ¬ QueryFails skt.zmq r
  | .op .recvAll => messageEnds skt.zmq.incoming r.outcomes = true
  | .op .recvx => messageEnds skt.zmq.incoming r.outcomes = true ∨ partsTo skt.zmq.incoming r.outcomes = []
  | .more => r.outcomes.getD 0 true = true ∧ skt.more = skt.zmq.rcvmore

/-! ## One call -/

theorem SameStream.refl (z : Zmq) : SameStream z z := ⟨rfl, rfl⟩

theorem SameStream.ready_eq {z z' : Zmq} (h : SameStream z z') (r : Request) : ready z r = ready z' r := by
  rw [ready, ready, h.1, h.2]

section Call

variable (skt : ZSocket)

theorem recv_mirrors : (luazmqSktRecv skt).1 = (FfiSocket.recv skt.zmq).1 ∧
    (luazmqSktRecv skt).2.zmq = (FfiSocket.recv skt.zmq).2 := by
  rw [luazmqSktRecv, FfiSocket.recv]
  obtain ⟨ok, z⟩ := zmqMsgInit skt.zmq
  cases ok with
  | false => exact ⟨rfl, rfl⟩
  | true =>
    simp only
    obtain ⟨p | p, z'⟩ := zmqMsgRecv z <;> exact ⟨rfl, rfl⟩

theorem recvMsg_mirrors : (luazmqSktRecvMsg skt).1 = (FfiSocket.msgRecv skt.zmq).1 ∧
    (luazmqSktRecvMsg skt).2.zmq = (FfiSocket.msgRecv skt.zmq).2 := by
  rw [luazmqSktRecvMsg, FfiSocket.msgRecv]
  obtain ⟨p | p, z⟩ := zmqMsgRecv skt.zmq <;> exact ⟨rfl, rfl⟩

theorem msgRecv_mirrors : (luazmqMsgRecv skt).1 = (FfiSocket.msgRecv skt.zmq).1 ∧
    (luazmqMsgRecv skt).2.zmq = (FfiSocket.msgRecv skt.zmq).2 := by
  rw [luazmqMsgRecv, FfiSocket.msgRecv]
  obtain ⟨p | p, z⟩ := zmqMsgRecv skt.zmq <;> exact ⟨rfl, rfl⟩

/-- A receive returns values; it never raises. -/
theorem luazmqSktRecvMsg_returns : (luazmqSktRecvMsg skt).1 ≠ .raise := by
  rw [luazmqSktRecvMsg]
  obtain ⟨p | p, z⟩ := zmqMsgRecv skt.zmq <;> exact Reply.noConfusion

theorem recvNewMsg_mirrors (given : Bool) :
    ((luazmqSktRecvNewMsg skt given).1 = (FfiSocket.recvNewMsg given skt.zmq).1 ↔
      given = false ∧ skt.zmq.outcomes.getD 0 true = true) ∧
    (given = false → (luazmqSktRecvNewMsg skt given).2.zmq = (FfiSocket.recvNewMsg given skt.zmq).2) := by
  rw [luazmqSktRecvNewMsg, FfiSocket.recvNewMsg, zmqMsgInit, attempt_eq]
  cases given with
  | true =>
    -- the FFI binding takes the message for flags
    have hraise := luazmqSktRecvMsg_returns skt
    cases skt.zmq.outcomes.getD 0 true <;> simp [hraise]
  | false =>
    cases skt.zmq.outcomes.getD 0 true with
    | false => simp
    | true =>
      have hmsg := recvMsg_mirrors { skt with zmq := { skt.zmq with outcomes := skt.zmq.outcomes.drop 1 } }
      simp only [Bool.false_eq_true, if_false, true_and, iff_true, forall_const]
      exact hmsg

theorem recvLen_mirrors (len : Nat) :
    ((luazmqSktRecvLen skt len).1 = (FfiSocket.recvLen len skt.zmq).1 ↔
      ¬ QueryFails skt.zmq ⟨.op (.recvLen len), skt.zmq.outcomes⟩) ∧
    (luazmqSktRecvLen skt len).2.zmq = (FfiSocket.recvLen len skt.zmq).2 := by
  rw [luazmqSktRecvLen, FfiSocket.recvLen, attempt_eq, QueryFails]
  cases h0 : skt.zmq.outcomes.getD 0 true with
  | false => simp
  | true =>
    simp only
    cases hnext : nextPart { skt.zmq with outcomes := skt.zmq.outcomes.drop 1 } with
    | none =>
      rw [zmqMsgRecv_none hnext]
      rw [nextPart, getD_drop_one] at hnext
      refine ⟨iff_of_true rfl ?_, rfl⟩
      rintro ⟨hin, -, h1, -⟩
      rw [if_pos h1, List.head?_eq_none_iff] at hnext
      exact hin hnext
    | some p =>
      rw [zmqMsgRecv_some hnext]
      rw [nextPart, getD_drop_one] at hnext
      simp only
      rw [zmqGetRcvmore, attempt_eq, List.drop_drop, List.getD_eq_getElem?_getD, List.getElem?_drop,
        ← List.getD_eq_getElem?_getD]
      have h1 : skt.zmq.outcomes.getD 1 true = true := by
        cases h1 : skt.zmq.outcomes.getD 1 true with
        | true => rfl
        | false => rw [h1] at hnext; cases hnext
      have hin : skt.zmq.incoming ≠ [] := by
        rintro hnil
        rw [if_pos h1, hnil] at hnext
        cases hnext
      cases h2 : skt.zmq.outcomes.getD (1 + 1 + 0) true with
      | false =>
        refine ⟨iff_of_false ?_ fun h => h ⟨hin, trivial, h1, rfl⟩, rfl⟩
        simp [luazmqFail]
      | true =>
        refine ⟨iff_of_true rfl ?_, rfl⟩
        rintro ⟨-, -, -, h2'⟩
        exact absurd h2' (by simp)

theorem recvAll_mirrors :
    ((luazmqSktRecvAll skt).1 = (FfiSocket.recvAll skt.zmq).1 ↔
      messageEnds skt.zmq.incoming skt.zmq.outcomes = true) ∧
    (luazmqSktRecvAll skt).2.zmq = (FfiSocket.recvAll skt.zmq).2 := by
  obtain ⟨z', hz'⟩ := recvParts_spec _ skt.zmq [] rfl
  rw [FfiSocket.recvAll_eq]
  refine ⟨?_, (flags_recvAll skt).2⟩
  rw [luazmqSktRecvAll, hz']
  cases messageEnds skt.zmq.incoming skt.zmq.outcomes with
  | false => exact iff_of_false (by simp [luazmqFail]) (by simp)
  | true => exact iff_of_true (by simp) rfl

/-- What a failed `recvx` returns in the C binding is more than an error, unless it has no part. -/
theorem recvxFailed_eq_luazmqFail_iff (parts : List (List UInt8)) : recvxFailed parts = luazmqFail ↔ parts = [] := by
  rw [recvxFailed]
  by_cases h : parts = []
  · rw [if_pos h]
    exact iff_of_true rfl h
  · rw [if_neg h]
    exact iff_of_false (by simp) h

theorem recvx_mirrors :
    ((luazmqSktRecvx skt).1 = (FfiSocket.recvx skt.zmq).1 ↔
      messageEnds skt.zmq.incoming skt.zmq.outcomes = true ∨ partsTo skt.zmq.incoming skt.zmq.outcomes = []) ∧
    (luazmqSktRecvx skt).2.zmq = (FfiSocket.recvx skt.zmq).2 := by
  rw [FfiSocket.recvx_eq]
  refine ⟨?_, (flags_recvx skt).2⟩
  cases hends : messageEnds skt.zmq.incoming skt.zmq.outcomes with
  | false =>
    rw [luazmqSktRecvx_interrupted hends]
    simp only [Bool.false_eq_true, if_false, false_or, Reply.ret.injEq, recvxFailed_eq_luazmqFail_iff, received,
      List.map_eq_nil_iff]
  | true =>
    obtain ⟨z', hz'⟩ := recvParts_spec _ skt.zmq [] rfl
    rw [luazmqSktRecvx, hz', hends]
    simp

end Call

/-! ## One request -/

theorem more_mirrors (skt : ZSocket) (z : Zmq) (h : z.rcvmore = skt.zmq.rcvmore) :
    Reply.ret [.bool skt.more] = (FfiSocket.more z).1 ↔
      z.outcomes.getD 0 true = true ∧ skt.more = skt.zmq.rcvmore := by
  rw [FfiSocket.more, zmqGetRcvmore, attempt_eq]
  cases z.outcomes.getD 0 true with
  | false => simp [luazmqFail]
  | true => simp [h]

theorem sameStream_more (z : Zmq) : SameStream z (FfiSocket.more z).2 := by
  rw [FfiSocket.more, zmqGetRcvmore, attempt_eq]
  cases z.outcomes.getD 0 true <;> exact SameStream.refl z

/-- **One request**: the bindings agree on it iff it meets `AgreeOk`. -/
theorem agrees_iff (s : Pair) (r : Request) (h : SameStream s.c.zmq s.ffi) :
    (∃ s', pairStep s r = some s' ∧ Agrees s r s') ↔ AgreeOk s.c r := by
  obtain ⟨call, outcomes⟩ := r
  obtain ⟨⟨flags, z⟩, z'⟩ := s
  have hready := h.ready_eq ⟨call, outcomes⟩
  have hstep : (∃ s', pairStep ⟨⟨flags, z⟩, z'⟩ ⟨call, outcomes⟩ = some s' ∧
      Agrees ⟨⟨flags, z⟩, z'⟩ ⟨call, outcomes⟩ s') ↔
      (cRequest ⟨flags, z⟩ ⟨call, outcomes⟩).1 = (ffiRequest z ⟨call, outcomes⟩).1 ∧
        SameStream (cRequest ⟨flags, z⟩ ⟨call, outcomes⟩).2.zmq (ffiRequest z ⟨call, outcomes⟩).2 := by
    simp only [pairStep, Option.some.injEq, exists_eq_left', Agrees, ffiRequest]
    rw [hready]
  rw [hstep]
  rw [cRequest, ffiRequest]
  simp only
  -- both start from one libzmq
  have hsame : ∀ {w w' : Zmq}, w = w' → SameStream w w' := fun hw => hw ▸ SameStream.refl _
  generalize hskt : (ZSocket.mk flags (ready z ⟨call, outcomes⟩)) = skt
  have hz : ready z ⟨call, outcomes⟩ = skt.zmq := by rw [← hskt]
  rw [hz]
  cases call with
  | more =>
    rw [AgreeOk]
    subst hskt
    exact ⟨fun hr => (more_mirrors ⟨flags, _⟩ _ rfl).mp hr.1,
      fun hok => ⟨(more_mirrors ⟨flags, _⟩ _ rfl).mpr hok, sameStream_more _⟩⟩
  | op op =>
    cases op with
    | recv =>
      have hm := recv_mirrors skt
      exact iff_of_true ⟨hm.1, hsame hm.2⟩ trivial
    | recvMsg =>
      have hm := recvMsg_mirrors skt
      exact iff_of_true ⟨hm.1, hsame hm.2⟩ trivial
    | msgRecv =>
      have hm := msgRecv_mirrors skt
      exact iff_of_true ⟨hm.1, hsame hm.2⟩ trivial
    | recvNewMsg given =>
      have hm := recvNewMsg_mirrors skt given
      subst hskt
      exact ⟨fun hr => hm.1.mp hr.1, fun hok => ⟨hm.1.mpr hok, hsame (hm.2 hok.1)⟩⟩
    | recvLen len =>
      have hm := recvLen_mirrors skt len
      subst hskt
      exact ⟨fun hr => hm.1.mp hr.1, fun hok => ⟨hm.1.mpr hok, hsame hm.2⟩⟩
    | recvAll =>
      have hm := recvAll_mirrors skt
      subst hskt
      exact ⟨fun hr => hm.1.mp hr.1, fun hok => ⟨hm.1.mpr hok, hsame hm.2⟩⟩
    | recvx =>
      have hm := recvx_mirrors skt
      subst hskt
      exact ⟨fun hr => hm.1.mp hr.1, fun hok => ⟨hm.1.mpr hok, hsame hm.2⟩⟩

/-! ## Sequences of requests -/

/-- **The bindings agree** at every request of a sequence, in values and in the parts they leave, iff every request
    meets `AgreeOk`. -/
theorem agrees_iff_meets (own : Bool) (incoming : List Part) (rs : List Request) :
    Keeps pairStep Agrees (start own incoming) rs ↔
      Meets pairStep (fun s => AgreeOk s.c) (start own incoming) rs :=
  keeps_iff_meets pairStep (fun s => SameStream s.c.zmq s.ffi) agrees_iff (fun _ _ _ _ _ hok => hok.2) rs _
    ⟨rfl, rfl⟩

end Lzmq.Receives
