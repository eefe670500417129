/-
  The receive methods of the FFI binding (`Socket:recv`, `recv_len`, `recv_msg`, `recv_new_msg`, `recv_all`,
  `recvx`, `more` and `Message:recv` of `lzmq/ffi.lua`).

  There is no flag to keep: `more` asks libzmq each time.  `recv_all` is a loop of `recv` that forgets the parts
  it has when a later one fails, and `recvx` returns what `recv_all` returns.  `recv_len` asks for the more flag
  after the part is in its buffer and returns the part also when that query fails.

  libzmq, its parts and the values returned are those of the C binding's model, so that the two can be compared.
-/
import Lzmq.CSocket.Partial

namespace Lzmq.FfiSocket

open Lzmq.CSocket (Zmq Part LuaVal Reply luazmqFail zmqMsgInit zmqMsgRecv zmqGetRcvmore nextPart partsTo messageEnds)

/-! ## The methods -/

/-- `Socket:recv` -/
def recv (z : Zmq) : Reply × Zmq :=
  match zmqMsgInit z with
  | (false, z) => (.ret luazmqFail, z)
  | (true, z) =>
    match zmqMsgRecv z with
    | (none, z) => (.ret luazmqFail, z)
    | (some p, z) => (.ret [.str p.data, .bool p.more], z)

/-- `Socket:more` -/
def more (z : Zmq) : Reply × Zmq :=
  match zmqGetRcvmore z with
  | (none, z) => (.ret luazmqFail, z)
  | (some more, z) => (.ret [.bool more], z)

/-- `Socket:recv_len`: of `self:more()` the first value is returned, which is nil after an error; the buffer may be
    too large to allocate. -/
def recvLen (len : Nat) (z : Zmq) : Reply × Zmq :=
  match z.attempt with
  | (false, z) => (.raise, z)
  | (true, z) =>
    match zmqMsgRecv z with
    | (none, z) => (.ret luazmqFail, z)
    | (some p, z) =>
      match zmqGetRcvmore z with
      | (none, z) => (.ret [.str (p.data.take len), .nil, .int p.data.length], z)
      | (some more, z) => (.ret [.str (p.data.take len), .bool more, .int p.data.length], z)

/-- `Message:recv`, and `Socket:recv_msg`, which calls it. -/
def msgRecv (z : Zmq) : Reply × Zmq :=
  match zmqMsgRecv z with
  | (none, z) => (.ret luazmqFail, z)
  | (some p, z) => (.ret [.msg p.data, .bool p.more], z)

/-- `Socket:recv_new_msg`; a message given to it takes the place of the flags, which it is no value for. -/
def recvNewMsg (given : Bool) (z : Zmq) : Reply × Zmq :=
  match zmqMsgInit z with
  | (false, z) => (.raise, z) -- there is no message to call `recv` of
  | (true, z) => if given then (.raise, z) else msgRecv z

/-- The loop of `Socket:recv_all`: the parts, unless a `recv` fails. -/
def recvAllLoop (z : Zmq) (res : List (List UInt8)) : Option (List (List UInt8)) × Zmq :=
  match _hinit : zmqMsgInit z with
  | (false, z) => (none, z)
  | (true, z₁) =>
    match _hrecv : zmqMsgRecv z₁ with
    | (none, z₂) => (none, z₂)
    | (some p, z₂) => if p.more then recvAllLoop z₂ (res ++ [p.data]) else (some (res ++ [p.data]), z₂)
termination_by z.incoming.length
decreasing_by
  have h := CSocket.incoming_attempt z
  rw [show z.attempt = (true, z₁) from _hinit, CSocket.incoming_zmqMsgRecv _hrecv] at h
  rw [← h, List.length_cons]
  omega

/-- `Socket:recv_all` -/
def recvAll (z : Zmq) : Reply × Zmq :=
  match recvAllLoop z [] with
  | (some res, z) => (.ret [.table res], z)
  | (none, z) => (.ret luazmqFail, z)

/-- `Socket:recvx`: there is no third value of `recv_all` for it to unpack. -/
def recvx (z : Zmq) : Reply × Zmq :=
  match recvAllLoop z [] with
  | (some res, z) => (.ret (res.map .str), z)
  | (none, z) => (.ret luazmqFail, z)

/-! ## The loop against the loops of the C binding -/

/-- The loop takes the same parts from libzmq as `recv_all` and `recvx` of the C binding do, and returns them if
    they are all there. -/
theorem recvAllLoop_eq (z : Zmq) (res : List (List UInt8)) :
    recvAllLoop z res = (if (CSocket.recvParts z res).1 then some (CSocket.recvParts z res).2.1 else none,
      (CSocket.recvParts z res).2.2) := by
  -- the loops make the same calls
  fun_induction CSocket.recvParts z res with
  | case1 z res z₁ hinit => rw [recvAllLoop]; grind
  | case2 z res z₁ hinit z₂ hrecv => rw [recvAllLoop]; grind
  | case3 z res z₁ hinit p z₂ hrecv hmore ih => rw [recvAllLoop]; grind
  | case4 z res z₁ hinit p z₂ hrecv hmore => rw [recvAllLoop]; grind

/-- **`recv_all`** leaves libzmq as in the C binding and returns all parts of a message, or none. -/
theorem recvAll_eq (z : Zmq) :
    recvAll z = (.ret (if messageEnds z.incoming z.outcomes then
      [.table ((partsTo z.incoming z.outcomes).map Part.data)] else luazmqFail),
      (CSocket.recvParts z []).2.2) := by
  obtain ⟨z', hz'⟩ := CSocket.recvParts_spec _ z [] rfl
  rw [recvAll, recvAllLoop_eq, hz', List.nil_append]
  cases messageEnds z.incoming z.outcomes <;> rfl

/-- **`recvx`**, likewise. -/
theorem recvx_eq (z : Zmq) :
    recvx z = (.ret (if messageEnds z.incoming z.outcomes then
      (partsTo z.incoming z.outcomes).map fun p => .str p.data else luazmqFail),
      (CSocket.recvParts z []).2.2) := by
  obtain ⟨z', hz'⟩ := CSocket.recvParts_spec _ z [] rfl
  rw [recvx, recvAllLoop_eq, hz', List.nil_append]
  cases messageEnds z.incoming z.outcomes with
  | false => rfl
  | true =>
    simp only [if_true, List.map_map]
    rfl

end Lzmq.FfiSocket
