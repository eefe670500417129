/-
  The send methods of the FFI binding (`lzmq/ffi.lua`) over the frames that libzmq accepts.

  All of them end in `Socket:send`, which hands a part to `zmq_send` without a message of its own.  `send_all`
  sends the parts before the last one in a loop, with ZMQ_SNDMORE, and the last one with its flags; `sendx` makes
  a table of its arguments for it and `sendv` one string.  The calls are those of the C binding's model.
-/
import Lzmq.CSocket.Framing

namespace Lzmq.FfiSocket.Frames

open Lzmq.Framing
open Lzmq.CSocket (Part SendSide SendReply SendCall zmqSndmore zmqSend hasMore slice)

/-! ## The methods -/

/-- `Socket:send` -/
def send (z : SendSide) (msg : List UInt8) (flags : BitVec 32) : SendReply × SendSide :=
  match zmqSend z msg flags with
  | (false, z) => (.fail none, z)
  | (true, z) => (.pass, z)

/-- `Socket:send_more` -/
def sendMore (z : SendSide) (msg : List UInt8) (flags : BitVec 32) : SendReply × SendSide :=
  send z msg (flags ||| zmqSndmore)

/-- `for i = i, n - 1` of `Socket:send_all`, with the number of rounds left, and the last part. -/
def sendAllLoop (msg : LuaTable (List UInt8)) (flags : BitVec 32) (n : Int) :
    Nat → Int → SendSide → SendReply × SendSide
  | 0, _, z =>
    match msg.get n with
    | none => (.raise, z) -- `#data` of nil
    | some str =>
      match zmqSend z str flags with
      | (false, z) => (.fail (some n), z)
      | (true, z) => (.pass, z)
  | k + 1, i, z =>
    match msg.get i with
    | none => (.raise, z) -- `assert(msg[i])`
    | some str =>
      match zmqSend z str zmqSndmore with
      | (false, z) => (.fail (some i), z)
      | (true, z) => sendAllLoop msg flags n k (i + 1) z

/-- `Socket:send_all` -/
def sendAll (z : SendSide) (msg : LuaTable (List UInt8)) (flags : BitVec 32) (i? n? : Option Int) :
    SendReply × SendSide :=
  let i := i?.getD 1
  let n := n?.getD msg.border
  if n < i then (.raise, z) -- invalid range
  else if flags ≠ 0 ∧ flags ≠ zmqSndmore then (.enotsup, z)
  else sendAllLoop msg flags n (n - i).toNat i z

/-- `{...}` -/
def packed (parts : List (List UInt8)) : LuaTable (List UInt8) where
  get i := if 1 ≤ i then parts[(i - 1).toNat]? else none
  top := parts.length
  above i hi := by
    rw [if_pos (by omega)]
    exact List.getElem?_eq_none (by omega)

/-- `Socket:sendx` -/
def sendx (z : SendSide) (parts : List (List UInt8)) : SendReply × SendSide :=
  sendAll z (packed parts) 0 (some 1) (some parts.length)

/-- `Socket:sendx_more` -/
def sendxMore (z : SendSide) (parts : List (List UInt8)) : SendReply × SendSide :=
  sendAll z (packed parts) zmqSndmore (some 1) (some parts.length)

/-- `Socket:sendv` -/
def sendv (z : SendSide) (parts : List (List UInt8)) : SendReply × SendSide := send z parts.flatten 0

/-- `Socket:sendv_more` -/
def sendvMore (z : SendSide) (parts : List (List UInt8)) : SendReply × SendSide :=
  send z parts.flatten zmqSndmore

/-- A call of the FFI binding. -/
def run (z : SendSide) : SendCall → SendReply × SendSide
  | .send data flags => send z data flags
  | .sendMore data flags => sendMore z data flags
  | .sendAll parts flags i? n? => sendAll z parts flags i? n?
  | .sendx parts => sendx z parts
  | .sendxMore parts => sendxMore z parts
  | .sendv parts => sendv z parts
  | .sendvMore parts => sendvMore z parts

/-! ## The arguments as a table -/

theorem slice_packed (parts : List (List UInt8)) : ∀ (k j : Nat), j + k = parts.length →
    slice (packed parts) k (1 + j) = parts.drop j := by
  intro k
  induction k with
  | zero =>
    intro j hj
    rw [slice, List.drop_eq_nil_of_le (by omega)]
  | succ k ih =>
    intro j hj
    have hlt : j < parts.length := by omega
    have hget : (packed parts).get (1 + j) = some parts[j] := by
      rw [packed]
      simp only [if_pos (show (1 : Int) ≤ 1 + j by omega)]
      rw [show ((1 : Int) + j - 1).toNat = j by omega]
      exact List.getElem?_eq_getElem hlt
    have hnext := ih (j + 1) (by omega)
    rw [Int.natCast_succ, ← Int.add_assoc] at hnext
    rw [slice, hget, hnext, List.drop_eq_getElem_cons hlt]
    rfl

/-- The table of the arguments has them as its slice from 1 on. -/
theorem slice_packed_all (parts : List (List UInt8)) :
    slice (packed parts) ((parts.length : Int) + 1 - 1).toNat 1 = parts := by
  rw [show ((parts.length : Int) + 1 - 1).toNat = parts.length by omega]
  exact slice_packed parts parts.length 0 (Nat.zero_add _)

end Lzmq.FfiSocket.Frames
