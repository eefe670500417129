/-
  The multipart send methods of the FFI binding (`Socket:send_all`, `sendx` and `sendx_more` of
  `lzmq/ffi.lua`).

  `send_all` is a loop over all parts but the last one and a send of its own for the last one; `sendx` makes
  a table of its arguments and calls it.  A part is passed to libzmq with its length, so it has to be a
  string: a number has no length.  `sendAllLoop_spec` says that loop and last send together are
  `sendParts`, as in the C binding, but with memory that libzmq allocates itself.

  Flags and positions are numbers of Lua here, which are compared as they are; only what is passed to libzmq
  is cast to an `int`.

  The code runs over libzmq alone and returns a list of values; the socket is an open one.
-/
import Lzmq.CApi.Send

namespace Lzmq.FfiSocket

open Lzmq.CApi
open Lzmq.CFunction (Reply)
open Lzmq.CSocket (zmqSndmore)

variable {N : Type} [LuaNumber N]

/-! ## The methods -/

/-- A value that has a length and converts to `const void*`. -/
def ffiBytes : Elem N → Option (List UInt8)
  | .str s => some s
  | _ => none

/-- `FLAGS.ZMQ_SNDMORE` -/
def sndmore : Int := 2

/-- `api.zmq_send` -/
def zmqSend (data : Elem N) (flags : Int) : Lua Zmq Bool := do
  match ffiBytes data with
  | some s => do
    let z ← Lua.read id
    Lua.modify fun z => z.called (.send s (BitVec.ofInt 32 flags))
    pure (z.fate = .ok)
  | none => Lua.raise

/-- `Socket:send`: the error, if there is one. -/
def send (msg : Elem N) (flags : Int) : Lua Zmq (Option Nat) := do
  if ← zmqSend msg flags then pure none
  else do
    let errno ← Lua.read Zmq.errno
    pure (some errno)

/-- `assert` of a part; what is left of `false` is refused by `send`. -/
def luaAssert : Elem N → Lua Zmq (Elem N)
  | .nil => Lua.raise
  | e => pure e

/-- `return nil, err, i` -/
def failAt (err : Nat) (i : Int) : List (Val N) := [.elem .nil, .err err, .elem (.num (LuaNumber.ofInt i))]

/-- `local ok, err = self:send(str, f)  if not ok then return nil, err, i end`, and what comes after it. -/
def sendOr (str : Elem N) (f : Int) (i : Int) (next : Lua Zmq (List (Val N))) : Lua Zmq (List (Val N)) := do
  match ← send str f with
  | some err => pure (failAt err i)
  | none => next

/-- `for i = i, n - 1` of `Socket:send_all`, with the number of rounds left, and what comes after it. -/
def sendAllLoop (msg : LuaTable (Elem N)) (flags n : Int) : Nat → Int → Lua Zmq (List (Val N))
  | 0, _ => sendOr (getElem msg n) flags n (pure [.bool true])
  | k + 1, i => do
    let str ← luaAssert (getElem msg i)
    sendOr str sndmore i (sendAllLoop msg flags n k (i + 1))

/-- Where `lzmq/ffi/error.lua` runs: the ENOTSUP of the C binding and of `syscall`, if they can be loaded. -/
structure Host where
  lzmq : Option Nat
  windows : Bool
  syscall : Option Nat
deriving DecidableEq, Repr

/-- `ERRORS.ENOTSUP` -/
def Host.enotsup (host : Host) : Nat :=
  match host.lzmq with
  | some e => e
  | none => if host.windows then 129 else host.syscall.getD 45

def sendAll (host : Host) (msg : LuaTable (Elem N)) (flags : Int) (i? n? : Option Int) :
    Lua Zmq (List (Val N)) := do
  let i := i?.getD 1
  let n := n?.getD msg.border
  if i ≤ n then
    if flags ≠ 0 ∧ flags ≠ sndmore then pure [.elem .nil, .err host.enotsup]
    else sendAllLoop msg flags n (n - i).toNat i
  else Lua.raise -- invalid range

/-- `{...}` -/
def packed (es : List (Elem N)) : LuaTable (Elem N) where
  get i := if 1 ≤ i then es[(i - 1).toNat]?.bind fun e => match e with
      | .nil => none
      | e => some e
    else none
  top := es.length
  above i hi := by
    have hnone : es[(i - 1).toNat]? = none := List.getElem?_eq_none (by omega)
    rw [if_pos (by omega), hnone, Option.bind_none]

def sendx (host : Host) (es : List (Elem N)) : Lua Zmq (List (Val N)) :=
  sendAll host (packed es) 0 (some 1) (some es.length)

def sendxMore (host : Host) (es : List (Elem N)) : Lua Zmq (List (Val N)) :=
  sendAll host (packed es) sndmore (some 1) (some es.length)

/-- Whether `send_all` takes its flags. -/
def Taken (flags : Int) : Prop := flags = 0 ∨ flags = sndmore

instance (flags : Int) : Decidable (Taken flags) := inferInstanceAs (Decidable (_ ∨ _))

/-! ## The table of the arguments -/

omit [LuaNumber N] in
theorem getElem_packed (es : List (Elem N)) (j : Nat) : getElem (packed es) (1 + j) = es[j]?.getD .nil := by
  have hj : ((1 : Int) + j - 1).toNat = j := by omega
  rw [CApi.getElem, packed]
  simp only [if_pos (show (1 : Int) ≤ 1 + j by omega), hj]
  cases es[j]? with
  | none => rfl
  | some e => cases e <;> rfl

omit [LuaNumber N] in
theorem elems_packed_from (es : List (Elem N)) : ∀ (k j : Nat), j + k = es.length →
    elems (packed es) k (1 + j) = es.drop j := by
  intro k
  induction k with
  | zero =>
    intro j hj
    rw [elems, List.drop_eq_nil_of_le (by omega)]
  | succ k ih =>
    intro j hj
    have hlt : j < es.length := by omega
    have hget : es[j]? = some es[j] := List.getElem?_eq_getElem hlt
    have hnext := ih (j + 1) (by omega)
    rw [Int.natCast_succ, ← Int.add_assoc] at hnext
    rw [elems, getElem_packed, hget, hnext, List.drop_eq_getElem_cons hlt]
    rfl

omit [LuaNumber N] in
/-- The elements are the arguments, also those that are nil. -/
theorem elems_packed (es : List (Elem N)) : elems (packed es) es.length 1 = es :=
  elems_packed_from es es.length 0 (Nat.zero_add _)

omit [LuaNumber N] in
/-- Without nil among them the table has their number as its length. -/
theorem border_packed {es : List (Elem N)} (h : .nil ∉ es) : (packed es).border = es.length := by
  refine (packed es).border_isBorder.eq_of_filled fun i hi => ?_
  have hpred : ((i : Int) - 1).toNat = i - 1 := by omega
  rw [packed]
  simp only [if_pos (show (1 : Int) ≤ i by omega), hpred]
  by_cases hle : i ≤ es.length
  · have hget : es[i - 1]? = some es[i - 1] := List.getElem?_eq_getElem (by omega)
    refine iff_of_true (fun hnone => h ?_) hle
    rw [hget, Option.bind_some] at hnone
    have hmem : es[i - 1] ∈ es := List.getElem_mem _
    cases hx : es[i - 1] with
    | nil => rwa [hx] at hmem
    | str s => rw [hx] at hnone; cases hnone
    | num x => rw [hx] at hnone; cases hnone
    | other => rw [hx] at hnone; cases hnone
  · rw [List.getElem?_eq_none (by omega)]
    exact iff_of_false (fun hne => hne rfl) hle

/-! ## What the methods leave to see -/

/-- The reply and the calls of libzmq. -/
def sends : Ending Zmq (List (Val N)) → Option (Reply (Val N) × List ZmqCall)
  | .ret vs z => some (.ret vs, z.calls)
  | .raise z => some (.raise, z.calls)
  | .abort => none

section Run

variable {e : Elem N} {z : Zmq} {flags : Int}

omit [LuaNumber N] in
/-- A part that is not a string. -/
theorem run_send_invalid (h : ffiBytes e = none) : send e flags z = .raise z := by
  rw [send, zmqSend, h]
  rfl

omit [LuaNumber N] in
theorem run_send_ok {s : List UInt8} (h : ffiBytes e = some s) (hfate : z.fate = .ok) :
    send e flags z = .ret none (z.called (.send s (BitVec.ofInt 32 flags))) := by
  simp [send, zmqSend, h, hfate]

omit [LuaNumber N] in
theorem run_send_fails {s : List UInt8} (h : ffiBytes e = some s) (hfate : z.fate ≠ .ok) :
    send e flags z = .ret (some (z.called (.send s (BitVec.ofInt 32 flags))).errno)
      (z.called (.send s (BitVec.ofInt 32 flags))) := by
  simp [send, zmqSend, h, hfate]

/-- `assert` changes nothing: what it refuses is no string. -/
theorem run_luaAssert (f i : Int) (next : Lua Zmq (List (Val N))) :
    Lua.andThen (luaAssert e z) (fun str => sendOr str f i next) = sendOr e f i next z := by
  cases e <;> rfl

end Run

/-- Code that leaves to see what `sendParts` says. -/
def SendsAs (number : Nat → N) (z : Zmq) (r : List ZmqCall × SendEnd) (e : Ending Zmq (List (Val N))) :
    Prop :=
  sends e = some (r.2.reply number, z.calls ++ r.1)

/-- One part, and the parts after it. -/
theorem sendsAs_cons {e : Elem N} {flags : CInt} {f i : Int} {es : List (Option (List UInt8))} {z : Zmq}
    {next : Lua Zmq (List (Val N))} (hf : BitVec.ofInt 32 f = if es.isEmpty then flags else zmqSndmore)
    (hnext : ∀ s, SendsAs (numbered (i + 1)) (z.called (.send s (BitVec.ofInt 32 f)))
      (eachPart false (sendCall flags) es z.fates.tail) (next (z.called (.send s (BitVec.ofInt 32 f))))) :
    SendsAs (numbered i) z (eachPart false (sendCall flags) (ffiBytes e :: es) z.fates)
      (sendOr e f i next z) := by
  have hcall : ∀ s, sendCall flags es.isEmpty s = .send s (BitVec.ofInt 32 f) := fun s => by rw [sendCall, hf]
  have hnum : (numbered i 0 : N) = LuaNumber.ofInt i := numbered_zero i
  rw [sendOr, Lua.run_bind]
  cases hbytes : ffiBytes e with
  | none =>
    rw [run_send_invalid hbytes]
    exact congrArg (fun l => some (Reply.raise, l)) (List.append_nil _).symm
  | some s =>
    cases hfate : z.fate with
    | ok =>
      rw [run_send_ok hbytes hfate, eachPart_ok hfate, hcall]
      refine Eq.trans (hnext s) ?_
      rw [called_calls, after_reply, numbered_succ, List.append_assoc, List.singleton_append]
    | noMemory errno =>
      rw [run_send_fails hbytes (by simp [hfate]), eachPart_noMemory hfate, SendsAs, hcall]
      simp [sends, failAt, SendEnd.reply, hnum, Zmq.called, hfate, Zmq.failed, Zmq.done]
    | fails errno =>
      rw [run_send_fails hbytes (by simp [hfate]), eachPart_fails hfate, SendsAs, hcall]
      simp [sends, failAt, SendEnd.reply, hnum, Zmq.called, hfate, Zmq.failed, Zmq.done]

/-- **Loop and last send**: the elements from `i` to `n`. -/
theorem sendAllLoop_spec (msg : LuaTable (Elem N)) (flags n : Int) : ∀ (k : Nat) (i : Int) (z : Zmq),
    i + k = n → SendsAs (numbered i) z
      (sendParts false (BitVec.ofInt 32 flags) ((elems msg (k + 1) i).map ffiBytes) z.fates)
      (sendAllLoop msg flags n k i z) := by
  intro k
  induction k with
  | zero =>
    intro i z hi
    obtain rfl : i = n := by omega
    refine sendsAs_cons rfl fun s => ?_
    exact congrArg (fun l => some (Reply.ret [Val.bool true], l)) (List.append_nil _).symm
  | succ k ih =>
    intro i z hi
    rw [sendAllLoop, Lua.run_bind, run_luaAssert]
    refine sendsAs_cons rfl fun s => ?_
    have hrest := ih (i + 1) (z.called (.send s (BitVec.ofInt 32 sndmore))) (by omega)
    rwa [called_fates] at hrest

/-! ## The calls -/

section Call

variable (host : Host) {msg : LuaTable (Elem N)} {flags : Int} {i? n? : Option Int} (z : Zmq)

/-- A range that is refused. -/
theorem sendAll_range (h : n?.getD msg.border < i?.getD 1) :
    sends (sendAll host msg flags i? n? z) = some (.raise, z.calls) := by
  rw [sendAll]
  simp only [if_neg (Int.not_le.mpr h)]
  rfl

/-- Flags that are refused. -/
theorem sendAll_flags (h : i?.getD 1 ≤ n?.getD msg.border) (hflags : ¬ Taken flags) :
    sends (sendAll host msg flags i? n? z) = some (.ret [.elem .nil, .err host.enotsup], z.calls) := by
  rw [Taken, not_or] at hflags
  rw [sendAll]
  simp only [if_pos h, if_pos (show flags ≠ 0 ∧ flags ≠ sndmore from hflags)]
  rfl

/-- **`send_all`** sends the elements of its range. -/
theorem sendAll_sends (h : i?.getD 1 ≤ n?.getD msg.border) (hflags : Taken flags) :
    SendsAs (numbered (i?.getD 1)) z (sendParts false (BitVec.ofInt 32 flags)
      ((elems msg (n?.getD msg.border + 1 - i?.getD 1).toNat (i?.getD 1)).map ffiBytes) z.fates)
      (sendAll host msg flags i? n? z) := by
  have hlen : (n?.getD msg.border + 1 - i?.getD 1).toNat = (n?.getD msg.border - i?.getD 1).toNat + 1 := by
    omega
  have hneg : ¬(flags ≠ 0 ∧ flags ≠ sndmore) := fun hne => hne.2 (hflags.resolve_left hne.1)
  rw [sendAll]
  simp only [if_pos h, if_neg hneg, hlen]
  exact sendAllLoop_spec msg flags _ _ _ z (by omega)

/-- **`sendx`** and `sendx_more` send their arguments, and refuse to send none. -/
theorem sendx_sends {es : List (Elem N)} (hflags : Taken flags) (hes : es ≠ []) :
    SendsAs (numbered 1) z (sendParts false (BitVec.ofInt 32 flags) (es.map ffiBytes) z.fates)
      (sendAll host (packed es) flags (some 1) (some es.length) z) := by
  have hpos := List.length_pos_iff.mpr hes
  have hle : (some (1 : Int)).getD 1 ≤ (some (es.length : Int)).getD (packed es).border := by
    show (1 : Int) ≤ es.length
    omega
  have hsends := sendAll_sends host z hle hflags
  have hlen : ((some (es.length : Int)).getD (packed es).border + 1 - (some (1 : Int)).getD 1).toNat =
    es.length := by
    show ((es.length : Int) + 1 - 1).toNat = es.length
    omega
  rw [hlen] at hsends
  have helems : elems (packed es) es.length ((some (1 : Int)).getD 1) = es := elems_packed es
  rwa [helems] at hsends

end Call

end Lzmq.FfiSocket
