/-
  String options of sockets, set and read again, in both bindings.

  libzmq stores two kinds of strings in the buffer of `zmq_getsockopt`: an identity as its bytes, and texts
  with a zero byte behind them that the size counts.  Each binding has one getter for both.  The one of the
  C binding returns all bytes that the size counts, so it returns a text with its zero byte; the one of
  the FFI binding returns one byte less, so it cuts off the last byte of an identity.
-/
import Lzmq.CApi.Options
import Lzmq.FfiSocket.Send

namespace Lzmq.StringOptions

open Lzmq.CApi
open Lzmq.CFunction (Reply call)
open Lzmq.FfiSocket (ffiBytes)

variable {N : Type} [LuaNumber N]

/-! ## The options -/

/-- The string options that can be written and read. -/
inductive StrOption
  | identity
  | plainUsername
  | plainPassword
  | zapDomain
deriving DecidableEq, Repr

/-- `ZMQ_IDENTITY` and so on -/
def StrOption.id : StrOption → CInt
  | .identity => 5
  | .plainUsername => 45
  | .plainPassword => 46
  | .zapDomain => 55

/-- A value that an option can have. -/
structure StrValue (o : StrOption) where
  bytes : List UInt8
  size : 1 ≤ bytes.length ∧ bytes.length ≤ 254
  text : o ≠ .identity → 0 ∉ bytes

variable {o : StrOption}

/-- What `zmq_getsockopt` stores for bytes that have been set. -/
def StrOption.stored (o : StrOption) (bytes : List UInt8) : List UInt8 :=
  if o = .identity then bytes else bytes ++ [0]

/-- The bytes that a call of `zmq_setsockopt` passes for the option. -/
def StrOption.passed (o : StrOption) : ZmqCall → Option (List UInt8)
  | .setsockopt id (.str bytes) => if id = o.id then some bytes else none
  | _ => none

/-- libzmq has kept what was passed for the option last. -/
def remember (o : StrOption) (z : Zmq) : Zmq :=
  { z with
    option := fun id size =>
      if id = o.id then ((z.calls.reverse.findSome? o.passed).map o.stored).getD (z.option id size)
      else z.option id size }

/-! ## The FFI binding -/

/-- `api.zmq_skt_setopt_str`: whether it does not return -1. -/
def zmqSktSetoptStr (option : CInt) (optval : Elem N) : Lua Zmq Bool := do
  match ffiBytes optval with
  | some s => do
    let z ← Lua.read id
    Lua.modify fun z => z.called (.setsockopt option (.str s))
    pure (z.fate = .ok)
  | none => Lua.raise

/-- `api.zmq_skt_getopt_str`; `none` for nil. -/
def zmqSktGetoptStr (option : CInt) : Lua Zmq (Option (List UInt8)) := do
  let len := 255
  let z ← Lua.read id
  Lua.modify fun z => z.called (.getsockopt option len)
  if z.fate = .ok then do
    let val ← Lua.read fun z => z.option option len
    let size := val.length
    if size > 0 then pure (some (val.take (size - 1))) else pure (some [])
  else pure none

/-- `nil, zerror()` -/
def nilZerror : Lua Zmq (List (Val N)) := do
  let errno ← Lua.read Zmq.errno
  pure [.elem .nil, .err errno]

/-- `Socket:setopt_str` of an open socket -/
def setoptStr (option : CInt) (value : Elem N) : Lua Zmq (List (Val N)) := do
  if ← zmqSktSetoptStr option value then pure [.bool true] else nilZerror

/-- `Socket:getopt_str` of an open socket -/
def getoptStr (option : CInt) : Lua Zmq (List (Val N)) := do
  match ← zmqSktGetoptStr option with
  | some val => pure [.elem (.str val)]
  | none => nilZerror

/-- The reply of a method, and libzmq after it. -/
def reply : Ending Zmq (List (Val N)) → Option (Reply (Val N) × Zmq)
  | .ret vs z => some (.ret vs, z)
  | .raise z => some (.raise, z)
  | .abort => none

/-! ## Both bindings -/

/-- The accessors of string options. -/
structure Binding (N : Type) where
  set : CInt → Elem N → Zmq → Option (Reply (Val N) × Zmq)
  get : CInt → Zmq → Option (Reply (Val N) × Zmq)

/-- `skt:set_identity(value)` and `skt:get_identity()`, and so on. -/
def cBinding : Binding N where
  set id value z := seen (call (defineSktOptWo .str id) [.skt false, .elem value] z)
  get id z := seen (call (defineSktOptRo .str id) [.skt false] z)

def ffiBinding : Binding N where
  set id value z := reply (setoptStr id value z)
  get id z := reply (getoptStr id z)

/-- After a set that has succeeded, a get that libzmq does not refuse returns what was set. -/
def RoundTrips (b : Binding N) (v : StrValue o) : Prop :=
  ∀ z z₁, b.set o.id (.str v.bytes) z = some (.ret [.bool true], z₁) → (remember o z₁).fate = .ok →
    ∃ z₂, b.get o.id (remember o z₁) = some (.ret [.elem (.str v.bytes)], z₂)

/-! ## What the setters pass, and the getters return -/

theorem called_option (z : Zmq) (c : ZmqCall) : (z.called c).option = z.option := by
  rw [Zmq.called]
  cases z.fate <;> rfl

/-- The call that sets a value. -/
def StrValue.call (v : StrValue o) : ZmqCall := .setsockopt o.id (.str v.bytes)

/-- What is stored after it. -/
theorem option_remember (z : Zmq) (v : StrValue o) (size : Nat) :
    (remember o (z.called v.call)).option o.id size = o.stored v.bytes := by
  have hlast : (z.called v.call).calls.reverse.findSome? o.passed = some v.bytes := by
    rw [called_calls, List.reverse_append, List.reverse_singleton, List.singleton_append]
    rw [List.findSome?_cons, show o.passed v.call = some v.bytes from if_pos rfl]
  refine (if_pos rfl).trans ?_
  rw [hlast]
  rfl

/-- There is something to be stored, and the buffer has room for it. -/
theorem StrValue.length_stored (v : StrValue o) :
    0 < (o.stored v.bytes).length ∧ (o.stored v.bytes).length ≤ OptType.str.size := by
  have hsize := v.size
  unfold StrOption.stored
  split
  · exact ⟨hsize.1, Nat.le_trans hsize.2 (by decide)⟩
  · rw [List.length_append]
    exact ⟨Nat.succ_pos _, Nat.succ_le_succ hsize.2⟩

/-- A setter passes the value, and replies as libzmq does. -/
theorem cBinding_set (v : StrValue o) (z : Zmq) : (cBinding : Binding N).set o.id (.str v.bytes) z =
    some (setReply z v.call, z.called v.call) :=
  seen_sktSet .str o.id (f := ⟨[.elem (.str v.bytes), .skt false], 2, z⟩) (v := .elem (.str v.bytes)) rfl rfl

omit [LuaNumber N] in
theorem ffiBinding_set (v : StrValue o) (z : Zmq) : (ffiBinding : Binding N).set o.id (.str v.bytes) z =
    some (setReply z v.call, z.called v.call) := by
  rw [setReply]
  by_cases h : z.fate = .ok
  · simp [ffiBinding, setoptStr, zmqSktSetoptStr, ffiBytes, h, reply, StrValue.call]
  · simp [ffiBinding, setoptStr, zmqSktSetoptStr, ffiBytes, h, reply, nilZerror, StrValue.call]

theorem cBinding_get (v : StrValue o) {z : Zmq} (h : (remember o (z.called v.call)).fate = .ok) :
    (cBinding : Binding N).get o.id (remember o (z.called v.call)) =
      some (.ret [.elem (.str (o.stored v.bytes))],
        (remember o (z.called v.call)).called (.getsockopt o.id OptType.str.size)) := by
  refine (seen_sktGet .str o.id (f := ⟨[.skt false], 1, remember o (z.called v.call)⟩) rfl).trans ?_
  rw [getReply, if_pos h, called_option, option_remember]
  rfl

omit [LuaNumber N] in
theorem ffiBinding_get (v : StrValue o) {z : Zmq} (h : (remember o (z.called v.call)).fate = .ok) :
    (ffiBinding : Binding N).get o.id (remember o (z.called v.call)) =
      some (.ret [.elem (.str ((o.stored v.bytes).take ((o.stored v.bytes).length - 1)))],
        (remember o (z.called v.call)).called (.getsockopt o.id 255)) := by
  have hval : ((remember o (z.called v.call)).called (.getsockopt o.id 255)).option o.id 255 =
      o.stored v.bytes := by
    rw [called_option, option_remember]
  have hpos := v.length_stored.1
  simp [ffiBinding, getoptStr, zmqSktGetoptStr, h, hval, hpos, reply]

omit [LuaNumber N] in
/-- So it is what the getter makes of the stored bytes that decides. -/
theorem roundTrips_iff {b : Binding N} {v : StrValue o} {result : List UInt8}
    (hset : ∀ z, b.set o.id (.str v.bytes) z = some (setReply z v.call, z.called v.call))
    (hget : ∀ z : Zmq, (remember o (z.called v.call)).fate = .ok →
      ∃ z₂, b.get o.id (remember o (z.called v.call)) = some (.ret [.elem (.str result)], z₂)) :
    RoundTrips b v ↔ result = v.bytes := by
  constructor
  · intro h
    obtain ⟨z₂, hz₂⟩ := h Zmq.idle _ (hset Zmq.idle) rfl
    obtain ⟨z₂', hz₂'⟩ := hget Zmq.idle rfl
    cases hz₂'.symm.trans hz₂
    rfl
  · rintro rfl z z₁ hz₁ hfate
    obtain ⟨-, rfl⟩ := Prod.mk.inj (Option.some.inj ((hset z).symm.trans hz₁))
    exact hget z hfate

/-! ## The round trips -/

/-- The C binding keeps the zero byte of a text. -/
theorem cBinding_roundTrips_iff (v : StrValue o) : RoundTrips (cBinding : Binding N) v ↔ o = .identity := by
  rw [roundTrips_iff (cBinding_set v) fun z h => ⟨_, cBinding_get v h⟩, StrOption.stored]
  by_cases ho : o = .identity
  · rw [if_pos ho]
    exact iff_of_true rfl ho
  · rw [if_neg ho]
    exact iff_of_false (by simp) ho

omit [LuaNumber N] in
/-- The FFI binding loses the last byte of an identity. -/
theorem ffiBinding_roundTrips_iff (v : StrValue o) :
    RoundTrips (ffiBinding : Binding N) v ↔ o ≠ .identity := by
  rw [roundTrips_iff (ffiBinding_set v) fun z h => ⟨_, ffiBinding_get v h⟩, StrOption.stored]
  by_cases ho : o = .identity
  · have hlen := v.size.1
    rw [if_pos ho]
    refine iff_of_false (fun heq => ?_) (fun hne => hne ho)
    have := congrArg List.length heq
    rw [List.length_take] at this
    omega
  · rw [if_neg ho]
    refine iff_of_true ?_ ho
    rw [List.length_append, List.length_singleton, Nat.add_sub_cancel, List.take_left]

/-- **String options round trip, exactly when**: in the C binding the identity does, in the FFI binding the
    texts do. -/
theorem string_option_roundTrips (N : Type) [LuaNumber N] (o : StrOption) (v : StrValue o) :
    (RoundTrips (cBinding : Binding N) v ↔ o = .identity) ∧
    (RoundTrips (ffiBinding : Binding N) v ↔ o ≠ .identity) :=
  ⟨cBinding_roundTrips_iff v, ffiBinding_roundTrips_iff v⟩

/-- The user name "u" in the C binding, and the identity "id" in the FFI binding. -/
theorem string_option_differs :
    ¬ RoundTrips (cBinding : Binding Int) (⟨[117], by decide, by decide⟩ : StrValue .plainUsername) ∧
    ¬ RoundTrips (ffiBinding : Binding Int) (⟨[105, 100], by decide, by decide⟩ : StrValue .identity) := by
  constructor
  · intro h
    cases (cBinding_roundTrips_iff _).mp h
  · exact fun h => (ffiBinding_roundTrips_iff _).mp h rfl

end Lzmq.StringOptions
