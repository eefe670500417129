/-
  Option accessors of the C binding (`zsocket.c`, `zcontext.c`, `zmsg.c`).

  An option has an accessor of its own, which a macro generates from the constant of the option, and can be
  reached by a generic one, to which a script passes the constant.  Both end in one helper, and the helper
  reads its arguments at fixed slots.  So the arguments have to be in the same slots on both ways.

  They are for contexts, where the generated accessors insert the constant below the value, and for the
  getters of sockets, which have no arguments besides.  The generic setters of sockets leave the constant
  in slot 2, where the helper expects the value: the constant is set as the value of its own option.  And
  the getters of messages read the constant from slot 1, where the message is.
-/
import Lzmq.CApi.Values

namespace Lzmq.CApi

open Lzmq.CFunction
open Lzmq.LuaStack (Idx)

variable {N : Type} [LuaNumber N]

/-! ## The values of options -/

/-- The types of options that have generic accessors. -/
inductive OptType
  | int
  | i64
  | u64
  | str
deriving DecidableEq, Repr

/-- What `luaL_check…` and a cast make of a Lua value. -/
def OptType.check : OptType → Elem N → Option OptValue
  | .int, e => e.int.map .int
  | .i64, e => e.number.map fun x => .i64 (LuaNumber.toInt64 x)
  | .u64, e => e.number.map fun x => .u64 (LuaNumber.toUInt64 x)
  | .str, e => e.bytes.map .str

/-- `sizeof(option_value)` -/
def OptType.size : OptType → Nat
  | .int => 4
  | .i64 => 8
  | .u64 => 8
  | .str => 255

def littleEndian : List UInt8 → Nat
  | [] => 0
  | b :: bs => b.toNat + 256 * littleEndian bs

/-- `lua_push…` of what libzmq has stored. -/
def OptType.toLua : OptType → List UInt8 → Elem N
  | .int, bs => ofCInt (BitVec.ofNat 32 (littleEndian bs))
  | .i64, bs => .num (LuaNumber.ofReal (BitVec.ofNat 64 (littleEndian bs)).toInt)
  | .u64, bs => .num (LuaNumber.ofReal (BitVec.ofNat 64 (littleEndian bs)).toNat)
  | .str, bs => .str bs

/-! ## Sockets -/

/-- `luazmq_skt_set_##TYPE` -/
def sktSet (T : OptType) (optionName : CInt) : CCode N Nat := do
  luazmqGetsocket
  let optionValue ← checkArg T.check (.abs 2)
  if ← zmq (.setsockopt optionName optionValue) then luazmqPass else luazmqFail

def luazmqSktSetInt : CInt → CCode N Nat := sktSet .int

def luazmqSktSetU64 : CInt → CCode N Nat := sktSet .u64

def luazmqSktSetI64 : CInt → CCode N Nat := sktSet .i64

def luazmqSktSetStr : CInt → CCode N Nat := sktSet .str

/-- `luazmq_skt_get_##TYPE` -/
def sktGet (T : OptType) (optionName : CInt) : CCode N Nat := do
  luazmqGetsocket
  if ← zmq (.getsockopt optionName T.size) then do
    let z ← getEnv
    push (.elem (T.toLua (z.option optionName T.size)))
    pure 1
  else luazmqFail

def luazmqSktGetInt : CInt → CCode N Nat := sktGet .int

def luazmqSktGetU64 : CInt → CCode N Nat := sktGet .u64

def luazmqSktGetI64 : CInt → CCode N Nat := sktGet .i64

def luazmqSktGetStr : CInt → CCode N Nat := sktGet .str

/-- The setter that `DEFINE_SKT_OPT_WO` makes of an option. -/
def defineSktOptWo (T : OptType) (optname : CInt) : CCode N Nat := sktSet T optname

/-- The getter that `DEFINE_SKT_OPT_RO` makes of an option. -/
def defineSktOptRo (T : OptType) (optname : CInt) : CCode N Nat := sktGet T optname

/-- `luazmq_skt_setopt_##TYPE` -/
def sktSetopt (T : OptType) : CCode N Nat := do
  let optname ← luaLCheckint (.abs 2)
  sktSet T optname

def luazmqSktSetoptInt : CCode N Nat := sktSetopt .int

def luazmqSktSetoptI64 : CCode N Nat := sktSetopt .i64

def luazmqSktSetoptU64 : CCode N Nat := sktSetopt .u64

def luazmqSktSetoptStr : CCode N Nat := sktSetopt .str

/-- `luazmq_skt_getopt_##TYPE` but for strings -/
def sktGetopt (T : OptType) : CCode N Nat := do
  let optname ← luaLCheckint (.abs 2)
  sktGet T optname

def luazmqSktGetoptInt : CCode N Nat := sktGetopt .int

def luazmqSktGetoptI64 : CCode N Nat := sktGetopt .i64

def luazmqSktGetoptU64 : CCode N Nat := sktGetopt .u64

def luazmqSktGetoptStr : CCode N Nat := do
  let optname ← luaLCheckint (.abs 2)
  remove 2
  luazmqSktGetStr optname

/-- The generic getter of a type. -/
def OptType.getopt : OptType → CCode N Nat
  | .int => luazmqSktGetoptInt
  | .i64 => luazmqSktGetoptI64
  | .u64 => luazmqSktGetoptU64
  | .str => luazmqSktGetoptStr

/-! ## Contexts and messages -/

/-- A call of libzmq that returns an `int`, -1 when it fails. -/
def zmqInt (c : ZmqCall) (value : Zmq → CInt) : CCode N CInt := do
  if ← zmq c then do
    let z ← getEnv
    pure (value z)
  else pure (-1)

/-- What is made of the `int` that a getter has got. -/
def pushInt (ret : CInt) : CCode N Nat := do
  if ret = -1 then luazmqFail
  else do
    push (.elem (ofCInt ret))
    pure 1

def luazmqCtxSet : CCode N Nat := do
  luazmqGetcontext
  let optionName ← luaLCheckint (.abs 2)
  let optionValue ← luaLCheckint (.abs 3)
  if ← zmq (.ctxSet optionName optionValue) then luazmqPass else luazmqFail

def luazmqCtxGet : CCode N Nat := do
  luazmqGetcontext
  let optionName ← luaLCheckint (.abs 2)
  let ret ← zmqInt (.ctxGet optionName) fun z => z.ctxOption optionName
  pushInt ret

/-- `luazmq_ctx_set_##NAME` of `DEFINE_CTX_OPT` -/
def ctxSetOpt (optname : CInt) : CCode N Nat := do
  push (.elem (ofCInt optname))
  insert 2
  luazmqCtxSet

/-- `luazmq_ctx_get_##NAME` of `DEFINE_CTX_OPT` -/
def ctxGetOpt (optname : CInt) : CCode N Nat := do
  push (.elem (ofCInt optname))
  luazmqCtxGet

/-- `luazmq_msg_get`, which looks for its option in slot 1. -/
def luazmqMsgGet : CCode N Nat := do
  luazmqGetmessage
  let optname ← luaLCheckint (.abs 1)
  let err ← zmqInt (.msgGet optname) fun z => z.msgOption optname
  pushInt err

/-- `luazmq_msg_get_##NAME` of `DEFINE_MSG_OPT` -/
def msgGetOpt (optname : CInt) : CCode N Nat := do
  push (.elem (ofCInt optname))
  luazmqMsgGet

/-- What getting an option of a message is meant to do. -/
def readMsgOption (optname : CInt) : CCode N Nat := do
  let err ← zmqInt (.msgGet optname) fun z => z.msgOption optname
  pushInt err

/-! ## Accesses -/

/-- An access to an option of an open object, by a generic accessor or by a getter of a message. -/
inductive Access (N : Type)
  | setopt (T : OptType) (v : Val N)
  | getopt (T : OptType)
  | ctxSet (v : Val N)
  | ctxGet
  | msgGet
  | msgGetOpt

/-- The reply of a call and what it did to libzmq. -/
def seen (o : Option (Outcome (Val N) Zmq)) : Option (Reply (Val N) × Zmq) := o.map fun o => (o.reply, o.env)

/-- The accessor's call; `e` is the option as the script passes it. -/
def Access.run (id : CInt) (e : Elem N) : Access N → Zmq → Option (Outcome (Val N) Zmq)
  | .setopt T v => call (sktSetopt T) [.skt false, .elem e, v]
  | .getopt T => call T.getopt [.skt false, .elem e]
  | .ctxSet v => call luazmqCtxSet [.ctx false, .elem e, v]
  | .ctxGet => call luazmqCtxGet [.ctx false, .elem e]
  | .msgGet => call luazmqMsgGet [.msg false, .elem e]
  | .msgGetOpt => call (CApi.msgGetOpt id) [.msg false]

/-- What the access is meant to do: what the generated accessor does, and for messages `readMsgOption`. -/
def Access.meant (id : CInt) : Access N → Zmq → Option (Outcome (Val N) Zmq)
  | .setopt T v => call (defineSktOptWo T id) [.skt false, v]
  | .getopt T => call (defineSktOptRo T id) [.skt false]
  | .ctxSet v => call (ctxSetOpt id) [.ctx false, v]
  | .ctxGet => call (ctxGetOpt id) [.ctx false]
  | .msgGet => call (readMsgOption id) [.msg false]
  | .msgGetOpt => call (readMsgOption id) [.msg false]

/-- When it does that. -/
def Access.Works (e : Elem N) : Access N → Prop
  | .setopt T v => v.elem?.bind T.check = T.check e
  | .getopt _ => True
  | .ctxSet _ => True
  | .ctxGet => True
  | .msgGet => False
  | .msgGetOpt => False

/-! ## What the accessors leave to see -/

section Seen

variable {f : Frame (Val N) Zmq}

omit [LuaNumber N] in
theorem seen_luazmqPass : seen (outcome (luazmqPass f)) = some (.ret [.bool true], f.env) := rfl

omit [LuaNumber N] in
theorem seen_luazmqFail :
    seen (outcome (luazmqFail f)) = some (.ret [.elem .nil, .err f.env.errno], f.env) := rfl

/-- The reply of a setter. -/
def setReply (z : Zmq) (c : ZmqCall) : Reply (Val N) :=
  if z.fate = .ok then .ret [.bool true] else .ret [.elem .nil, .err (z.called c).errno]

/-- What a setter leaves to see; it raises an error for a value that does not convert. -/
def setSeen {α : Type} (c : α → ZmqCall) (z : Zmq) : Option α → Reply (Val N) × Zmq
  | some v => (setReply z (c v), z.called (c v))
  | none => (.raise, z)

/-- The reply of a getter of sockets. -/
def getReply (T : OptType) (id : CInt) (z : Zmq) : Reply (Val N) :=
  if z.fate = .ok then .ret [.elem (T.toLua ((z.called (.getsockopt id T.size)).option id T.size))]
  else .ret [.elem .nil, .err (z.called (.getsockopt id T.size)).errno]

/-- The reply of a getter that gets an `int`. -/
def intReply (z : Zmq) (ret : CInt) : Reply (Val N) :=
  if ret = -1 then .ret [.elem .nil, .err z.errno] else .ret [.elem (ofCInt ret)]

omit [LuaNumber N] in
theorem setReply_ne_raise (z : Zmq) (c : ZmqCall) : (setReply z c : Reply (Val N)) ≠ .raise := by
  rw [setReply]
  split <;> simp

theorem intReply_ne_raise (z : Zmq) (ret : CInt) : (intReply z ret : Reply (Val N)) ≠ .raise := by
  rw [intReply]
  split <;> simp

omit [LuaNumber N] in
theorem seen_set (c : ZmqCall) :
    seen (outcome ((do if ← zmq c then luazmqPass else luazmqFail : CCode N Nat) f)) =
      some (setReply f.env c, f.env.called c) := by
  rw [Lua.run_bind, run_zmq, Lua.andThen_ret, setReply]
  by_cases h : f.env.fate = .ok
  · simp only [h, decide_true, if_true, seen_luazmqPass]
  · simp [h, seen_luazmqFail]

theorem seen_getInt (c : ZmqCall) (value : Zmq → CInt) :
    seen (outcome ((zmqInt c value >>= pushInt : CCode N Nat) f)) =
      some (intReply (f.env.called c) (if f.env.fate = .ok then value (f.env.called c) else -1),
        f.env.called c) := by
  have hpush : ∀ (ret : CInt) (g : Frame (Val N) Zmq),
      seen (outcome (pushInt ret g)) = some (intReply g.env ret, g.env) := fun ret g => by
    by_cases hret : ret = -1
    · rw [pushInt, if_pos hret, intReply, if_pos hret, seen_luazmqFail]
    · rw [pushInt, if_neg hret, intReply, if_neg hret]
      rfl
  rw [Lua.run_bind, zmqInt, Lua.run_bind, run_zmq, Lua.andThen_ret]
  by_cases h : f.env.fate = .ok
  · simp only [h, decide_true, if_true, Lua.run_bind, run_getEnv, Lua.andThen_ret, Lua.run_pure, hpush]
  · simp [h, hpush]

/-- A setter of sockets takes its value from slot 2. -/
theorem seen_sktSet (T : OptType) (id : CInt) {v : Val N}
    (hskt : LuaStack.get f.stack (.abs 1) = some (.skt false))
    (hv : LuaStack.get f.stack (.abs 2) = some v) : seen (outcome (sktSet T id f)) =
      some (setSeen (.setsockopt id) f.env (v.elem?.bind T.check)) := by
  rw [sktSet, Lua.run_bind, run_luazmqGetsocket hskt, Lua.andThen_ret, Lua.run_bind,
    run_checkArg (f := f.reach 2) hv]
  cases v.elem?.bind T.check with
  | some ov => exact seen_set _
  | none => rfl

/-- A getter of sockets needs its socket only. -/
theorem seen_sktGet (T : OptType) (id : CInt) (hskt : LuaStack.get f.stack (.abs 1) = some (.skt false)) :
    seen (outcome (sktGet T id f)) =
      some (getReply T id f.env, f.env.called (.getsockopt id T.size)) := by
  rw [sktGet, Lua.run_bind, run_luazmqGetsocket hskt, Lua.andThen_ret, Lua.run_bind, run_zmq, Lua.andThen_ret,
    getReply, reach_env]
  by_cases h : f.env.fate = .ok
  · simp only [h, decide_true, if_true]
    rfl
  · simp [h, seen_luazmqFail]

theorem seen_luazmqCtxSet {e : Elem N} {id : CInt} {v : Val N} (he : e.int = some id)
    (hctx : LuaStack.get f.stack (.abs 1) = some (.ctx false))
    (hid : LuaStack.get f.stack (.abs 2) = some (.elem e)) (hv : LuaStack.get f.stack (.abs 3) = some v) :
    seen (outcome (luazmqCtxSet f)) = some (setSeen (.ctxSet id) f.env (v.elem?.bind Elem.int)) := by
  rw [luazmqCtxSet, Lua.run_bind, run_luazmqGetcontext hctx, Lua.andThen_ret, Lua.run_bind,
    run_luaLCheckint (f := f.reach 2) hid he, Lua.andThen_ret, Lua.run_bind, luaLCheckint,
    run_checkArg (f := f.reach 2) hv]
  cases v.elem?.bind Elem.int with
  | some i => exact seen_set _
  | none => rfl

theorem seen_luazmqCtxGet {e : Elem N} {id : CInt} (he : e.int = some id)
    (hctx : LuaStack.get f.stack (.abs 1) = some (.ctx false))
    (hid : LuaStack.get f.stack (.abs 2) = some (.elem e)) :
    seen (outcome (luazmqCtxGet f)) = some (intReply (f.env.called (.ctxGet id))
      (if f.env.fate = .ok then (f.env.called (.ctxGet id)).ctxOption id else -1),
        f.env.called (.ctxGet id)) := by
  rw [luazmqCtxGet, Lua.run_bind, run_luazmqGetcontext hctx, Lua.andThen_ret, Lua.run_bind,
    run_luaLCheckint (f := f.reach 2) hid he, Lua.andThen_ret]
  exact seen_getInt _ _

/-- A getter of messages asks its message for a number. -/
theorem seen_luazmqMsgGet (hmsg : LuaStack.get f.stack (.abs 1) = some (.msg false)) :
    seen (outcome (luazmqMsgGet f)) = some (.raise, f.env) := by
  rw [luazmqMsgGet, Lua.run_bind, run_luazmqGetmessage hmsg, Lua.andThen_ret, Lua.run_bind, luaLCheckint,
    run_checkArg (f := f.reach 2) hmsg]
  rfl

end Seen

/-! ## When the accessors agree -/

omit [LuaNumber N] in
/-- A setter that finds another value does something else. -/
theorem setSeen_inj {α : Type} {c : α → ZmqCall} (hc : ∀ v w, c v = c w → v = w) {z : Zmq} {a b : Option α} :
    (setSeen c z a : Reply (Val N) × Zmq) = setSeen c z b ↔ a = b := by
  refine ⟨fun h => ?_, fun h => by rw [h]⟩
  have hreply := congrArg Prod.fst h
  have hcalls := congrArg (fun r => Zmq.calls r.2) h
  cases a with
  | none =>
    cases b with
    | none => rfl
    | some w => exact absurd hreply.symm (setReply_ne_raise _ _)
  | some v =>
    cases b with
    | none => exact absurd hreply (setReply_ne_raise _ _)
    | some w =>
      simp only [setSeen, called_calls, List.append_cancel_left_eq, List.cons.injEq, and_true] at hcalls
      rw [hc v w hcalls]

/-- **Generic accessors** do what they are meant to do but for the setters of sockets, which do it when the
    value is the number of the option, and the getters of messages, which never do. -/
theorem access_iff (a : Access N) {e : Elem N} {id : CInt} (he : e.int = some id) (env : Zmq) :
    seen (a.run id e env) = seen (a.meant id env) ↔ a.Works e := by
  have hmsg : ∀ f g : Frame (Val N) Zmq, LuaStack.get f.stack (.abs 1) = some (.msg false) →
      seen (outcome (luazmqMsgGet f)) ≠ seen (outcome (readMsgOption id g)) := fun f g hf heq => by
    rw [seen_luazmqMsgGet hf, readMsgOption, seen_getInt] at heq
    exact intReply_ne_raise _ _ (congrArg Prod.fst (Option.some.inj heq)).symm
  cases a with
  | setopt T v =>
    have hrun := seen_sktSet T id (f := ⟨[v, .elem e, .skt false], 3, env⟩) (v := .elem e) rfl rfl
    have hmeant := seen_sktSet T id (f := ⟨[v, .skt false], 2, env⟩) (v := v) rfl rfl
    have hid : luaLCheckint (.abs 2) ⟨[v, .elem e, .skt false], 3, env⟩ = .ret id _ := run_luaLCheckint rfl he
    have hopt : seen (call (sktSetopt T) [.skt false, .elem e, v] env) =
        seen (outcome (sktSet T id ⟨[v, .elem e, .skt false], 3, env⟩)) :=
      congrArg (fun r => seen (outcome (Lua.andThen r (sktSet T)))) hid
    refine (Eq.congr (hopt.trans hrun) hmeant).trans ?_
    rw [Option.some.injEq, setSeen_inj fun v w h => (ZmqCall.setsockopt.inj h).2]
    exact eq_comm
  | getopt T =>
    refine iff_of_true ?_ trivial
    have hid : luaLCheckint (.abs 2) ⟨[.elem e, .skt false], 2, env⟩ = .ret id _ := run_luaLCheckint rfl he
    have hget : ∀ T, seen (outcome (sktGetopt T ⟨[.elem e, .skt false], 2, env⟩)) =
        seen (outcome (sktGet T id ⟨[.skt false], 1, env⟩)) := fun T => by
      rw [sktGetopt, Lua.run_bind, hid, Lua.andThen_ret, seen_sktGet T id rfl, seen_sktGet T id rfl]
    cases T with
    | int => exact hget .int
    | i64 => exact hget .i64
    | u64 => exact hget .u64
    | str =>
      show seen (outcome (luazmqSktGetoptStr ⟨[.elem e, .skt false], 2, env⟩)) = _
      rw [luazmqSktGetoptStr, Lua.run_bind, hid]
      rfl
  | ctxSet v =>
    refine iff_of_true ?_ trivial
    have hrun := seen_luazmqCtxSet (f := ⟨[v, .elem e, .ctx false], 3, env⟩) he rfl rfl rfl
    have hmeant := seen_luazmqCtxSet (f := ⟨[v, .elem (ofCInt id), .ctx false], 3, env⟩)
      (int_ofCInt id) rfl rfl rfl
    exact hrun.trans hmeant.symm
  | ctxGet =>
    refine iff_of_true ?_ trivial
    have hrun := seen_luazmqCtxGet (f := ⟨[.elem e, .ctx false], 2, env⟩) he rfl rfl
    have hmeant := seen_luazmqCtxGet (N := N) (f := ⟨[.elem (ofCInt id), .ctx false], 2, env⟩)
      (int_ofCInt id) rfl rfl
    exact hrun.trans hmeant.symm
  | msgGet =>
    exact iff_of_false (hmsg ⟨[.elem e, .msg false], 2, env⟩ ⟨[.msg false], 1, env⟩ rfl) not_false
  | msgGetOpt =>
    exact iff_of_false (hmsg ⟨[.elem (ofCInt id), .msg false], 2, env⟩ ⟨[.msg false], 1, env⟩ rfl) not_false

/-- Reading the type of a socket (16) with `getopt_int`, and setting its linger (17) to 17 with `setopt_int`. -/
theorem access_type :
    seen ((Access.getopt .int).run 16 (ofCInt 16 : Elem Int) Zmq.idle) =
      seen ((Access.getopt .int).meant 16 Zmq.idle) ∧
    seen ((Access.setopt .int (.elem (ofCInt 17))).run 17 (ofCInt 17 : Elem Int) Zmq.idle) =
      seen ((Access.setopt .int (.elem (ofCInt 17))).meant 17 Zmq.idle) :=
  ⟨(access_iff (.getopt .int) (int_ofCInt 16) Zmq.idle).mpr trivial,
    (access_iff (.setopt .int (.elem (ofCInt 17))) (int_ofCInt 17) Zmq.idle).mpr rfl⟩

/-- `skt:setopt_int(17, 0)` is to set the linger of a socket (17) to 0, and sets it to 17. -/
theorem linger_differs :
    seen ((Access.setopt .int (.elem (ofCInt 0))).run 17 (ofCInt 17 : Elem Int) Zmq.idle) ≠
    seen ((Access.setopt .int (.elem (ofCInt 0))).meant 17 Zmq.idle) := by
  intro h
  have hcalls := congrArg (Option.map fun r => r.2.calls) h
  revert hcalls
  decide

end Lzmq.CApi
