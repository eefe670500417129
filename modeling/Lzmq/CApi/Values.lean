/-
  What the C functions of the binding see: Lua values, libzmq, and the helpers of `lzmq.c` and `lzutils.c`.

  Numbers are a parameter, `LuaNumber`: which they are, and how they are read and written, depends on the
  version of Lua.  A table is one at integer keys; a table in a table is just another value of the wrong
  type.  Values that are not used by their content (metatables, functions) are `other`.

  libzmq is the record `Zmq`: the calls that have been made, and an oracle that says how the calls to come
  end.  Allocating the message for a part and sending it are two calls in C, which share one `Fate`.
-/
import Lzmq.Lib.CFunction
import Lzmq.Lib.Table
import Mathlib.Algebra.Group.Int.Defs

namespace Lzmq.CApi

open Lzmq.CFunction
open Lzmq.LuaStack (Idx)

/-! ## Values -/

/-- `int` -/
abbrev CInt := BitVec 32

/-- The integers that Lua has as numbers in all its versions, where a number may be a double. -/
def Exact (x : Int) : Prop := -2 ^ 53 ≤ x ∧ x ≤ 2 ^ 53

instance (x : Int) : Decidable (Exact x) := inferInstanceAs (Decidable (_ ∧ _))

/-- A whole number of Lua. -/
structure Whole where
  val : Int
  exact : Exact val

/-- Its cast to `int`. -/
def Whole.int (x : Whole) : CInt := BitVec.ofInt 32 x.val

/-- The numbers of Lua, as the API reads and makes them. -/
class LuaNumber (N : Type) where
  /-- `lua_pushinteger` -/
  ofInt : Int → N
  /-- `lua_pushnumber` of a 64-bit integer -/
  ofReal : Int → N
  /-- `luaL_checkint`; a number without an integer value may be refused. -/
  toInt : N → Option CInt
  /-- `(int64_t)`, `(uint64_t)` of `luaL_checknumber` -/
  toInt64 : N → BitVec 64
  toUInt64 : N → BitVec 64
  /-- `lua_tolstring` -/
  text : N → List UInt8
  /-- A string that reads as a number. -/
  parse : List UInt8 → Option N
  /-- The cast to `int` keeps the low bits. -/
  toInt_ofInt : ∀ x, Exact x → toInt (ofInt x) = some (BitVec.ofInt 32 x)
  ofInt_inj : ∀ x y, Exact x → Exact y → ofInt x = ofInt y → x = y
  text_ne : ∀ x, text x ≠ []

/-- A value in a table, or one that is passed as a part. -/
inductive Elem (N : Type)
  | nil
  | str (s : List UInt8)
  | num (x : N)
  | other
deriving DecidableEq, Repr

/-- A value on the Lua stack. -/
inductive Val (N : Type)
  | elem (e : Elem N)
  | bool (b : Bool)
  | table (t : LuaTable (Elem N))
  | skt (closed : Bool)
  | ctx (closed : Bool)
  | msg (closed : Bool)
  | err (errno : Nat)

variable {N : Type}

/-- A userdata of the binding. -/
def Val.isObject : Val N → Bool
  | .skt _ => true
  | .ctx _ => true
  | .msg _ => true
  | .err _ => true
  | _ => false

/-- `lua_rawgeti` of a table: what is missing is nil. -/
def getElem (t : LuaTable (Elem N)) (i : Int) : Elem N := (t.get i).getD .nil

/-- `luaL_checklstring`: strings, and numbers as strings. -/
def Elem.bytes [LuaNumber N] : Elem N → Option (List UInt8)
  | .str s => some s
  | .num x => some (LuaNumber.text x)
  | _ => none

/-- `luaL_checknumber` -/
def Elem.number [LuaNumber N] : Elem N → Option N
  | .num x => some x
  | .str s => LuaNumber.parse s
  | _ => none

/-- `luaL_checkint` -/
def Elem.int [LuaNumber N] (e : Elem N) : Option CInt := e.number.bind LuaNumber.toInt

def Val.elem? : Val N → Option (Elem N)
  | .elem e => some e
  | _ => none

/-- A number that Lua made of an `int`. -/
def ofCInt [LuaNumber N] (i : CInt) : Elem N := .num (LuaNumber.ofInt i.toInt)

theorem exact_toInt (i : CInt) : Exact i.toInt := by
  have hlow := BitVec.le_toInt i
  have hhigh := BitVec.toInt_lt (x := i)
  exact ⟨by omega, by omega⟩

@[simp] theorem int_ofCInt [LuaNumber N] (i : CInt) : (ofCInt i : Elem N).int = some i :=
  (LuaNumber.toInt_ofInt i.toInt (exact_toInt i)).trans (congrArg some BitVec.ofInt_toInt)

/-- The decimal text of an integer. -/
def decimal (x : Int) : List UInt8 :=
  (if x < 0 then [45] else []) ++ (Nat.toDigits 10 x.natAbs).map fun c => c.val.toUInt8

/-- Digits, read. -/
def digits (s : List UInt8) : Option Int :=
  if s ≠ [] ∧ s.all (fun b => 48 ≤ b && b ≤ 57) then some
    (s.foldl (fun n b => 10 * n + (b.toNat - 48 : Int)) 0)
  else none

/-- Integers are numbers. -/
instance : LuaNumber Int where
  ofInt := id
  ofReal := id
  toInt x := some (BitVec.ofInt 32 x)
  toInt64 x := BitVec.ofInt 64 x
  toUInt64 x := BitVec.ofInt 64 x
  text := decimal
  parse s := if s.head? = some 45 then (digits s.tail).map Neg.neg else digits s
  toInt_ofInt _ _ := rfl
  ofInt_inj _ _ _ _ h := h
  text_ne x h := by
    have hlen := congrArg List.length h
    have hpos := Nat.length_toDigits_pos (b := 10) (n := x.natAbs)
    rw [decimal, List.length_append, List.length_map, List.length_nil] at hlen
    omega

/-! ## libzmq -/

/-- The value of an option, as it is passed to libzmq. -/
inductive OptValue
  | int (v : CInt)
  | i64 (v : BitVec 64)
  | u64 (v : BitVec 64)
  | str (v : List UInt8)
deriving DecidableEq, Repr

inductive ZmqCall
  | send (data : List UInt8) (flags : CInt)
  | setsockopt (id : CInt) (v : OptValue)
  | getsockopt (id : CInt) (size : Nat)
  | ctxSet (id v : CInt)
  | ctxGet (id : CInt)
  | msgGet (id : CInt)
deriving DecidableEq, Repr

/-- How the next call ends; a part can fail to be sent because `zmq_msg_init_size` has no memory for it. -/
inductive Fate
  | ok
  | noMemory (errno : Nat)
  | fails (errno : Nat)
deriving DecidableEq, Repr

structure Zmq where
  calls : List ZmqCall
  /-- The fates of the next calls; beyond the list they succeed. -/
  fates : List Fate
  errno : Nat
  /-- The bytes that `zmq_getsockopt` stores in a buffer of some size. -/
  option : CInt → Nat → List UInt8
  ctxOption : CInt → CInt
  msgOption : CInt → CInt

/-- Nothing has been called, and everything will succeed. -/
def Zmq.idle : Zmq := ⟨[], [], 0, fun _ _ => [], fun _ => 0, fun _ => 0⟩

def Zmq.fate (z : Zmq) : Fate := z.fates.headD .ok

/-- A C function of the binding, or a part of one. -/
abbrev CCode (N α : Type) : Type := Lua (Frame (Val N) Zmq) α

/-- After a call. -/
def Zmq.done (z : Zmq) (c : ZmqCall) : Zmq := { z with calls := z.calls ++ [c], fates := z.fates.tail }

/-- The error of a call that fails. -/
def Zmq.failed (z : Zmq) (errno : Nat) : Zmq := { z with errno := errno }

/-- After a call that ends as its fate has it. -/
def Zmq.called (z : Zmq) (c : ZmqCall) : Zmq :=
  match z.fate with
  | .ok => z.done c
  | .noMemory e => (z.done c).failed e
  | .fails e => (z.done c).failed e

@[simp] theorem called_calls (z : Zmq) (c : ZmqCall) : (z.called c).calls = z.calls ++ [c] := by
  rw [Zmq.called]
  cases z.fate <;> rfl

@[simp] theorem called_fates (z : Zmq) (c : ZmqCall) : (z.called c).fates = z.fates.tail := by
  rw [Zmq.called]
  cases z.fate <;> rfl

/-- A call of libzmq that returns -1 or not. -/
def zmq (c : ZmqCall) : CCode N Bool := do
  let z ← getEnv
  match z.fate with
  | .ok => do
    setEnv (z.done c)
    pure true
  | .noMemory e => do
    setEnv ((z.done c).failed e)
    pure false
  | .fails e => do
    setEnv ((z.done c).failed e)
    pure false

/-- `zmq_msg_init_size` for the part that is sent next. -/
def zmqMsgInitSize : CCode N Bool := do
  let z ← getEnv
  match z.fate with
  | .noMemory e => do
    setEnv ({ z with fates := z.fates.tail }.failed e)
    pure false
  | _ => pure true

/-! ## Helpers of the binding -/

/-- `luazmq_checkudatap` on the value in slot 1: two metatables are compared on the stack. -/
def luazmqCheckudatap : CCode N (Val N) := do
  match ← slot (.abs 1) with
  | some v =>
    if v.isObject then do
      push (.elem .other)
      push (.elem .other)
      pop 2
      pure v
    else Lua.raise
  | none => Lua.raise

/-- `luazmq_getsocket` -/
def luazmqGetsocket : CCode N Unit := do
  match ← luazmqCheckudatap with
  | .skt false => pure ()
  | _ => Lua.raise

/-- `luazmq_getcontext` -/
def luazmqGetcontext : CCode N Unit := do
  match ← luazmqCheckudatap with
  | .ctx false => pure ()
  | _ => Lua.raise

/-- `luazmq_getmessage` -/
def luazmqGetmessage : CCode N Unit := do
  match ← luazmqCheckudatap with
  | .msg false => pure ()
  | _ => Lua.raise

/-- `luazmq_error_create`: the metatable is on the stack until it is set. -/
def luazmqErrorCreate (errno : Nat) : CCode N Unit := do
  push (.err errno)
  push (.elem .other)
  pop 1

/-- `luazmq_fail` -/
def luazmqFail : CCode N Nat := do
  let z ← getEnv
  push (.elem .nil)
  luazmqErrorCreate z.errno
  pure 2

/-- `luazmq_pass` -/
def luazmqPass : CCode N Nat := do
  push (.bool true)
  pure 1

variable [LuaNumber N]

/-- A value that `check` accepts; Lua raises an error for any other, in a stack of its own making. -/
def checkArg {α : Type} (check : Elem N → Option α) (i : Idx) : CCode N α := do
  match (← slot i).bind Val.elem? with
  | some e =>
    match check e with
    | some a => pure a
    | none => Lua.raise
  | none => Lua.raise

/-- `luaL_checklstring` -/
def luaLChecklstring (i : Idx) : CCode N (List UInt8) := checkArg Elem.bytes i

/-- `luaL_checkint` -/
def luaLCheckint (i : Idx) : CCode N CInt := checkArg Elem.int i

/-- `lua_isnoneornil` -/
def luaIsnoneornil (i : Idx) : CCode N Bool := do
  match ← slot i with
  | none => pure true
  | some (.elem .nil) => pure true
  | _ => pure false

/-- `luaL_optint` -/
def luaLOptint (i : Idx) (d : CInt) : CCode N CInt := do
  if ← luaIsnoneornil i then pure d else luaLCheckint i

/-- `lua_rawgeti`, on tables only -/
def luaRawgeti (i : Idx) (n : Int) : CCode N Unit := do
  match ← slot i with
  | some (.table t) => push (.elem (getElem t n))
  | _ => undefined

/-- `lua_objlen` of the values that `lua_rawgeti` is asked for. -/
def luaObjlen (i : Idx) : CCode N Nat := do
  match ← slot i with
  | some (.table t) => pure t.border
  | some (.elem (.str s)) => pure s.length
  | _ => pure 0

/-! ## Running them -/

section Run

variable {f : Frame (Val N) Zmq}

section Objects

omit [LuaNumber N]

/-- The two metatables are gone again, but they have been there. -/
theorem run_luazmqCheckudatap {v : Val N} (h : LuaStack.get f.stack (.abs 1) = some v) (hv : v.isObject) :
    luazmqCheckudatap f = .ret v (f.reach 2) := by
  simp [luazmqCheckudatap, h, hv, Frame.reach]

theorem run_zmq (c : ZmqCall) (f : Frame (Val N) Zmq) :
    zmq c f = .ret (f.env.fate = .ok) { f with env := f.env.called c } := by
  rw [zmq, Lua.run_bind, run_getEnv, Lua.andThen_ret, Zmq.called]
  cases f.env.fate <;> simp

theorem run_zmq_ok (c : ZmqCall) (h : f.env.fate = .ok) : zmq c f =
    .ret true { f with env := f.env.called c } := by
  rw [run_zmq, decide_eq_true h]

theorem run_zmq_fails (c : ZmqCall) (h : f.env.fate ≠ .ok) :
    zmq c f = .ret false { f with env := f.env.called c } := by
  rw [run_zmq, decide_eq_false h]

theorem run_luazmqGetsocket (h : LuaStack.get f.stack (.abs 1) = some (.skt false)) :
    luazmqGetsocket f = .ret () (f.reach 2) := by
  rw [luazmqGetsocket, Lua.run_bind, run_luazmqCheckudatap h rfl]
  rfl

theorem run_luazmqGetcontext (h : LuaStack.get f.stack (.abs 1) = some (.ctx false)) :
    luazmqGetcontext f = .ret () (f.reach 2) := by
  rw [luazmqGetcontext, Lua.run_bind, run_luazmqCheckudatap h rfl]
  rfl

theorem run_luazmqGetmessage (h : LuaStack.get f.stack (.abs 1) = some (.msg false)) :
    luazmqGetmessage f = .ret () (f.reach 2) := by
  rw [luazmqGetmessage, Lua.run_bind, run_luazmqCheckudatap h rfl]
  rfl

theorem run_luaRawgeti {i : Idx} {t : LuaTable (Elem N)} (h : LuaStack.get f.stack i = some (.table t))
    (n : Int) : luaRawgeti i n f = .ret () (f.push (.elem (getElem t n))) := by
  simp [luaRawgeti, h]

theorem run_checkArg {α : Type} {check : Elem N → Option α} {i : Idx} {v : Val N}
    (h : LuaStack.get f.stack i = some v) : checkArg check i f = match v.elem?.bind check with
      | some a => .ret a f
      | none => .raise f := by
  rw [checkArg, Lua.run_bind, run_slot, Lua.andThen_ret, h, Option.bind_some]
  cases v.elem? with
  | none => rfl
  | some e =>
    show (match check e with
      | some a => pure a
      | none => Lua.raise : CCode N α) f = _
    rw [Option.bind_some]
    cases check e <;> rfl

end Objects

theorem run_luaLChecklstring {i : Idx} {e : Elem N} (h : LuaStack.get f.stack i = some (.elem e)) :
    luaLChecklstring i f = match e.bytes with
      | some data => .ret data f
      | none => .raise f := by
  rw [luaLChecklstring, run_checkArg h, Val.elem?, Option.bind_some]
  cases e.bytes <;> rfl

theorem run_luaLCheckint {i : Idx} {e : Elem N} {v : CInt} (h : LuaStack.get f.stack i = some (.elem e))
    (hv : e.int = some v) : luaLCheckint i f = .ret v f := by
  rw [luaLCheckint, run_checkArg h]
  simp only [Val.elem?, Option.bind_some, hv]

end Run

end Lzmq.CApi
