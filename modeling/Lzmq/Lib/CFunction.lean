/-
  C functions called from Lua.

  A C function finds its arguments on a Lua stack of its own, works on that stack and returns how many of
  the values on top are its results.  Lua guarantees room for the arguments and LUA_MINSTACK values more
  and does not check any further, so the frame of a call records its `peak`: the most values there have
  been on the stack at one time.

  The values and what is outside of Lua (`env`) are parameters.  `outcome` is what a call leaves to see: the
  values it returns or the error, the outside, and the peak.
-/
import Lzmq.Lib.Lua
import Lzmq.Lib.LuaStack

namespace Lzmq.CFunction

open Lzmq.LuaStack (Idx)

variable {V E : Type}

/-- The frame of a C function; the top of the stack comes first. -/
structure Frame (V E : Type) where
  stack : List V
  peak : Nat
  env : E
deriving DecidableEq, Repr

/-- `LUA_MINSTACK` -/
def luaMinstack : Nat := 20

/-- A frame with one value more. -/
def Frame.push (f : Frame V E) (v : V) : Frame V E :=
  { f with stack := v :: f.stack, peak := max f.peak (f.stack.length + 1) }

/-- A frame that has had `n` values more for a time. -/
def Frame.reach (f : Frame V E) (n : Nat) : Frame V E := { f with peak := max f.peak (f.stack.length + n) }

/-! ## The API -/

/-- Code that has no defined behaviour. -/
def undefined {α : Type} : Lua (Frame V E) α := fun _ => .abort

/-- `lua_push…` -/
def push (v : V) : Lua (Frame V E) Unit := Lua.modify fun f => f.push v

/-- `lua_pop` -/
def pop (n : Nat) : Lua (Frame V E) Unit := Lua.modify fun f => { f with stack := f.stack.drop n }

def slot (i : Idx) : Lua (Frame V E) (Option V) := Lua.read fun f => LuaStack.get f.stack i

/-- `lua_gettop` -/
def gettop : Lua (Frame V E) Nat := Lua.read fun f => f.stack.length

/-- `lua_insert` with a positive index -/
def insert (n : Nat) : Lua (Frame V E) Unit := Lua.modify fun f =>
  { f with stack := LuaStack.insert (f.stack.length + 1 - n) f.stack }

/-- `lua_remove` with a positive index -/
def remove (n : Nat) : Lua (Frame V E) Unit := Lua.modify fun f =>
  { f with stack := f.stack.eraseIdx (f.stack.length - n) }

def getEnv : Lua (Frame V E) E := Lua.read Frame.env

def setEnv (env : E) : Lua (Frame V E) Unit := Lua.modify fun f => { f with env := env }

/-! ## Calls -/

/-- What a call returns. -/
inductive Reply (V : Type)
  | ret (values : List V)
  | raise
deriving DecidableEq, Repr

structure Outcome (V E : Type) where
  reply : Reply V
  env : E
  peak : Nat
deriving DecidableEq, Repr

/-- What there is to see of a finished call; nothing when its behaviour is undefined. -/
def outcome : Ending (Frame V E) Nat → Option (Outcome V E)
  | .ret n f => some ⟨.ret (LuaStack.results n f.stack), f.env, f.peak⟩
  | .raise f => some ⟨.raise, f.env, f.peak⟩
  | .abort => none

/-- A call with arguments. -/
def call (x : Lua (Frame V E) Nat) (args : List V) (env : E) : Option (Outcome V E) :=
  outcome (x ⟨args.reverse, args.length, env⟩)

/-! ## Running code -/

section Run

variable (f : Frame V E)

@[simp] theorem push_stack (v : V) : (f.push v).stack = v :: f.stack := rfl

@[simp] theorem push_peak (v : V) : (f.push v).peak = max f.peak (f.stack.length + 1) := rfl

@[simp] theorem push_env (v : V) : (f.push v).env = f.env := rfl

@[simp] theorem reach_stack (n : Nat) : (f.reach n).stack = f.stack := rfl

@[simp] theorem reach_env (n : Nat) : (f.reach n).env = f.env := rfl

@[simp] theorem run_push (v : V) : push v f = .ret () (f.push v) := rfl

@[simp] theorem run_pop (n : Nat) : pop n f = .ret () { f with stack := f.stack.drop n } := rfl

@[simp] theorem run_slot (i : Idx) : slot i f = .ret (LuaStack.get f.stack i) f := rfl

@[simp] theorem run_gettop : gettop f = .ret f.stack.length f := rfl

@[simp] theorem run_insert (n : Nat) :
    insert n f = .ret () { f with stack := LuaStack.insert (f.stack.length + 1 - n) f.stack } := rfl

@[simp] theorem run_remove (n : Nat) :
    remove n f = .ret () { f with stack := f.stack.eraseIdx (f.stack.length - n) } := rfl

@[simp] theorem run_getEnv : getEnv f = .ret f.env f := rfl

@[simp] theorem run_setEnv (env : E) : setEnv env f = .ret () { f with env := env } := rfl

@[simp] theorem run_undefined {α : Type} : (undefined : Lua (Frame V E) α) f = .abort := rfl

@[simp] theorem outcome_ret (n : Nat) :
    outcome (.ret n f) = some ⟨.ret (LuaStack.results n f.stack), f.env, f.peak⟩ := rfl

@[simp] theorem outcome_raise : outcome (.raise f : Ending _ Nat) = some ⟨.raise, f.env, f.peak⟩ := rfl

@[simp] theorem outcome_abort : outcome (.abort : Ending (Frame V E) Nat) = none := rfl

end Run

end Lzmq.CFunction
