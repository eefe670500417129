/-
  The parent's side of a thread (`threads.lua`, and `new_thread`, `threads.new` of `llthreads/ex.lua`).

  The options of a thread pass through two places before the child sees them: `thread_opts` joins the user's
  prelude with the system's one, `threads.new` chooses the initialisation.  The system preludes are functions
  of `threads.lua` that run in the child; what they call there is the `ChildLib`.
-/
import Lzmq.Threads.Bootstrap

namespace Lzmq.Threads

/-! ## Options -/

/-- A function or source text. -/
inductive Chunk (F : Type)
  | func (f : F)
  | text (s : Str)
deriving DecidableEq, Repr

/-- What an option holds. -/
inductive Setting (F : Type)
  | nil
  | false
  | chunk (c : Chunk F)
deriving DecidableEq, Repr

section Setting

variable {F : Type}

/-- `a or b` -/
def Setting.or : Setting F → Setting F → Setting F
  | .nil, b => b
  | .false, b => b
  | .chunk c, _ => .chunk c

/-- `assert(a)` -/
def Setting.assert : Setting F → Except Unit (Chunk F)
  | .nil => .error ()
  | .false => .error ()
  | .chunk c => .ok c

end Setting

/-- The table that describes a thread, without `pipe`, which is only for `make_pipe`. -/
structure Options (F : Type) where
  /-- `code[1]` -/
  first : Setting F
  source : Setting F
  prelude : Setting F
  lua_init : Setting F
deriving DecidableEq, Repr

/-- The first argument of `threads.new`. -/
inductive Code (F : Type)
  | table (o : Options F)
  | value (v : Setting F)
deriving DecidableEq, Repr

/-- `run_starter` or `fork_starter` -/
structure Starter (F : Type) where
  prelude : Chunk F
  lua_init : Setting F

/-- Where the parent runs. -/
structure Parent (V : Type) where
  ZMQ_NAME : V
  luaMajor : Nat
  luaMinor : Nat
  getenv : String → Option Str

/-- `LUA_INIT` of `llthreads/ex.lua` -/
def Parent.LUA_INIT {V : Type} (p : Parent V) : Str :=
  let LUA_INIT_VER := if p.luaMajor = 5 ∧ p.luaMinor = 1 then none
    else some ("LUA_INIT" ++ "_" ++ toString p.luaMajor ++ "_" ++ toString p.luaMinor)
  ((LUA_INIT_VER.bind p.getenv).or (p.getenv "LUA_INIT")).getD []

variable {V W : Type} (L : Language V W)

/-- `if type(x) == "function" then x = string.dump(x) end` -/
def Chunk.dumped : Chunk L.Func → Str
  | .func f => L.dump f
  | .text s => s

/-- The same of an option; nil and false stay what they are, and the child cannot tell them apart. -/
def Setting.dumped : Setting L.Func → Option Str
  | .nil => none
  | .false => none
  | .chunk c => some (c.dumped L)

/-- `thread_opts` -/
def thread_opts : Code L.Func → Starter L.Func → Except Unit (Options L.Func)
  | .table code, opt => do
    let source ← (code.first.or code.source).assert
    let lua_init := code.lua_init.or opt.lua_init
    let prelude : Chunk L.Func :=
      match code.prelude.dumped L with
      | some user_prelude => .text (wrap L.quote user_prelude (opt.prelude.dumped L))
      | none => opt.prelude
    .ok { first := .nil, source := .chunk source, prelude := .chunk prelude, lua_init }
  | .value code, opt => do
    let source ← code.assert
    .ok { first := .nil, source := .chunk source, prelude := .chunk opt.prelude, lua_init := opt.lua_init }

/-- `new_thread` -/
def new_thread (lua_init prelude code : Setting L.Func) (args : List V) : Thread V where
  lua_init := lua_init.dumped L
  prelude := prelude.dumped L
  code := code.dumped L
  args := args

/-- `threads.new` -/
def threads_new (p : Parent V) : Code L.Func → List V → Except Unit (Thread V)
  | .table code, args => do
    let source ← (code.source.or code.first).assert
    let init := match code.lua_init with
      | .nil => .chunk (.text p.LUA_INIT)
      | init => init
    .ok (new_thread L init code.prelude (.chunk source) args)
  | .value code, args => do
    let code ← code.assert
    .ok (new_thread L (.chunk (.text p.LUA_INIT)) .nil (.chunk code) args)

/-! ## The system preludes -/

/-- What the system preludes call in the child. -/
structure ChildLib (V W : Type) where
  require : V → W → Except Unit Unit × W
  /-- `name .. ".threads"` -/
  submodule : V → V
  truthy : V → Bool
  init_ctx : V → W → Except Unit V × W
  set_context : V → W → Except Unit Unit × W
  /-- `zmq.assert(ctx:socket{zmq.PAIR, connect = endpoint})` -/
  pair : V → V → W → Except Unit V × W

section Preludes

variable (nil : V) (lib : ChildLib V W)

/-- The function of `run_starter`. -/
def runBody : Fn V W := fun args => (do
  let ZMQ_NAME := args.getD 0 nil
  let ctx := args.getD 1 nil
  lib.require ZMQ_NAME
  lib.require (lib.submodule ZMQ_NAME)
  if lib.truthy ctx then do
    let ctx ← lib.init_ctx ctx
    lib.set_context ctx
  pure (args.drop 2) : ExceptT Unit (StateM W) (List V))

/-- The function of `fork_starter`. -/
def forkBody : Fn V W := fun args => (do
  let ZMQ_NAME := args.getD 0 nil
  let ctx := args.getD 1 nil
  let endpoint := args.getD 2 nil
  lib.require ZMQ_NAME
  lib.require (lib.submodule ZMQ_NAME)
  if lib.truthy ctx && lib.truthy endpoint then do
    let ctx ← lib.init_ctx ctx
    lib.set_context ctx
    let pipe ← lib.pair ctx endpoint
    pure (pipe :: args.drop 3)
  else throw () : ExceptT Unit (StateM W) (List V))

/-- Code that returns has gone through each of its parts. -/
theorem ok_bind {α β : Type} {x : ExceptT Unit (StateM W) α} {f : α → ExceptT Unit (StateM W) β}
    {w w' : W} {b : β} (h : (x >>= f) w = (.ok b, w')) : ∃ a w₁, f a w₁ = (.ok b, w') := by
  have hrun : (x >>= f) w = (match x w with
      | (.ok a, w₁) => f a w₁
      | (.error e, w₁) => (.error e, w₁)) := by
    show (match x w with | (r, w₁) => ExceptT.bindCont f r w₁) = _
    cases x w with
    | mk r w₁ =>
      cases r with
      | ok a => rfl
      | error e => rfl
  rw [hrun] at h
  cases hx : x w with
  | mk r w₁ =>
    rw [hx] at h
    cases r with
    | ok a => exact ⟨a, w₁, h⟩
    | error e => cases h

/-- The prelude of `run` gives back the arguments. -/
theorem runBody_values {name ctx : V} {args vs : List V} {w w' : W}
    (h : runBody nil lib (name :: ctx :: args) w = (.ok vs, w')) : vs = args := by
  obtain ⟨_, _, h⟩ := ok_bind h
  obtain ⟨_, _, h⟩ := ok_bind h
  by_cases hctx : lib.truthy ctx
  · have hif : lib.truthy ((name :: ctx :: args).getD 1 nil) := hctx
    rw [if_pos hif] at h
    obtain ⟨_, _, h⟩ := ok_bind h
    obtain ⟨_, _, h⟩ := ok_bind h
    cases h
    rfl
  · have hif : ¬ lib.truthy ((name :: ctx :: args).getD 1 nil) := hctx
    rw [if_neg hif] at h
    cases h
    rfl

/-- The prelude of `fork` gives back a pipe and the arguments. -/
theorem forkBody_values {name ctx endpoint : V} {args vs : List V} {w w' : W}
    (h : forkBody nil lib (name :: ctx :: endpoint :: args) w = (.ok vs, w')) :
    ∃ pipe, vs = pipe :: args := by
  obtain ⟨_, _, h⟩ := ok_bind h
  obtain ⟨_, _, h⟩ := ok_bind h
  by_cases hgiven : (lib.truthy ctx && lib.truthy endpoint) = true
  · have hif : (lib.truthy ((name :: ctx :: endpoint :: args).getD 1 nil) &&
        lib.truthy ((name :: ctx :: endpoint :: args).getD 2 nil)) = true := hgiven
    rw [if_pos hif] at h
    obtain ⟨_, _, h⟩ := ok_bind h
    obtain ⟨_, _, h⟩ := ok_bind h
    obtain ⟨pipe, _, h⟩ := ok_bind h
    cases h
    exact ⟨pipe, rfl⟩
  · have hif : ¬ (lib.truthy ((name :: ctx :: endpoint :: args).getD 1 nil) &&
        lib.truthy ((name :: ctx :: endpoint :: args).getD 2 nil)) = true := hgiven
    rw [if_neg hif] at h
    cases h

end Preludes

/-- The functions that `threads.lua` dumps. -/
structure Starters (lib : ChildLib V W) where
  run : L.Func
  fork : L.Func
  run_run : L.run run = runBody L.nil lib
  run_fork : L.run fork = forkBody L.nil lib

/-- `run_starter`, `fork_starter`: tables with a prelude and nothing else. -/
def starter (f : L.Func) : Starter L.Func := ⟨.text (L.dump f), .nil⟩

/-- `Threads.new(thread_opts(opts, starter), ...)` -/
def startWith (p : Parent V) (f : L.Func) (code : Code L.Func) (args : List V) : Except Unit (Thread V) := do
  threads_new L p (.table (← thread_opts L code (starter L f))) args

variable {L} {lib : ChildLib V W}

/-- `zthreads.run`; `ctx` is the context's pointer, or nil. -/
def zthreads_run (S : Starters L lib) (p : Parent V) (ctx : V) (opts : Code L.Func) (args : List V) :
    Except Unit (Thread V) :=
  startWith L p S.run opts (p.ZMQ_NAME :: ctx :: args)

/-- `zthreads.fork` behind `make_pipe`, which gave an endpoint or failed. -/
def zthreads_fork (S : Starters L lib) (p : Parent V) (endpoint : Option V) (ctx : V) (opt : Code L.Func)
    (args : List V) : Except Unit (Option (Thread V)) :=
  match endpoint with
  | none => .ok none
  | some endpoint => do
    let thread ← startWith L p S.fork opt (p.ZMQ_NAME :: ctx :: endpoint :: args)
    .ok (some thread)

end Lzmq.Threads
