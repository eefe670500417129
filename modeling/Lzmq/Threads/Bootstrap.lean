/-
  How a child thread starts (`bootstrap_code` of `llthreads/ex.lua`).

  The child is a fresh Lua state.  It gets three chunks as text (`lua_init`, `prelude`, `code`) and the
  arguments; it runs the first one, passes the arguments through the second one and calls the third one with
  what comes out.  What Lua itself does with chunks (`string.dump`, `%q`, `loadstring`, `loadfile`) is the
  `Language`, with the rules that `threads.lua` relies on as its fields.

  The child's state has a log beside it.  It notes the initialisation text the child turns to and the values
  that the source is called with; no code of the child reads it.
-/
import Lzmq.Lib.Lua
import Mathlib.Data.List.GetD

namespace Lzmq.Threads

/-- A Lua string. -/
abbrev Str := List UInt8

def bytes (s : String) : Str := s.toUTF8.data.toList

/-- A Lua function: it changes the child's state `W` and returns values or raises an error. -/
abbrev Fn (V W : Type) := List V → W → Except Unit (List V) × W

/-! ## Argument tables -/

/-- A table with a field `n`, read at the integers. -/
structure ArgTable (V : Type) where
  n : Nat
  get : Nat → V

section Args

variable {V : Type}

/-- `{ n = select("#", ...), ... }` -/
def pack_n (nil : V) (vs : List V) : ArgTable V where
  n := vs.length
  get i := if i = 0 then nil else vs.getD (i - 1) nil

/-- `unpack(t, 1, t.n)` -/
def unpack_n (t : ArgTable V) : List V := (List.range t.n).map fun i => t.get (i + 1)

/-- `t[0] = v` -/
def ArgTable.setZero (t : ArgTable V) (v : V) : ArgTable V :=
  { t with get := fun i => if i = 0 then v else t.get i }

/-- **No value is lost**: neither a nil in the middle nor one at the end. -/
theorem unpack_pack (nil v : V) (vs : List V) : unpack_n ((pack_n nil vs).setZero v) = vs := by
  rw [unpack_n]
  apply List.ext_getElem
  · rw [List.length_map, List.length_range]
    rfl
  · intro i hi hi'
    rw [List.getElem_map, List.getElem_range]
    show (if i + 1 = 0 then v else if i + 1 = 0 then nil else vs.getD (i + 1 - 1) nil) = vs[i]
    rw [if_neg (Nat.succ_ne_zero i), if_neg (Nat.succ_ne_zero i), Nat.add_sub_cancel,
      List.getD_eq_getElem vs nil hi']

end Args

/-! ## The language -/

/-- The template of `thread_opts`, up to its first `%q`, between the two, and behind them. -/
def wrapStart : Str :=
  bytes "        local loadstring = loadstring or load\n        local prelude1 = loadstring("

def wrapMiddle : Str := bytes ")\n        local prelude2 = loadstring("

def wrapEnd : Str := bytes ")\n        return prelude1(prelude2(...))\n      "

/-- The text that `thread_opts` generates for a user's prelude `p` and a system prelude `s`. -/
def wrap (quote : Str → Str) (p s : Str) : Str :=
  wrapStart ++ (quote p ++ (wrapMiddle ++ (quote s ++ wrapEnd)))

/-- `prelude1(prelude2(...))` for what `loadstring` has made of the two: the inner call comes first, and a nil
is only an error once it is called. -/
def composed {V W : Type} (prelude1 prelude2 : Option (Fn V W)) : Fn V W := fun args w =>
  match prelude2 with
  | none => (.error (), w)
  | some s =>
    match s args w with
    | (.error e, w) => (.error e, w)
    | (.ok vs, w) =>
      match prelude1 with
      | none => (.error (), w)
      | some p => p vs w

/-- What the threads need of Lua.  `Func` are the functions that `string.dump` takes, `setArg` is the
assignment to the global `arg`. -/
structure Language (V W : Type) where
  Func : Type
  run : Func → Fn V W
  dump : Func → Str
  loadstring : Str → Option (Fn V W)
  loadfile : Str → W → Option (Fn V W)
  quote : Str → Str
  nil : V
  str : Str → V
  setArg : ArgTable V → W → W
  /-- a binary chunk starts with ESC -/
  dump_head : ∀ f, (dump f).take 1 = [27]
  loadstring_dump : ∀ f, loadstring (dump f) = some (run f)
  loadstring_wrap : ∀ p s, loadstring (wrap quote p s) = some (composed (loadstring p) (loadstring s))

/-! ## The child -/

inductive Event (V : Type)
  | init (text : Str)
  | source (text : Str) (args : List V)
deriving DecidableEq, Repr

/-- The child's state and what it has begun, the latest last. -/
structure Child (V W : Type) where
  log : List (Event V)
  host : W

/-- What `llthreads.new` keeps for the child; nil and false are `none`. -/
structure Thread (V : Type) where
  lua_init : Option Str
  prelude : Option Str
  code : Option Str
  args : List V

section Child

variable {V W : Type}

def note (e : Event V) : Lua (Child V W) Unit := Lua.modify fun s => { s with log := s.log ++ [e] }

/-- A call of a Lua function. -/
def invoke (f : Fn V W) (args : List V) : Lua (Child V W) (List V) := fun s =>
  match f args s.host with
  | (.ok vs, w) => .ret vs { s with host := w }
  | (.error _, w) => .raise { s with host := w }

/-- `assert(f)` of a function that may be nil -/
def assertFn (f : Option (Fn V W)) : Lua (Child V W) (Fn V W) :=
  match f with
  | some f => pure f
  | none => Lua.raise

variable (L : Language V W)

/-- `load_src` -/
def load_src (str : Str) : Lua (Child V W) (Fn V W × Str) :=
  if str.take 1 = bytes "@" then do
    let n := str.drop 1
    let f ← assertFn (L.loadfile n (← Lua.read Child.host))
    pure (f, n)
  else do
    let f ← assertFn (L.loadstring str)
    pure (f, bytes "=(loadstring)")

/-- `x and #x > 0` -/
def given (x : Option Str) : Option Str := x.filter fun s => 0 < s.length

/-- The first part of `bootstrap_code`. -/
def runInit (lua_init : Option Str) : Lua (Child V W) Unit :=
  match given lua_init with
  | some lua_init => do
    note (.init lua_init)
    let (init, _) ← load_src L lua_init
    let _ ← invoke init []
  | none => pure ()

/-- The second part: what becomes of the arguments. -/
def runPrelude (prelude : Option Str) (args : List V) : Lua (Child V W) (ArgTable V) :=
  match given prelude with
  | some prelude => do
    let (prelude, _) ← load_src L prelude
    let vs ← invoke prelude args
    pure (pack_n L.nil vs)
  | none => pure (pack_n L.nil args)

/-- `str:sub` of nil is an error. -/
def assertText (x : Option Str) : Lua (Child V W) Str :=
  match x with
  | some s => pure s
  | none => Lua.raise

/-- The third part: the source. -/
def runCode (code : Option Str) (args : ArgTable V) : Lua (Child V W) (List V) := do
  let code ← assertText code
  let (func, n) ← load_src L code
  let args := args.setZero (L.str n)
  Lua.modify fun s => { s with host := L.setArg args s.host }
  note (.source code (unpack_n args))
  invoke func (unpack_n args)

/-- `bootstrap_code` -/
def bootstrap (t : Thread V) : Lua (Child V W) (List V) := do
  runInit L t.lua_init
  let args ← runPrelude L t.prelude t.args
  runCode L t.code args

/-- A thread that is started in the state `w`. -/
def Thread.start (t : Thread V) (w : W) : Ending (Child V W) (List V) := bootstrap L t ⟨[], w⟩

end Child

end Lzmq.Threads
