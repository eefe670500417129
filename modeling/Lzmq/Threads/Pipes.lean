/-
  `zthreads.fork`: a thread and the pipe to it (`threads.lua`).

  The parent binds a PAIR socket, passes the address to the thread that it makes, and the prelude of the thread
  connects a PAIR socket of its own with that address.  An address that is not given is made up: from the file
  descriptor of the socket and ten random letters, or by the system for `tcp`.

  libzmq is asked with its answers given (`Answers`), but for names.  The names of `inproc` are those of a
  context, the others those of the machine; a name that is in use is refused, except that `ipc` takes it over.
  A PAIR socket accepts one peer and rejects the others.  Threads that are connected stay it here.
-/
import Lzmq.Threads.Start
import Lzmq.Lib.Names
import Lzmq.Z85.Decode

namespace Lzmq.Threads

open Names (Holder Service)
open Z85 (cString)

/-! ## Addresses -/

/-- A name as libzmq keeps it. -/
structure Place where
  /-- the context of an `inproc` name -/
  ctx : Option Nat
  endpoint : Str
deriving DecidableEq, Repr

def place (ctx : Nat) (endpoint : Str) : Place where
  ctx := if (bytes "inproc://").isPrefixOf (cString endpoint) then some ctx else none
  endpoint := cString endpoint

/-- Names that a second socket can take over. -/
def Place.isIpc (k : Place) : Bool := (bytes "ipc://").isPrefixOf k.endpoint

/-- An address that libzmq has put together. -/
structure Resolved where
  str : Str
  text : 0 ∉ str

/-- `%w` -/
def isAlnum (c : UInt8) : Bool := (48 ≤ c && c ≤ 57) || (65 ≤ c && c ≤ 90) || (97 ≤ c && c ≤ 122)

/-- `split_transport`, with the pattern `^(%w+)://(.+)$` -/
def split_transport (ep : Str) : Str × Option Str :=
  let transport := ep.takeWhile isAlnum
  let rest := ep.dropWhile isAlnum
  if transport ≠ [] ∧ (bytes "://").isPrefixOf rest ∧ rest.drop 3 ≠ [] then (transport, some (rest.drop 3))
  else (ep, none)

/-- `rand_bytes`; `random` are the results of `math.random`. -/
def rand_bytes (random : Nat → UInt8) (n : Nat) : Str := (List.range n).map random

/-- How libzmq answers the calls that `fork` makes. -/
structure Answers where
  socket : Bool
  fd : Option Nat
  random : Nat → UInt8
  /-- the address of a wildcard -/
  bind : Option Resolved
  last_endpoint : Bool

/-- `create_local_pipe_address`; a nil in place of the descriptor is an error. -/
def create_local_pipe_address (a : Answers) : Option Str :=
  a.fd.map fun namespace_ => bytes "lzmq.pipe." ++ bytes (toString namespace_) ++ bytes "." ++ rand_bytes a.random 10

/-- `create_pipe_address`; `none` is an error. -/
def create_pipe_address (transport : Str) (a : Answers) : Option Str :=
  if transport = bytes "ipc" ∨ transport = bytes "inproc" then create_local_pipe_address a
  else if transport = bytes "tcp" then some (bytes "127.0.0.1:*")
  else none

/-- `create_pipe_endpoint` -/
def create_pipe_endpoint (transport address : Str) : Str := transport ++ bytes "://" ++ address

/-- `strip_trailing_null_char` -/
def strip_trailing_null_char (str : Str) : Str := if str.getLast? = some 0 then str.dropLast else str

/-! ## The child's prelude -/

/-- The side of a thread that runs its prelude: the sockets that accept a connection to a name, how the calls end,
    and the socket that has accepted the thread's pipe; a pipe that nobody accepts is connected as well. -/
structure Starting where
  find : Service Place
  outcomes : List Bool
  peer : Option (Option Nat)

/-- A call that returns `x` or fails. -/
def answer {α : Type} (x : α) : Starting → Except Unit α × Starting := fun s =>
  (if s.outcomes.headD true then .ok x else .error (), { s with outcomes := s.outcomes.tail })

/-- `zmq.assert(ctx:socket{zmq.PAIR, connect = endpoint})` -/
def pair (ctx endpoint : Value) : Starting → Except Unit Value × Starting := fun s =>
  match ctx, endpoint with
  | .ptr c, .str e =>
    if s.outcomes.headD true then
      (.ok (.pipe endpoint), { s with outcomes := s.outcomes.tail, peer := some (s.find (place c e)) })
    else (.error (), { s with outcomes := s.outcomes.tail })
  | _, _ => (.error (), s)

/-- A thread has a fresh Lua state, in which `set_context` can only fail when the initialisation has called it. -/
def childLib : ChildLib Value Starting where
  require _ := answer ()
  submodule v := v
  truthy v := v ≠ .nil
  init_ctx v := answer v
  set_context _ := answer ()
  pair := pair

/-! ## The parent -/

/-- A thread of `fork`, with the pipe that was returned with it. -/
structure Forked where
  thread : Thread Value
  pipe : Nat
  started : Bool
  peer : Option (Option Nat)

/-- The sockets of `make_pipe`, numbered in the order in which they were made, and the threads. -/
structure World where
  find : Service Place
  pipes : List (Holder Place)
  threads : List Forked

/-- A thread is started once.  It runs the function of `fork_starter` on its arguments. -/
def Forked.start (find : Service Place) (outcomes : List Bool) (t : Forked) : Forked :=
  if t.started then t
  else { t with started := true, peer := (forkBody .nil childLib t.thread.args ⟨find, outcomes, none⟩).2.peer }

/-- The socket has its peer. -/
def World.taken (w : World) (i : Nat) : Bool := w.threads.any fun t => t.peer = some (some i)

/-- The socket that accepts a connection to a name. -/
def World.accepts (w : World) : Service Place := fun k => (w.find k).filter fun i => !w.taken i

def World.init : World := ⟨fun _ => none, [], []⟩

/-- `zmq_bind`: the name that is bound, or `none`. -/
def World.zmq_bind (w : World) (ctx : Nat) (endpoint : Str) (answer : Option Resolved) : Option Place :=
  match answer with
  | none => none
  | some r =>
    let k := place ctx (if (bytes "inproc://").isPrefixOf (cString endpoint) then endpoint else r.str)
    if k.isIpc then some k
    else if w.find k = none then some k
    else none

/-- `zmq_close` -/
def World.close (w : World) (i : Nat) : World :=
  match w.pipes[i]? with
  | some h => { w with find := w.find.leave i, pipes := w.pipes.set i { h with left := true } }
  | none => w

/-- `opt.pipe` -/
inductive PipeOpt
  | unset
  | string (s : Str)
  | other
deriving DecidableEq, Repr

/-- The argument of `fork`: a table may have a field `pipe`. -/
structure ForkOpt (F : Type) where
  code : Code F
  pipe : PipeOpt

/-- `opt.pipe` after `opt = type(opt) == "table" and opt or {}` -/
def ForkOpt.pipeOpt {F : Type} (opt : ForkOpt F) : PipeOpt :=
  match opt.code with
  | .table _ => opt.pipe
  | .value _ => .unset

/-- The getter of the C binding counts the zero behind the text. -/
inductive Binding
  | c
  | ffi
deriving DecidableEq, Repr

def Binding.text (b : Binding) (s : Str) : Str :=
  match b with
  | .c => s ++ [0]
  | .ffi => s

/-- `ctx:socket(zmq.PAIR)`; `none` is nil. -/
def ctxSocket (a : Answers) : Lua World (Option Nat) := do
  if a.socket then do
    let w ← Lua.read id
    Lua.modify fun w => { w with pipes := w.pipes ++ [⟨none, false⟩] }
    pure (some w.pipes.length)
  else pure none

/-- A method is called on a value that may be nil. -/
def orRaise {α : Type} (x : Option α) : Lua World α :=
  match x with
  | some x => pure x
  | none => Lua.raise

/-- `pipe:bind` -/
def bind (ctx pipe : Nat) (endpoint : Str) (a : Answers) : Lua World Bool := do
  let w ← Lua.read id
  match w.zmq_bind ctx endpoint a.bind with
  | some k => do
    Lua.modify fun w => { w with find := w.find.take k pipe, pipes := w.pipes.set pipe ⟨some k, false⟩ }
    pure true
  | none => pure false

/-- `pipe:last_endpoint()` -/
def last_endpoint (b : Binding) (pipe : Nat) (a : Answers) : Lua World (Option Str) := do
  let w ← Lua.read id
  if a.last_endpoint then pure ((w.pipes[pipe]?.bind Holder.name).map fun k => b.text k.endpoint)
  else pure none

/-- `extract_endpoint` -/
def extract_endpoint (b : Binding) (pipe : Nat) (transport pipe_endpoint : Str) (a : Answers) : Lua World Str := do
  if transport = bytes "inproc" then pure pipe_endpoint
  else if transport = bytes "ipc" ∨ transport = bytes "tcp" then do
    let str ← orRaise (← last_endpoint b pipe a)
    pure (strip_trailing_null_char str)
  else Lua.raise

/-- `make_pipe` from the line on that completes the address; `none` is nil with an error. -/
def bind_pipe (b : Binding) (ctx : Nat) (pipe : Option Nat) (transport : Str) (address : Option Str) (a : Answers) :
    Lua World (Option (Nat × Str)) := do
  let address ← match address with
    | some address => pure address
    | none => do
      let _ ← orRaise pipe
      orRaise (create_pipe_address transport a)
  let pipe_endpoint := create_pipe_endpoint transport address
  let pipe ← orRaise pipe
  if ← bind ctx pipe pipe_endpoint a then do
    let endpoint ← extract_endpoint b pipe transport pipe_endpoint a
    pure (some (pipe, endpoint))
  else do
    Lua.modify fun w => w.close pipe
    pure none

/-- `make_pipe` -/
def make_pipe (b : Binding) (ctx : Nat) (opt : PipeOpt) (a : Answers) : Lua World (Option (Nat × Str)) := do
  let pipe ← ctxSocket a
  match opt with
  | .unset => bind_pipe b ctx pipe (bytes "inproc") none a
  | .string s => bind_pipe b ctx pipe (split_transport s).1 (split_transport s).2 a
  | .other => Lua.raise

section Fork

variable {W : Type} (L : Language Value W) (starter : L.Func) (p : Parent Value) (b : Binding)

/-- `zthreads.fork`: thread, pipe and endpoint; `none` is nil with an error.  `threads.new` returns no nil, so the
    pipe of a thread that could not be made stays open. -/
def fork (ctx : Nat) (opt : ForkOpt L.Func) (args : List Value) (a : Answers) :
    Lua World (Option (Thread Value × Nat × Str)) := do
  match ← make_pipe b ctx opt.pipeOpt a with
  | none => pure none
  | some (pipe, endpoint) =>
    match startWith L p starter opt.code (p.ZMQ_NAME :: .ptr ctx :: .str endpoint :: args) with
    | .error _ => Lua.raise
    | .ok thread => do
      Lua.modify fun w => { w with threads := w.threads ++ [⟨thread, pipe, false, none⟩] }
      pure (some (thread, pipe, endpoint))

/-- What can happen. -/
inductive Move (F : Type)
  | fork (ctx : Nat) (opt : ForkOpt F) (args : List Value) (answers : Answers)
  /-- a pipe is closed, by the program or by the collector -/
  | close (pipe : Nat)
  /-- thread `n` is started and runs its prelude, whose calls end as in `outcomes` -/
  | start (n : Nat) (outcomes : List Bool)

def step (w : World) : Move L.Func → Option World
  | .fork ctx opt args a => Lua.after (fork L starter p b ctx opt args a) w
  | .close pipe => some (w.close pipe)
  | .start n outcomes => some { w with threads := w.threads.modify n (Forked.start w.accepts outcomes) }

end Fork

end Lzmq.Threads
