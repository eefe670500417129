/-
  The constructor of sockets in the C binding: `ctx:socket` (`luazmq_ctx_socket` in `zcontext.c`).

  The constructor opens a handle, wraps it in an object and then runs through the option table of its
  caller: every string key that names a setter has the setter called, then `bind` and `connect` are, each
  with a value or a list of them.  Any of the libzmq calls behind that can fail, and a value of the wrong
  type raises a Lua error.  All of it happens on the Lua stack, with slots named from both ends, so the
  code is modelled slot by slot.

  Each method it calls has a stack of its own, with room for LUA_MINSTACK values.  One of them,
  `luazmq_skt_set_str_arr`, pushes the elements of its list and pops none; the `Log` of a call records
  whether that has gone beyond the room.

  What is left to the outside is an `Env`: which calls of libzmq fail, how Lua reads a number from a string,
  and the options libzmq was built with.
-/
import Lzmq.CContext.World
import Lzmq.Lib.CFunction

namespace Lzmq.CContext

open Lzmq.LuaStack (Idx)
open Lzmq.CFunction (luaMinstack)

/-! ## Values -/

/-- An element of a list of addresses or of option values. -/
inductive Elem
  | str (s : String)
  | num (n : Int)
  | other
deriving DecidableEq, Repr

/-- A Lua value as it stands in an option table. -/
inductive OptVal
  | bool (b : Bool)
  | num (n : Int)
  | str (s : String)
  | list (l : List Elem)
  | other
deriving DecidableEq, Repr

def Elem.val : Elem → OptVal
  | .str s => .str s
  | .num n => .num n
  | .other => .other

/-- The entries of a table, in the order in which `lua_next` goes through them. -/
abbrev Entries := List (OptVal × OptVal)

/-- The type in `DEFINE_SKT_OPT_…` -/
inductive OptType
  | int
  | u64
  | i64
  | str
  | strArr
  | fdt
deriving DecidableEq, Repr

/-- The methods the constructor calls. -/
inductive Method
  | option (name : String) (type : OptType)
  | bind
  | connect
  | close
  | autoclose
deriving DecidableEq, Repr

inductive Val
  | nil
  | lua (v : OptVal)
  | table (entries : Entries)
  | ctx
  | skt (i : Nat)
  | method (m : Method)
  | err (errno : Nat)
deriving DecidableEq, Repr

/-- What libzmq is asked for. -/
inductive ZmqCall
  | socket
  | setsockopt (skt : Nat) (name : String) (value : OptVal)
  | bind (skt : Nat) (addr : String)
  | connect (skt : Nat) (addr : String)
deriving DecidableEq, Repr

/-- `fails n` is the errno of the n-th libzmq call of the constructor, if that call fails. -/
structure Env where
  fails : Nat → Option Nat
  toNumber : String → Option Int
  defined : String → Bool

/-! ## The methods of a socket -/

/-- The options with a setter, by type. -/
def intOptions : List String :=
  ["rate", "recovery_ivl", "sndbuf", "rcvbuf", "linger", "reconnect_ivl", "backlog", "reconnect_ivl_max",
   "sndhwm", "rcvhwm", "multicast_hops", "rcvtimeo", "sndtimeo", "ipv4only", "router_mandatory",
   "tcp_keepalive", "tcp_keepalive_cnt", "tcp_keepalive_idle", "tcp_keepalive_intvl", "immediate",
   "delay_attach_on_connect", "xpub_verbose", "router_raw", "ipv6", "plain_server", "curve_server",
   "probe_router", "req_correlate", "req_relaxed", "conflate", "router_handover", "tos", "ipc_filter_pid",
   "ipc_filter_uid", "ipc_filter_gid", "gssapi_server", "handshake_ivl", "xpub_nodrop", "blocky",
   "xpub_manual", "stream_notify", "invert_matching", "heartbeat_ivl", "heartbeat_ttl",
   "heartbeat_timeout", "xpub_verboser", "connect_timeout", "tcp_maxrt", "multicast_maxtpdu",
   "vmci_connect_timeout"]

def u64Options : List String :=
  ["affinity", "vmci_buffer_size", "vmci_buffer_min_size", "vmci_buffer_max_size"]

def strOptions : List String :=
  ["identity", "plain_username", "plain_password", "curve_publickey", "curve_secretkey", "curve_serverkey",
   "zap_domain", "connect_rid", "gssapi_principal", "gssapi_service_principal", "gssapi_plaintext",
   "socks_proxy", "xpub_welcome_msg"]

def strArrOptions : List String := ["subscribe", "unsubscribe", "tcp_accept_filter"]

/-- The entries `{"set_"…, …}` of `luazmq_skt_methods` -/
def setters : List (String × Method) :=
  let named (type : OptType) (names : List String) : List (String × Method) :=
    names.map fun name => ("set_" ++ name, .option name type)
  named .int intOptions ++ named .u64 u64Options ++ named .i64 ["maxmsgsize"] ++ named .str strOptions ++
    named .strArr strArrOptions ++ named .fdt ["use_fd"]

/-- `luazmq_skt_methods`, as far as the constructor looks it up. -/
def sktMethod (env : Env) (name : String) : Option Method :=
  if name = "bind" then some .bind
  else if name = "connect" then some .connect
  else if name = "close" then some .close
  else
    -- a setter is compiled in where libzmq defines its option
    match setters.find? fun s => s.1 == name with
    | some (_, .option opt type) => if env.defined opt then some (.option opt type) else none
    | _ => none

/-- `luaL_checkint`, `luaL_checknumber` -/
def checkNumber (env : Env) : OptVal → Option OptVal
  | .num n => some (.num n)
  | .str s => (env.toNumber s).map .num
  | _ => none

/-- `luaL_checklstring` -/
def checkString : OptVal → Option String
  | .str s => some s
  | .num n => some (toString n)
  | _ => none

/-! ## The code's state -/

/-- The libzmq calls made so far, and whether a method has pushed more values than there is room for. -/
structure Log where
  calls : List ZmqCall
  overran : Bool

def Log.add (c : ZmqCall) (log : Log) : Log := { log with calls := log.calls ++ [c] }

/-- There have been `n` values above the arguments of a method. -/
def Log.reach (n : Nat) (log : Log) : Log := { log with overran := log.overran || decide (luaMinstack < n) }

/-- A call of the constructor: the Lua stack with the top first, the world, the log and `errno`. -/
structure Frame where
  stack : List Val
  world : World
  log : Log
  errno : Nat

def Frame.calls (f : Frame) : List ZmqCall := f.log.calls

def Frame.overran (f : Frame) : Bool := f.log.overran

def Frame.reached (n : Nat) (f : Frame) : Frame := { f with log := f.log.reach n }

section Code

variable (env : Env)

/-- A call of libzmq: whether it succeeds. -/
def zmq (c : ZmqCall) : Lua Frame Bool := fun f =>
  match env.fails f.log.calls.length with
  | none => .ret true { f with log := f.log.add c }
  | some e => .ret false { f with log := f.log.add c, errno := e }

/-- The results of `luazmq_fail` and `luazmq_pass`. -/
def luazmqFail : Lua Frame (List Val) := Lua.read fun f => [.nil, .err f.errno]

def luazmqPass : Lua Frame (List Val) := pure [.lua (.bool true)]

def inWorld (x : Lua World Unit) : Lua Frame Unit := fun f =>
  match x f.world with
  | .ret _ w => .ret () { f with world := w }
  | .raise w => .raise { f with world := w }
  | .abort => .abort

/-- `luazmq_getsocket`: the handle. -/
def luazmqGetsocket (self : Val) : Lua Frame Nat := do
  let objs ← Lua.read fun f => f.world.objs
  match self with
  | .skt i =>
    match objs[i]? with
    | some z => if z.closed then Lua.raise else pure z.skt
    | none => Lua.raise
  | _ => Lua.raise

/-- `luazmq_skt_set_int`, `_u64`, `_i64`, `_str` and `_fdt`, which differ in the check. -/
def luazmqSktSet (check : OptVal → Option OptVal) (name : String) (skt : Nat) (v : OptVal) :
    Lua Frame (List Val) :=
  match check v with
  | none => Lua.raise
  | some v => do
    if ← zmq env (.setsockopt skt name v) then luazmqPass else luazmqFail

/-- The stack of the running method holds `n` values above the arguments. -/
def reach (n : Nat) : Lua Frame Unit := Lua.modify (Frame.reached n)

/-- The loop of `luazmq_skt_set_str_arr`, from the index `i` on: the elements stay on the stack, and the results
    come on top of them. -/
def setStrArr (name : String) (skt : Nat) : Nat → List Elem → Lua Frame (List Val)
  | i, [] => do
    reach i
    luazmqPass
  | i, e :: l => do
    reach i
    match checkString e.val with
    | none => Lua.raise
    | some s => do
      if ← zmq env (.setsockopt skt name (.str s)) then setStrArr name skt (i + 1) l
      else do
        reach (i + 3)
        let n ← luazmqFail
        pure (n ++ [.lua (.num i)])

/-- The check of a setter's value. -/
def OptType.check : OptType → OptVal → Option OptVal
  | .str, v => (checkString v).map .str
  | .strArr, v => (checkString v).map .str
  | _, v => checkNumber env v

/-- `luazmq_skt_set_…` of an option. -/
def setOption (type : OptType) (name : String) (skt : Nat) (v : OptVal) : Lua Frame (List Val) :=
  match type, v with
  | .strArr, .list l => setStrArr env name skt 1 l
  | type, v => luazmqSktSet env (type.check env) name skt v

/-- The loop of `luazmq_skt_bind` and `luazmq_skt_connect` over a list. -/
def eachAddress (call : String → ZmqCall) : List Elem → Lua Frame (List Val)
  | [] => luazmqPass
  | e :: l =>
    match checkString e.val with
    | none => Lua.raise
    | some a => do
      if ← zmq env (call a) then eachAddress call l
      else do
        let n ← luazmqFail
        pure (n ++ [.lua (.str a)])

/-- `DEFINE_SKT_METHOD_1` -/
def sktMethod1 (call : String → ZmqCall) (v : OptVal) : Lua Frame (List Val) :=
  match v with
  | .list l => eachAddress env call l
  | v =>
    match checkString v with
    | none => Lua.raise
    | some a => do
      if ← zmq env (call a) then luazmqPass else luazmqFail

/-- A method called with its arguments. -/
def callMethod : Method → List Val → Lua Frame (List Val)
  | .option name type, [self, .lua v] => do
    let skt ← luazmqGetsocket self
    setOption env type name skt v
  | .bind, [self, .lua v] => do
    let skt ← luazmqGetsocket self
    sktMethod1 env (.bind skt) v
  | .connect, [self, .lua v] => do
    let skt ← luazmqGetsocket self
    sktMethod1 env (.connect skt) v
  | .close, [.skt i] => do
    inWorld (luazmqSktClose i)
    luazmqPass
  | .autoclose, [.ctx, .skt i] => do
    inWorld (luazmqCtxAutoclose i)
    pure []
  | _, _ => Lua.raise

/-! ## The stack -/

def push (v : Val) : Lua Frame Unit := Lua.modify fun f => { f with stack := v :: f.stack }

def pop (n : Nat) : Lua Frame Unit := Lua.modify fun f => { f with stack := f.stack.drop n }

def slot (i : Idx) : Lua Frame (Option Val) := Lua.read fun f => LuaStack.get f.stack i

def gettop : Lua Frame Nat := Lua.read fun f => f.stack.length

def settop (n : Nat) : Lua Frame Unit :=
  Lua.modify fun f => { f with stack := LuaStack.settop .nil n f.stack }

def insert (n : Nat) : Lua Frame Unit := Lua.modify fun f => { f with stack := LuaStack.insert n f.stack }

/-- `lua_pushvalue`; a slot that holds nothing must not be named. -/
def pushvalue (i : Idx) : Lua Frame Unit := do
  match ← slot i with
  | some v => push v
  | none => fun _ => .abort

/-- `lua_getfield` and `lua_gettable` with a string key, on the values the constructor uses. -/
def field (v : Option Val) (name : String) : Val :=
  match v with
  | some (.skt _) => ((sktMethod env name).map Val.method).getD .nil
  | some .ctx => if name = "autoclose" then .method .autoclose else .nil
  | some (.table entries) => ((entries.find? fun e => e.1 == .str name).map fun e => Val.lua e.2).getD .nil
  | _ => .nil

def getfield (i : Idx) (name : String) : Lua Frame Unit := do
  let v ← slot i
  push (field env v name)

/-- `lua_call` -/
def luaCall (nargs nresults : Nat) : Lua Frame Unit := do
  let st ← Lua.read Frame.stack
  match st[nargs]? with
  | some (.method m) => do
    pop (nargs + 1)
    let results ← callMethod env m (LuaStack.results nargs st)
    Lua.modify fun f =>
      { f with stack := LuaStack.pushResults (LuaStack.adjust .nil nresults results) f.stack }
  | _ => Lua.raise

/-- `lua_pcall` without results; an error leaves its message. -/
def luaPcall (nargs : Nat) : Lua Frame Bool := do
  let st ← Lua.read Frame.stack
  if ← Lua.pcall (luaCall env nargs 0) then pure true
  else do
    -- function and arguments are gone, whatever the call had pushed
    Lua.modify fun f => { f with stack := .lua .other :: st.drop (nargs + 1) }
    pure false

/-- `luazmq_pcall_method(L, name, nargs, 0, 0)` -/
def luazmqPcallMethod (name : String) (nargs : Nat) : Lua Frame Bool := do
  getfield env (.top (nargs + 1)) name
  insert (nargs + 2)
  luaPcall env (nargs + 1)

/-- What `lua_next` goes through in a value, if that is a table. -/
def tableOf : Option Val → Option Entries
  | some (.table entries) => some entries
  | some (.lua (.list l)) => some (l.zipIdx.map fun e => (.num (e.2 + 1), e.1.val))
  | _ => none

/-- `lua_concat(L, 2)` of two strings -/
def concat : Lua Frame Unit := Lua.modify fun f =>
  match f.stack with
  | .lua (.str b) :: .lua (.str a) :: st => { f with stack := .lua (.str (a ++ b)) :: st }
  | _ => f

/-- `lua_gettable` of the object in a slot, with the string on top as the key. -/
def gettable (i : Idx) : Lua Frame Unit := do
  let v ← slot i
  Lua.modify fun f =>
    match f.stack with
    | .lua (.str name) :: st => { f with stack := field env v name :: st }
    | _ => f

/-! ## The constructor -/

/-- The loop of `apply_options`, with the entries that `lua_next` has not visited: it pops the key of the
    entry before. -/
def applyOptionsLoop (o : Nat) : Val → Entries → Lua Frame Nat
  | prev, entries => do
    let key ← slot (.top 1)
    if key ≠ some prev then Lua.raise -- invalid key to 'next'
    else do
      pop 1
      match entries with
      | [] => do
        Lua.assert ((← gettop) = o)
        pure 0
      | (k, v) :: rest => do
        push (.lua k)
        push (.lua v)
        Lua.assert ((← gettop) = o + 2)
        match k with
        | .str _ => do
          -- socket, key, value, then the name of the setter and the setter itself
          push (.lua (.str "set_"))
          pushvalue (.top 3)
          concat
          gettable env (.abs o)
          if (← slot (.top 1)) = some .nil then do
            -- a key that names no setter is skipped: `bind`, `connect`, or any other string
            pop 2
            Lua.assert ((← gettop) = o + 1)
            applyOptionsLoop o (.lua k) rest
          else do
            -- socket, key, setter, socket, value
            insert 2
            pushvalue (.abs o)
            insert 2
            luaCall env 2 2
            if (← slot (.top 2)) = some .nil then do
              pushvalue (.abs o)
              let _ ← luazmqPcallMethod env "close" 0
              pure 2
            else do
              pop 2
              Lua.assert ((← gettop) = o + 1)
              applyOptionsLoop o (.lua k) rest
        | _ => do
          -- a key that is no string
          pop 1
          applyOptionsLoop o (.lua k) rest

/-- `apply_options(L, opt, "close")`: the number of results, 0 to go on. -/
def applyOptions (opt : Nat) : Lua Frame Nat := do
  match tableOf (← slot (.abs opt)) with
  | none => pure 0
  | some entries => do
    let o ← gettop
    push .nil
    applyOptionsLoop env o .nil entries

/-- `apply_bind_connect` -/
def applyBindConnect (opt : Nat) (meth : String) : Lua Frame Nat := do
  match tableOf (← slot (.abs opt)) with
  | none => pure 0
  | some _ => do
    let o ← gettop
    getfield env (.abs opt) meth
    if (← slot (.top 1)) = some .nil then do
      settop o
      pure 0
    else do
      -- socket, address, socket, method; then socket, method, socket, address
      pushvalue (.abs o)
      getfield env (.top 1) meth
      insert 3
      insert 2
      luaCall env 2 3
      if (← slot (.top 3)) = some .nil then do
        -- nil, error and address stay on top, above the object
        let n ← gettop
        pushvalue (.abs o)
        let _ ← luazmqPcallMethod env "close" 0
        settop n
        pure 3
      else do
        settop o
        pure 0

/-- `NAMES` of `socket_type` -/
def socketNames : List String :=
  ["PAIR", "PUB", "SUB", "REQ", "REP", "DEALER", "ROUTER", "PULL", "PUSH", "XPUB", "XSUB", "STREAM"]

/-- `socket_type`: whether it finds a type, in the value or at index 1 of the table. -/
def socketType (env : Env) (v : Option Val) : Bool :=
  let scalar : OptVal → Bool
    | .num _ => true
    | .str s => (env.toNumber s).isSome || s ∈ socketNames
    | _ => false
  match v, tableOf v with
  | some (.lua v), none => scalar v
  | _, some entries => ((entries.find? fun e => e.1 == .num 1).map fun e => scalar e.2).getD false
  | _, _ => false

/-- `luazmq_getcontext` -/
def luazmqGetcontext : Lua Frame Unit := do
  let w ← Lua.read Frame.world
  if (← slot (.abs 1)) = some .ctx ∧ w.closed = false then pure () else Lua.raise

/-- `LZMQ_AUTOCLOSE_SOCKET`, and the reference to the context -/
def registerSocket : Lua Frame Nat := do
  let o ← gettop
  pushvalue (.abs 1)
  pushvalue (.abs o)
  if ← luazmqPcallMethod env "autoclose" 1 then do
    Lua.assert (o = (← gettop))
    pure 1
  else do
    pushvalue (.abs o)
    let _ ← luazmqPcallMethod env "close" 0
    Lua.raise -- lua_error

/-- The object of the new handle, on top of the stack. -/
def newSocket : Lua Frame Unit := do
  let w ← Lua.read Frame.world
  inWorld (Lua.modify World.newSocket)
  push (.skt w.objs.length)
  Lua.assert (0 < (← Lua.read fun f => f.world.socketCount))

/-- `luazmq_ctx_socket`: the number of results. -/
def luazmqCtxSocket : Lua Frame Nat := do
  luazmqGetcontext
  let stype ← slot (.abs 2)
  if socketType env stype = false then Lua.raise
  else if ← zmq env .socket then do
    newSocket
    let opt := if (tableOf stype).isSome then 2 else 3
    let n ← applyOptions env opt
    if n ≠ 0 then pure n
    else do
      let n ← applyBindConnect env opt "bind"
      if n ≠ 0 then pure n
      else do
        let n ← applyBindConnect env opt "connect"
        if n ≠ 0 then pure n
        else registerSocket env
  else do
    let n ← luazmqFail
    Lua.modify fun f => { f with stack := LuaStack.pushResults n f.stack }
    pure 2

/-- `ctx:socket(…)`: the values returned. -/
def ctxSocket (w : World) (args : List Val) : Ending Frame (List Val) :=
  (do
    let n ← luazmqCtxSocket env
    Lua.read fun f => LuaStack.results n f.stack : Lua Frame (List Val)) ⟨args.reverse, w, ⟨[], false⟩, 0⟩

end Code

end Lzmq.CContext
