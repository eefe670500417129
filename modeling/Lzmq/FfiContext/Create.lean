/-
  The constructor of sockets in the FFI binding: `Context:socket` with its option table (`lzmq/ffi.lua`), on
  the values a caller can pass.

  The methods differ from those of the C binding in what they take: strings must be strings, an address list is
  read by `ipairs`, and what a number option makes of its value is up to `ffi.new` (`FfiNew`).  One setter is
  not there at all: `set_use_fd` calls `setopt_fdt`, which nobody defines.

  As in `CContext.Plan` the values determine a list of calls of libzmq, and the methods follow it (`replay`).
-/
import Lzmq.CContext.Atomic
import Lzmq.FfiContext.Destroy
import Lzmq.Lib.Assoc

namespace Lzmq.FfiContext

open Lzmq.CContext (Elem OptVal OptType Entries ZmqCall Env Val Plan Step Method setters follow lookup tableOf
  socketNames)

/-! ## The code -/

/-- `ffi.new(ct, optval)` of the number options: an array with one element.  Whole numbers in range are kept. -/
structure FfiNew where
  new : OptType → OptVal → Option OptVal
  inRange : OptType → Int → Bool
  num : ∀ type n, inRange type n = true → new type (.num n) = some (.num n)

/-- What a method returns: `true`, or `nil`, an error and sometimes a third value. -/
inductive Result
  | ok
  | fail (errno : Nat) (ext : List Val)
deriving DecidableEq, Repr

/-- What the constructor returns. -/
inductive Made
  | socket (i : Nat)
  | fail (errno : Nat) (ext : List Val)
deriving DecidableEq, Repr

/-- The objects, and the calls of libzmq that the constructor has made. -/
structure Frame where
  world : World
  calls : List ZmqCall

/-- `SOCKET_OPTIONS` of `lzmq/ffi/api.lua`: the options with the mode RW or WO, without their prefix and in lower
    case. -/
def socketOptions : List (String × OptType) :=
  [("affinity", .u64), ("identity", .str), ("subscribe", .strArr), ("unsubscribe", .strArr), ("rate", .int),
   ("recovery_ivl", .int), ("sndbuf", .int), ("rcvbuf", .int), ("linger", .int), ("reconnect_ivl", .int),
   ("backlog", .int), ("reconnect_ivl_max", .int), ("maxmsgsize", .i64), ("sndhwm", .int), ("rcvhwm", .int),
   ("multicast_hops", .int), ("rcvtimeo", .int), ("sndtimeo", .int), ("ipv4only", .int),
   ("router_mandatory", .int), ("tcp_keepalive", .int), ("tcp_keepalive_cnt", .int),
   ("tcp_keepalive_idle", .int), ("tcp_keepalive_intvl", .int), ("tcp_accept_filter", .strArr),
   ("delay_attach_on_connect", .int), ("immediate", .int), ("xpub_verbose", .int), ("router_raw", .int),
   ("ipv6", .int), ("plain_server", .int), ("plain_username", .str), ("plain_password", .str),
   ("curve_server", .int), ("curve_publickey", .str), ("curve_secretkey", .str), ("curve_serverkey", .str),
   ("probe_router", .int), ("req_correlate", .int), ("req_relaxed", .int), ("conflate", .int),
   ("zap_domain", .str), ("router_handover", .int), ("tos", .int), ("ipc_filter_pid", .int),
   ("ipc_filter_uid", .int), ("ipc_filter_gid", .int), ("connect_rid", .str), ("gssapi_server", .int),
   ("gssapi_principal", .str), ("gssapi_service_principal", .str), ("gssapi_plaintext", .str),
   ("handshake_ivl", .int), ("socks_proxy", .str), ("xpub_nodrop", .int), ("blocky", .int),
   ("xpub_manual", .int), ("xpub_welcome_msg", .str), ("stream_notify", .int), ("invert_matching", .int),
   ("heartbeat_ivl", .int), ("heartbeat_ttl", .int), ("heartbeat_timeout", .int), ("xpub_verboser", .int),
   ("connect_timeout", .int), ("tcp_maxrt", .int), ("multicast_maxtpdu", .int), ("vmci_buffer_size", .u64),
   ("vmci_buffer_min_size", .u64), ("vmci_buffer_max_size", .u64), ("vmci_connect_timeout", .int),
   ("use_fd", .fdt)]

section Code

variable (env : Env) (ffi : FfiNew)

/-- `o['set_' .. k]`, of the options that the version of libzmq has. -/
def setter (name : String) : Option OptType :=
  if env.defined name then (socketOptions.find? fun o => o.1 == name).map Prod.snd else none

/-- A call of libzmq: `-1 == ret`, with the errno. -/
def zmqCall (c : ZmqCall) : Lua Frame (Option Nat) := fun f =>
  .ret (env.fails f.calls.length) { f with calls := f.calls ++ [c] }

/-- The end of a method with one call; `ext` is the third value. -/
def returning (c : ZmqCall) (ext : List Val) (next : Lua Frame Result) : Lua Frame Result := do
  match ← zmqCall env c with
  | none => next
  | some e => pure (.fail e ext)

/-- `Socket:setopt_str`: `#optval` and the conversion to a pointer take strings only. -/
def setoptStr (name : String) (skt : Nat) : OptVal → Lua Frame Result
  | .str s => returning env (.setsockopt skt name (.str s)) [] (pure .ok)
  | _ => Lua.raise

/-- The loop of `Socket:setopt_str_arr` -/
def setoptStrArr (name : String) (skt : Nat) : List Elem → Lua Frame Result
  | [] => pure .ok
  | .str s :: l => returning env (.setsockopt skt name (.str s)) [.lua (.str s)] (setoptStrArr name skt l)
  | _ :: _ => Lua.raise

/-- `Socket:setopt_int`, `setopt_i64` and `setopt_u64` -/
def setoptNum (type : OptType) (name : String) (skt : Nat) (v : OptVal) : Lua Frame Result :=
  match ffi.new type v with
  | none => Lua.raise
  | some v => returning env (.setsockopt skt name v) [] (pure .ok)

/-- `set_…` of an option, by its type. -/
def setOption (type : OptType) (name : String) (skt : Nat) (v : OptVal) : Lua Frame Result :=
  match type with
  | .str => setoptStr env name skt v
  | .strArr =>
    match v with
    | .str s => setoptStr env name skt (.str s)
    | .list l => setoptStrArr env name skt l
    | _ => Lua.raise -- assert(type(optval) == "table")
  | .fdt => Lua.raise -- attempt to call a nil value (method 'setopt_fdt')
  | type => setoptNum env ffi type name skt v

/-- The loop of `gen_skt_bind` -/
def eachAddress (call : String → ZmqCall) : List Elem → Lua Frame Result
  | [] => pure .ok
  | .str a :: l => returning env (call a) [.lua (.str a)] (eachAddress call l)
  | _ :: _ => Lua.raise -- cannot convert to 'const char *'

/-- `gen_skt_bind`: `bind` and `connect` -/
def genSktBind (call : String → ZmqCall) : OptVal → Lua Frame Result
  | .str a => returning env (call a) [] (pure .ok)
  | .list l => eachAddress env call l
  | _ => Lua.raise -- assert(type(addr) == 'table')

/-- Go on unless a method failed. -/
def orFail (x : Lua Frame Result) (next : Lua Frame Result) : Lua Frame Result := do
  match ← x with
  | .ok => next
  | .fail e ext => pure (.fail e ext)

/-- `for k, v in pairs(opt)` -/
def eachOption (skt : Nat) : Entries → Lua Frame Result
  | [] => pure .ok
  | (.str name, v) :: rest =>
    match setter env name with
    | none => eachOption skt rest
    | some type => orFail (setOption env ffi type name skt v) (eachOption skt rest)
  | _ :: rest => eachOption skt rest

/-- `if opt.bind then … end`, likewise `connect` -/
def applyAddress (call : String → ZmqCall) : Option OptVal → Lua Frame Result
  | none => pure .ok
  | some (.bool false) => pure .ok
  | some v => genSktBind env call v

/-- `if opt then … end` -/
def applyOpt (skt : Nat) (opt : Option Val) : Lua Frame Result :=
  match opt with
  | none => pure .ok
  | some .nil => pure .ok
  | some (.lua (.bool false)) => pure .ok
  | some v =>
    match tableOf (some v) with
    | none => Lua.raise -- bad argument #1 to 'pairs'
    | some entries =>
      orFail (eachOption env ffi skt entries) <|
        orFail (applyAddress env (.bind skt) (lookup entries "bind")) <|
          applyAddress env (.connect skt) (lookup entries "connect")

/-- `stype, opt`: of a table, its first entry and itself. -/
def stypeOpt (args : List Val) : Option Val × Option Val :=
  match tableOf args[1]? with
  | some entries => ((entries.find? fun e => e.1 == .num 1).map fun e => .lua e.2, args[1]?)
  | none => (args[1]?, args[2]?)

/-- The types that get to `zmq_socket`: a number, or a name of `SNAMES`. -/
def stypeOk : Option Val → Bool
  | some (.lua (.num _)) => true
  | some (.lua (.str s)) => s ∈ socketNames
  | _ => false

def inWorld {α : Type} (x : Lua World α) : Lua Frame α := fun f =>
  match x f.world with
  | .ret a w => .ret a { f with world := w }
  | .raise w => .raise { f with world := w }
  | .abort => .abort

/-- The end of the constructor: `self:autoclose(o)`, or `o:close()` when a method failed. -/
def finish (i : Nat) : Result → Lua Frame Made
  | .ok => do
    inWorld (onSocket i autoclose)
    pure (.socket i)
  | .fail e ext => do
    inWorld (onSocket i (close none (pure none)))
    pure (.fail e ext)

/-- `Context:socket(stype, opt)` of an open context; `args` starts with the context. -/
def contextSocketOpt (args : List Val) : Lua Frame Made := do
  if stypeOk (stypeOpt args).1 = false then Lua.raise
  else
    match ← zmqCall env .socket with
    | some e => pure (.fail e [])
    | none => do
      let w ← Lua.read Frame.world
      inWorld newSocket
      let r ← applyOpt env ffi w.nextHandle (stypeOpt args).2
      finish w.objs.length r

/-! ## Plans -/

/-- What code does that follows a plan. -/
def replay (p : Plan) (f : Frame) : Ending Frame Result :=
  match follow env.fails f.calls p.steps with
  | (calls, some r) => .ret (.fail r.1 r.2) { f with calls := calls }
  | (calls, none) => if p.raises then .raise { f with calls := calls } else .ret .ok { f with calls := calls }

/-- The code follows the plan. -/
def Replays (x : Lua Frame Result) (p : Plan) : Prop := ∀ f, x f = replay env p f

variable {env}

theorem replays_done : Replays env (pure .ok) .done := fun _ => rfl

theorem Replays.returning {next : Lua Frame Result} {p : Plan} (h : Replays env next p) (c : ZmqCall)
    (ext : List Val) : Replays env (returning env c ext next) (.cons ⟨c, ext, 0⟩ p) := by
  intro f
  rw [replay, Plan.cons, follow]
  simp only [FfiContext.returning, zmqCall, Lua.run_bind, Lua.andThen_ret]
  cases hf : env.fails f.calls.length with
  | none => exact h _
  | some e => rfl

/-- One plan after the other. -/
theorem Replays.orFail {x next : Lua Frame Result} {p q : Plan} (hx : Replays env x p) (hnext : Replays env next q) :
    Replays env (orFail x next) (p.append q) := by
  intro f
  simp only [FfiContext.orFail, Lua.run_bind]
  rw [hx f, replay, replay, Plan.append]
  cases hr : p.raises with
  | true =>
    rw [if_pos rfl]
    cases hf : follow env.fails f.calls p.steps with
    | mk calls r =>
      cases r with
      | some r => rfl
      | none => simp [hr]
  | false =>
    rw [if_neg Bool.false_ne_true, CContext.follow_append]
    cases hf : follow env.fails f.calls p.steps with
    | mk calls r =>
      cases r with
      | some r => rfl
      | none => exact hnext { f with calls := calls }

end Code

/-! ## The calls of two plans -/

/-- The same calls, whatever a failure returns. -/
structure SameCalls (p q : Plan) : Prop where
  calls : p.steps.map Step.call = q.steps.map Step.call
  raises : p.raises = q.raises

section SameCalls

variable {p q p' q' : Plan}

theorem SameCalls.refl (p : Plan) : SameCalls p p := ⟨rfl, rfl⟩

theorem SameCalls.cons (h : SameCalls p q) (c : ZmqCall) (ext ext' : List Val) (height : Nat) :
    SameCalls (.cons ⟨c, ext, 0⟩ p) (.cons ⟨c, ext', height⟩ q) := ⟨congrArg (c :: ·) h.calls, h.raises⟩

theorem SameCalls.returning (h : SameCalls p q) (extra : List Val → List Val) : SameCalls p (q.returning extra) := by
  refine ⟨h.calls.trans ?_, h.raises⟩
  rw [Plan.returning, List.map_map]
  rfl

theorem SameCalls.append (h : SameCalls p q) (h' : SameCalls p' q') : SameCalls (p.append p') (q.append q') := by
  rw [Plan.append, Plan.append, h.raises]
  by_cases hr : q.raises = true
  · rw [if_pos hr, if_pos hr]
    exact h
  · rw [if_neg hr, if_neg hr]
    refine ⟨?_, h'.raises⟩
    rw [List.map_append, List.map_append, h.calls, h'.calls]

/-- They are made in the same way, and fail with the same errno. -/
theorem SameCalls.follow (h : SameCalls p q) (fails : Nat → Option Nat) (calls : List ZmqCall) :
    (follow fails calls p.steps).1 = (follow fails calls q.steps).1 ∧
      (follow fails calls p.steps).2.map Prod.fst = (follow fails calls q.steps).2.map Prod.fst := by
  obtain ⟨psteps, praises⟩ := p
  obtain ⟨qsteps, qraises⟩ := q
  have hcalls : psteps.map Step.call = qsteps.map Step.call := h.calls
  clear h
  induction psteps generalizing qsteps calls with
  | nil =>
    obtain rfl := List.map_eq_nil_iff.mp hcalls.symm
    exact ⟨rfl, rfl⟩
  | cons s psteps ih =>
    cases qsteps with
    | nil => cases hcalls
    | cons t qsteps =>
      obtain ⟨hst, hrest⟩ := List.cons.inj hcalls
      simp only [CContext.follow]
      rw [hst]
      cases hf : fails calls.length with
      | some e => exact ⟨rfl, rfl⟩
      | none => exact ih (calls ++ [t.call]) qsteps hrest

end SameCalls

/-! ## The same options -/

/-- The entry `{"set_"…, …}` of an option. -/
def entry (o : String × OptType) : String × Method := ("set_" ++ o.1, .option o.1 o.2)

/-- Both bindings have the same options, of the same types. -/
theorem setters_perm : setters.Perm (socketOptions.map entry) := by decide +kernel

theorem unique_setters : Assoc.Unique setters := by
  have hnodup : (setters.map Prod.fst).Nodup := by decide +kernel
  exact hnodup

theorem find?_entry (l : List (String × OptType)) (name : String) :
    (l.map entry).find? (fun e => e.1 == "set_" ++ name) = (l.find? fun o => o.1 == name).map entry := by
  rw [List.find?_map]
  have hkey : (fun e : String × Method => e.1 == "set_" ++ name) ∘ entry = fun o => o.1 == name := by
    funext o
    have hinj : "set_" ++ o.1 = "set_" ++ name ↔ o.1 = name := by
      constructor
      · intro h
        have hlist := congrArg String.toList h
        rw [String.toList_append, String.toList_append] at hlist
        exact String.toList_inj.mp (List.append_cancel_left hlist)
      · exact congrArg _
    simp [entry, Bool.beq_eq_decide_eq, hinj]
  rw [hkey]

/-- The setter of a name. -/
theorem sktMethod_setter (env : Env) (name : String) :
    CContext.sktMethod env ("set_" ++ name) = (setter env name).map (Method.option name) := by
  have hne : ∀ m : String, m.toList.head? ≠ some 's' → "set_" ++ name ≠ m := by
    intro m hm h
    apply hm
    rw [← h, String.toList_append]
    rfl
  rw [CContext.sktMethod, if_neg (hne "bind" (by decide)), if_neg (hne "connect" (by decide)),
    if_neg (hne "close" (by decide)), Assoc.Unique.find?_perm unique_setters setters_perm, find?_entry, setter]
  cases hf : socketOptions.find? fun o => o.1 == name with
  | none =>
    by_cases hdef : env.defined name = true
    · rw [if_pos hdef]
      rfl
    · rw [if_neg hdef]
      rfl
  | some o =>
    obtain ⟨n, type⟩ := o
    obtain rfl : n = name := eq_of_beq (List.find?_some (p := fun o : String × OptType => o.1 == name) hf)
    show (if env.defined n then _ else none) = _
    by_cases hdef : env.defined n = true
    · rw [if_pos hdef, if_pos hdef]
      rfl
    · rw [if_neg hdef, if_neg hdef]
      rfl

/-! ## Values that both bindings take -/

def isStr : Elem → Bool
  | .str _ => true
  | _ => false

/-- A value of the option's own type: a whole number in range, a string, for some a list of strings. -/
def plainValue (ffi : FfiNew) (type : OptType) (v : OptVal) : Bool :=
  match type, v with
  | .str, .str _ => true
  | .strArr, .str _ => true
  | .strArr, .list l => l.all isStr
  | .int, .num n => ffi.inRange .int n
  | .u64, .num n => ffi.inRange .u64 n
  | .i64, .num n => ffi.inRange .i64 n
  | _, _ => false

def plainAddress : Option OptVal → Bool
  | none => true
  | some (.str _) => true
  | some (.list l) => l.all isStr
  | _ => false

/-- An entry whose key names an option has a value of its type. -/
def plainEntry (env : Env) (ffi : FfiNew) (e : OptVal × OptVal) : Bool :=
  match e.1 with
  | .str name =>
    match setter env name with
    | some type => plainValue ffi type e.2
    | none => true
  | _ => true

/-- So have `bind` and `connect`. -/
def plainEntries (env : Env) (ffi : FfiNew) (entries : Entries) : Bool :=
  entries.all (plainEntry env ffi) && plainAddress (lookup entries "bind") && plainAddress (lookup entries "connect")

section Plain

variable {env : Env} {ffi : FfiNew} {skt : Nat}

/-- The code follows a plan with the calls of `q`, and neither raises. -/
def FollowsAs (env : Env) (x : Lua Frame Result) (q : Plan) : Prop :=
  ∃ p, Replays env x p ∧ SameCalls p q ∧ q.raises = false

theorem FollowsAs.returning {x : Lua Frame Result} {q : Plan} (h : FollowsAs env x q)
    (extra : List Val → List Val) : FollowsAs env x (q.returning extra) := by
  obtain ⟨p, hx, hsame, hr⟩ := h
  exact ⟨p, hx, hsame.returning extra, hr⟩

theorem FollowsAs.orFail {x next : Lua Frame Result} {p q : Plan} (hx : FollowsAs env x p)
    (hnext : FollowsAs env next q) : FollowsAs env (orFail x next) (p.append q) := by
  obtain ⟨p', hx, hp, hr⟩ := hx
  obtain ⟨q', hnext, hq, hr'⟩ := hnext
  refine ⟨p'.append q', hx.orFail hnext, hp.append hq, ?_⟩
  rw [CContext.append_raises, hr, hr']
  rfl

/-- One call, whatever comes back when it fails. -/
theorem FollowsAs.call {next : Lua Frame Result} {q : Plan} (h : FollowsAs env next q) (c : ZmqCall)
    (ext ext' : List Val) (height : Nat) :
    FollowsAs env (FfiContext.returning env c ext next) (.cons ⟨c, ext', height⟩ q) := by
  obtain ⟨p, hnext, hsame, hr⟩ := h
  exact ⟨_, hnext.returning c ext, hsame.cons c ext ext' height, hr⟩

theorem followsAs_done : FollowsAs env (pure .ok) .done := ⟨.done, replays_done, SameCalls.refl .done, rfl⟩

theorem setoptStrArr_plain (name : String) (l : List Elem) : ∀ i, l.all isStr = true →
    FollowsAs env (setoptStrArr env name skt l) (CContext.strArrPlan name skt i l) := by
  induction l with
  | nil => exact fun _ _ => followsAs_done
  | cons e l ih =>
    intro i h
    rw [List.all_cons, Bool.and_eq_true] at h
    cases e with
    | str s => exact (ih (i + 1) h.2).call _ _ _ _
    | num n => cases h.1
    | other => cases h.1

theorem eachAddress_plain (call : String → ZmqCall) (l : List Elem) (h : l.all isStr = true) :
    FollowsAs env (eachAddress env call l) (CContext.listPlan call l) := by
  induction l with
  | nil => exact followsAs_done
  | cons e l ih =>
    rw [List.all_cons, Bool.and_eq_true] at h
    cases e with
    | str s => exact (ih h.2).call _ _ _ _
    | num n => cases h.1
    | other => cases h.1

/-- A setter with a value of its type. -/
theorem setOption_plain {type : OptType} (name : String) {v : OptVal} (h : plainValue ffi type v = true) :
    FollowsAs env (setOption env ffi type name skt v) (CContext.optionPlan env type name skt v) := by
  -- a number that `ffi.new` keeps
  have hnum : ∀ (type : OptType) (n : Int), ffi.inRange type n = true →
      FollowsAs env (setoptNum env ffi type name skt (.num n))
        (.cons ⟨.setsockopt skt name (.num n), [], 0⟩ .done) := by
    intro type n hrange
    rw [setoptNum, ffi.num type n hrange]
    exact followsAs_done.call _ _ _ _
  cases type with
  | str =>
    cases v with
    | str s => exact followsAs_done.call _ _ _ _
    | _ => cases h
  | strArr =>
    cases v with
    | str s => exact followsAs_done.call _ _ _ _
    | list l => exact setoptStrArr_plain name l 1 h
    | _ => cases h
  | int =>
    cases v with
    | num n => exact hnum .int n h
    | _ => cases h
  | u64 =>
    cases v with
    | num n => exact hnum .u64 n h
    | _ => cases h
  | i64 =>
    cases v with
    | num n => exact hnum .i64 n h
    | _ => cases h
  | fdt => cases v <;> cases h

theorem applyAddress_plain (call : String → ZmqCall) {v : Option OptVal} (h : plainAddress v = true) :
    FollowsAs env (applyAddress env call v) (CContext.bindPlan call v) := by
  cases v with
  | none => exact followsAs_done
  | some v =>
    cases v with
    | str a => exact (followsAs_done.call (call a) [] [] 0).returning _
    | list l => exact (eachAddress_plain call l h).returning _
    | bool b => cases h
    | num n => cases h
    | other => cases h

theorem eachOption_plain (entries : Entries) (h : entries.all (plainEntry env ffi) = true) :
    FollowsAs env (eachOption env ffi skt entries) (CContext.optionsPlan env skt entries) := by
  induction entries with
  | nil => exact followsAs_done
  | cons e entries ih =>
    obtain ⟨k, v⟩ := e
    rw [List.all_cons, Bool.and_eq_true] at h
    obtain ⟨hhead, htail⟩ := h
    have hskip : FollowsAs env (eachOption env ffi skt entries)
        (Plan.append .done (CContext.optionsPlan env skt entries)) := ih htail
    cases k with
    | str name =>
      cases hset : setter env name with
      | none =>
        simp only [CContext.optionsPlan, CContext.entryPlan, sktMethod_setter, eachOption, hset]
        exact hskip
      | some type =>
        have hplain : plainValue ffi type v = true := by
          simpa [plainEntry, hset] using hhead
        simp only [CContext.optionsPlan, CContext.entryPlan, sktMethod_setter, eachOption, hset]
        exact ((setOption_plain name hplain).returning _).orFail (ih htail)
    | bool b => exact hskip
    | num n => exact hskip
    | list l => exact hskip
    | other => exact hskip

/-- The third argument: nothing, or a table. -/
def optOk : Option Val → Bool
  | none => true
  | some .nil => true
  | some v => (tableOf (some v)).isSome

theorem applyOpt_plain (skt : Nat) {opt : Option Val} (hopt : optOk opt = true)
    (h : plainEntries env ffi ((tableOf opt).getD []) = true) :
    FollowsAs env (applyOpt env ffi skt opt) (CContext.socketPlan env skt ((tableOf opt).getD [])) := by
  -- a table
  have htable : ∀ entries, plainEntries env ffi entries = true → FollowsAs env
      (orFail (eachOption env ffi skt entries) (orFail (applyAddress env (.bind skt) (lookup entries "bind"))
        (applyAddress env (.connect skt) (lookup entries "connect"))))
      (CContext.socketPlan env skt entries) := by
    intro entries h
    rw [plainEntries, Bool.and_eq_true, Bool.and_eq_true] at h
    obtain ⟨⟨hentries, hbind⟩, hconnect⟩ := h
    exact (eachOption_plain entries hentries).orFail
      ((applyAddress_plain _ hbind).orFail (applyAddress_plain _ hconnect))
  cases opt with
  | none => exact followsAs_done
  | some v =>
    cases v with
    | nil => exact followsAs_done
    | table entries => exact htable entries h
    | lua v =>
      cases v with
      | list l => exact htable _ h
      | bool b => cases hopt
      | num n => cases hopt
      | str s => cases hopt
      | other => cases hopt
    | ctx => cases hopt
    | skt i => cases hopt
    | method m => cases hopt
    | err e => cases hopt

end Plain

/-! ## The constructor -/

/-- A call with arguments that both bindings take. -/
def plainArgs (env : Env) (ffi : FfiNew) (args : List Val) : Bool :=
  args[0]? == some .ctx && stypeOk (stypeOpt args).1 && optOk (stypeOpt args).2 &&
    plainEntries env ffi (CContext.optEntries args)

theorem stypeOpt_entries (args : List Val) : (tableOf (stypeOpt args).2).getD [] = CContext.optEntries args := by
  rw [stypeOpt, CContext.optEntries]
  cases htable : tableOf args[1]? with
  | none => rfl
  | some entries => simp [htable]

/-- How the constructor ends that has a handle and follows the plan of its options: the socket is there, or a call
    has failed and it is closed again. -/
inductive Built (env : Env) (w : World) (entries : Entries) : Ending Frame Made → Prop
  | done (calls : List ZmqCall)
      (hf : follow env.fails [.socket] (CContext.socketPlan env w.nextHandle entries).steps = (calls, none)) :
      Built env w entries (.ret (.socket w.objs.length)
        ⟨{ w.created with sockets := w.sockets.insert w.objs.length }, calls⟩)
  | failed (calls : List ZmqCall) (e : Nat) (extra ext : List Val) (fn : Bool)
      (hf : follow env.fails [.socket] (CContext.socketPlan env w.nextHandle entries).steps =
        (calls, some (e, extra))) :
      Built env w entries (.ret (.fail e ext) ⟨w.created.closedAt w.objs.length fn, calls⟩)

/-- Such arguments do not make the C binding raise. -/
theorem plain_raises {env : Env} {ffi : FfiNew} {args : List Val} (hargs : plainArgs env ffi args = true)
    (skt : Nat) :
    (CContext.socketPlan env skt (CContext.optEntries args)).raises = false := by
  rw [plainArgs, Bool.and_eq_true, Bool.and_eq_true, ← stypeOpt_entries] at hargs
  obtain ⟨-, -, -, hraises⟩ := applyOpt_plain skt hargs.1.2 hargs.2
  rwa [stypeOpt_entries] at hraises

/-- **The constructor**, on arguments that both bindings take. -/
theorem built {env : Env} {ffi : FfiNew} {w : World} {args : List Val} (hw : w.Inv)
    (hargs : plainArgs env ffi args = true) (hsocket : env.fails 0 = none) :
    Built env w (CContext.optEntries args) (contextSocketOpt env ffi args ⟨w, []⟩) := by
  have hraises := plain_raises hargs w.nextHandle
  rw [plainArgs, Bool.and_eq_true, Bool.and_eq_true, Bool.and_eq_true] at hargs
  obtain ⟨⟨⟨-, htype⟩, hopt⟩, hentries⟩ := hargs
  rw [← stypeOpt_entries] at hentries
  obtain ⟨p, hreplays, hsame, -⟩ := applyOpt_plain w.nextHandle hopt hentries
  have hopen : contextSocketOpt env ffi args ⟨w, []⟩ =
      Lua.andThen (applyOpt env ffi w.nextHandle (stypeOpt args).2 ⟨w.created, [.socket]⟩)
        (finish w.objs.length) := by
    simp [contextSocketOpt, htype, zmqCall, hsocket, inWorld, newSocket_eq hw]
  have hfollow := hsame.follow env.fails [.socket]
  rw [stypeOpt_entries] at hsame hfollow
  rw [hopen, hreplays ⟨w.created, [.socket]⟩, replay]
  cases hp : follow env.fails [.socket] p.steps with
  | mk calls r =>
    cases hq : follow env.fails [.socket] (CContext.socketPlan env w.nextHandle (CContext.optEntries args)).steps with
    | mk calls' r' =>
      rw [hp, hq] at hfollow
      obtain ⟨hcalls, hres⟩ := hfollow
      obtain rfl : calls = calls' := hcalls
      cases r with
      | none =>
        obtain rfl : r' = none := Option.map_eq_none_iff.mp hres.symm
        have hend : finish w.objs.length .ok ⟨w.created, calls⟩ = .ret (.socket w.objs.length)
            ⟨{ w.created with sockets := w.sockets.insert w.objs.length }, calls⟩ := by
          simp [finish, inWorld, autoclose_created hw]
        have hnot : p.raises = false := hsame.raises.trans hraises
        simp only [hnot, Bool.false_eq_true, if_false, Lua.andThen_ret, hend]
        exact .done calls hq
      | some r =>
        obtain ⟨e, ext⟩ := r
        obtain ⟨⟨e', extra⟩, hr', he⟩ := Option.map_eq_some_iff.mp hres.symm
        obtain rfl : e' = e := he
        subst hr'
        obtain ⟨fn, hclose⟩ := close_created hw
        have hend : finish w.objs.length (.fail e' ext) ⟨w.created, calls⟩ =
            .ret (.fail e' ext) ⟨w.created.closedAt w.objs.length fn, calls⟩ := by
          simp [finish, inWorld, hclose]
        simp only [Lua.andThen_ret, hend]
        exact .failed calls e' extra ext fn hq

end Lzmq.FfiContext
