/-
  Closing a socket in the C binding (`zsocket.c`), and the handler that runs in the middle of it.

  `luazmq_skt_destroy` is both the method `close` and the finalizer.  It tests the flag
  `LUAZMQ_FLAG_CLOSED` first and sets it last; in between it runs the `on_close` handler, user code,
  which may close the same socket.  That inner call finds the flag not set, so it runs the whole of the
  function, and when it has returned the outer call goes on: with a second `zmq_close` of the handle.

  The function reads its argument `linger` at index 2 of its Lua stack.  A call without that argument finds
  nothing there, or, when the handler has raised, the error value that `lua_pcall` has left.

  What a handler does is a `Handler`: the calls it makes on the socket, where a call of `close` carries
  what the handler does if that call runs it again, and how it ends.  Every run that ends is one of these.
-/
import Lzmq.Lib.Lua
import Mathlib.Data.List.Count

namespace Lzmq.CContext

/-! ## A socket -/

/-- A Lua value in the place of `linger`, as what the bindings' ways to read it make of it: `lua_isnumber` and
    `luaL_optint`, which raises on a number that is not integral since Lua 5.3; Lua's `if` and `ffi.new`, which
    raises on what it cannot convert. -/
structure Linger where
  isNumber : Bool
  optint : Option Int
  truthy : Bool
  newInt : Option Int
deriving DecidableEq, Repr

/-- `luaL_optint` raises on it. -/
def Linger.refused (v : Linger) : Bool := v.isNumber && v.optint.isNone

/-- `skt->onclose_ref`: `LUA_NOREF`, the reference of nil, or of a handler. -/
inductive OncloseRef
  | noref
  | refnil
  | fn
deriving DecidableEq, Repr

/-- `zsocket`: the flags that destroying tests, and whether it has a context to count in. -/
structure ZSocket where
  skt : Nat
  closed : Bool
  dontDestroy : Bool
  ctx : Bool
  oncloseRef : OncloseRef
deriving DecidableEq, Repr

/-- How often a handler has run, and how many of the calls of `close` that handlers made have raised. -/
structure Tally where
  runs : Nat
  raises : Nat
deriving DecidableEq, Repr

def Tally.zero : Tally := ⟨0, 0⟩

def Tally.ran (t : Tally) : Tally := { t with runs := t.runs + 1 }

def Tally.called (t : Tally) (ok : Bool) : Tally := if ok then t else { t with raises := t.raises + 1 }

/-- What `luazmq_skt_destroy` works on: the object, the counter of its context, and what it leaves: the
    handles passed to `zmq_close`, latest first, and the tally of the handlers. -/
structure Cell where
  zskt : ZSocket
  socketCount : Int
  closes : List Nat
  tally : Tally
deriving DecidableEq, Repr

def Cell.setOnclose (ref : OncloseRef) (c : Cell) : Cell :=
  { c with zskt := { c.zskt with oncloseRef := ref } }

def Cell.setClosed (c : Cell) : Cell := { c with zskt := { c.zskt with closed := true } }

/-- `zmq_close`: it fails on a handle that has been closed. -/
def zmqClose (skt : Nat) : Lua Cell Int := do
  let closes ← Lua.read Cell.closes
  Lua.modify fun c => { c with closes := skt :: c.closes }
  pure (if skt ∈ closes then -1 else 0)

/-- `luazmq_skt_before_close`, and what `lua_pcall` leaves on the stack: the error value of the handler, if
    `handler`, which is what the handler does, ends with one. -/
def luazmqSktBeforeClose (handler : Lua Cell (Option Linger)) : Lua Cell (Option Linger) := do
  let ref ← Lua.read fun c => c.zskt.oncloseRef
  match ref with
  | .noref => pure none
  | .refnil => do
    Lua.modify (Cell.setOnclose .noref) -- lua_pcall of nil: the error is a text
    pure none
  | .fn => do
    -- the reference is dropped after the handler has run, so a handler that closes the socket runs again
    Lua.modify fun c => { c with tally := c.tally.ran }
    let error ← handler
    Lua.modify (Cell.setOnclose .noref)
    pure error

/-- `luazmq_skt_on_close` -/
def luazmqSktOnClose (fn : Bool) : Lua Cell Unit := do
  let zskt ← Lua.read Cell.zskt
  if zskt.closed then Lua.raise -- socket is closed
  else if zskt.oncloseRef ≠ .noref ∧ fn = false then Lua.modify (Cell.setOnclose .noref)
  else Lua.modify (Cell.setOnclose (if fn then .fn else .refnil))

/-- `if(lua_isnumber(L, 2)){ int linger = luaL_optint(L, 2, 0); … }`; the result of setting `ZMQ_LINGER` is not
    read. -/
def readLinger : Option Linger → Lua Cell Unit
  | none => pure ()
  | some v => if v.refused then Lua.raise else pure ()

/-- `ret = zmq_close(skt->skt); assert(ret != -1);`, on a socket that owns its handle, after `linger` -/
def closeHandle (linger : Option Linger) : Lua Cell Unit := do
  let zskt ← Lua.read Cell.zskt
  if zskt.dontDestroy then pure ()
  else do
    readLinger linger
    let ret ← zmqClose zskt.skt
    Lua.assert (ret ≠ -1)

/-- `skt->ctx->socket_count--;` and its assertion -/
def uncount : Lua Cell Unit := do
  let zskt ← Lua.read Cell.zskt
  if zskt.ctx then do
    Lua.modify fun c => { c with socketCount := c.socketCount - 1 }
    let count ← Lua.read Cell.socketCount
    Lua.assert (0 ≤ count)
  else pure ()

/-- `luazmq_skt_destroy`, the methods `close` and `__gc` -/
def luazmqSktDestroy (linger : Option Linger) (handler : Lua Cell (Option Linger)) : Lua Cell Unit := do
  let zskt ← Lua.read Cell.zskt
  if zskt.closed then pure ()
  else do
    let error ← luazmqSktBeforeClose handler
    -- index 2 is the argument, if there is one
    closeHandle (linger <|> error)
    uncount
    -- only now does the socket count as closed
    Lua.modify Cell.setClosed

/-! ## Handlers -/

/-- What one run of the handler does to the socket, and the value it ends with if it raises.  A handler that does
    not catch the error of a call ends there. -/
inductive Handler
  | ends (error : Option Linger)
  | close (linger : Option Linger) (inner rest : Handler)
  | onClose (fn : Bool) (rest : Handler)
deriving DecidableEq, Repr

/-- A call of `close`, under `pcall`. -/
def tallied (x : Lua Cell Unit) : Lua Cell Unit :=
  Lua.attempt x fun ok c => { c with tally := c.tally.called ok }

def Handler.run : Handler → Lua Cell (Option Linger)
  | .ends error => pure error
  | .close linger inner rest => do
    tallied (luazmqSktDestroy linger inner.run)
    rest.run
  | .onClose fn rest => do
    let _ ← Lua.pcall (luazmqSktOnClose fn)
    rest.run

/-- The run makes no call of `close`. -/
def Handler.noClose : Handler → Bool
  | .ends _ => true
  | .close _ _ _ => false
  | .onClose _ rest => rest.noClose

/-- The value the run ends with, if it raises. -/
def Handler.error : Handler → Option Linger
  | .ends error => error
  | .close _ _ rest => rest.error
  | .onClose _ rest => rest.error

/-- A call of `close` or a run of the finalizer, with its argument and what the handler does if it runs it. -/
structure CloseCall where
  linger : Option Linger
  handler : Handler
deriving DecidableEq, Repr

def closeAll : List CloseCall → Lua Cell Unit
  | [] => pure ()
  | s :: rest => do
    luazmqSktDestroy s.linger s.handler.run
    closeAll rest

/-- What `luazmq_skt_destroy` reads as `linger`. -/
def CloseCall.second (s : CloseCall) (ref : OncloseRef) : Option Linger :=
  s.linger <|> (if ref = .fn then s.handler.error else none)

/-- There is nothing that `luaL_optint` raises on. -/
def Readable : Option Linger → Prop
  | none => True
  | some v => v.refused = false

instance : DecidablePred Readable
  | none => .isTrue trivial
  | some v => inferInstanceAs (Decidable (v.refused = false))

/-! ## One call -/

/-- An open socket of a context that owns its handle. -/
structure Closable (c : Cell) : Prop where
  opened : c.zskt.closed = false
  owns : c.zskt.dontDestroy = false
  ctx : c.zskt.ctx = true
  fresh : c.zskt.skt ∉ c.closes
  count : 1 ≤ c.socketCount

/-- What no code undoes. -/
structure Grows (c c' : Cell) : Prop where
  skt : c'.zskt.skt = c.zskt.skt
  dontDestroy : c'.zskt.dontDestroy = c.zskt.dontDestroy
  closes : ∀ h ∈ c.closes, h ∈ c'.closes
  raises : c.tally.raises ≤ c'.tally.raises

theorem Grows.refl (c : Cell) : Grows c c := ⟨rfl, rfl, fun _ h => h, Nat.le_refl _⟩

theorem Grows.trans {a b c : Cell} (hab : Grows a b) (hbc : Grows b c) : Grows a c where
  skt := hbc.skt.trans hab.skt
  dontDestroy := hbc.dontDestroy.trans hab.dontDestroy
  closes h hh := hbc.closes h (hab.closes h hh)
  raises := Nat.le_trans hab.raises hbc.raises

/-- Code that closes no handle a second time without an abort; `Q` relates the states around it when it
    returns. -/
abbrev Runs {α : Type} (x : Lua Cell α) (Q : Cell → Cell → Prop) : Prop := Lua.Within Grows x Q

theorem runs_pure {α : Type} (a : α) : Runs (pure a) fun c c' => c' = c := Lua.within_pure Grows.refl a

theorem Runs.bind {α β : Type} {x : Lua Cell α} {f : α → Lua Cell β} {P Q : Cell → Cell → Prop} (hx : Runs x P)
    (hf : ∀ a, Runs (f a) Q) : Runs (x >>= f) fun c c' => ∃ m, P c m ∧ Grows c m ∧ Q m c' ∧ Grows m c' :=
  Lua.Within.bind (R := Grows) (fun _ _ _ h => h.trans) hx hf

theorem readLinger_readable {linger : Option Linger} (h : Readable linger) (c : Cell) :
    readLinger linger c = .ret () c := by
  cases linger with
  | none => rfl
  | some v =>
    have hv : v.refused = false := h
    simp [readLinger, hv]

theorem readLinger_refused {linger : Option Linger} (h : ¬ Readable linger) (c : Cell) :
    readLinger linger c = .raise c := by
  cases linger with
  | none => exact absurd trivial h
  | some v =>
    have hv : v.refused = true := (Bool.not_eq_false _).mp h
    simp [readLinger, hv]

theorem closeHandle_fresh {linger : Option Linger} {c : Cell} (howns : c.zskt.dontDestroy = false)
    (h : c.zskt.skt ∉ c.closes) (hread : Readable linger) :
    closeHandle linger c = .ret () { c with closes := c.zskt.skt :: c.closes } := by
  simp [closeHandle, zmqClose, howns, h, readLinger_readable hread]

theorem closeHandle_refused {linger : Option Linger} {c : Cell} (howns : c.zskt.dontDestroy = false)
    (h : ¬ Readable linger) : closeHandle linger c = .raise c := by
  simp [closeHandle, howns, readLinger_refused h]

theorem closeHandle_abort {linger : Option Linger} {c : Cell} (howns : c.zskt.dontDestroy = false)
    (h : c.zskt.skt ∈ c.closes) (hread : Readable linger) : closeHandle linger c = .abort := by
  simp [closeHandle, zmqClose, howns, h, readLinger_readable hread, Lua.run_assert_of_not]

/-- The handle is closed a second time: an abort, unless `linger` raises first. -/
theorem closeHandle_closed (linger : Option Linger) {c : Cell} (howns : c.zskt.dontDestroy = false)
    (h : c.zskt.skt ∈ c.closes) : closeHandle linger c = .abort ∨ closeHandle linger c = .raise c := by
  by_cases hread : Readable linger
  · exact Or.inl (closeHandle_abort howns h hread)
  · exact Or.inr (closeHandle_refused howns hread)

theorem closeHandle_runs (linger : Option Linger) :
    Runs (closeHandle linger) fun c c' => c.zskt.dontDestroy = false → c.zskt.skt ∈ c'.closes := by
  intro c
  by_cases howns : c.zskt.dontDestroy = false
  · by_cases h : c.zskt.skt ∈ c.closes
    · rcases closeHandle_closed linger howns h with hab | hraise
      · exact hab ▸ Lua.withinAt_abort
      · exact hraise ▸ Lua.withinAt_raise (Grows.refl c)
    · by_cases hread : Readable linger
      · rw [closeHandle_fresh howns h hread]
        exact Lua.withinAt_ret ⟨rfl, rfl, fun _ hh => List.mem_cons_of_mem _ hh, Nat.le_refl _⟩
          fun _ => List.mem_cons_self
      · rw [closeHandle_refused howns hread]
        exact Lua.withinAt_raise (Grows.refl c)
  · rw [show closeHandle linger c = .ret () c from by simp [closeHandle, howns]]
    exact Lua.withinAt_ret (Grows.refl c) fun h => absurd h howns

theorem uncount_of {c : Cell} (hctx : c.zskt.ctx = true) (hcount : 1 ≤ c.socketCount) :
    uncount c = .ret () { c with socketCount := c.socketCount - 1 } := by
  simp [uncount, hctx, hcount]

theorem uncount_runs : Runs uncount fun _ _ => True := by
  intro c
  by_cases hctx : c.zskt.ctx = true
  · by_cases hcount : 1 ≤ c.socketCount
    · rw [uncount_of hctx hcount]
      exact Lua.withinAt_ret ⟨rfl, rfl, fun _ hh => hh, Nat.le_refl _⟩ trivial
    · rw [show uncount c = .abort from by simp [uncount, hctx, hcount, Lua.run_assert_of_not]]
      exact Lua.withinAt_abort
  · rw [show uncount c = .ret () c from by simp [uncount, hctx]]
    exact Lua.withinAt_ret (Grows.refl c) trivial

theorem setClosed_runs : Runs (Lua.modify Cell.setClosed) fun c c' => c' = c.setClosed :=
  Lua.within_modify fun _ => ⟨rfl, rfl, fun _ h => h, Nat.le_refl _⟩

theorem setOnclose_runs (ref : OncloseRef) :
    Runs (Lua.modify (Cell.setOnclose ref)) fun c c' => c' = c.setOnclose ref :=
  Lua.within_modify fun _ => ⟨rfl, rfl, fun _ h => h, Nat.le_refl _⟩

/-- `luazmq_skt_before_close` does one of three things. -/
theorem beforeClose_cases (handler : Lua Cell (Option Linger)) (c : Cell) :
    luazmqSktBeforeClose handler c = (pure none : Lua Cell (Option Linger)) c ∨
    luazmqSktBeforeClose handler c =
      (do Lua.modify (Cell.setOnclose .noref); pure none : Lua Cell (Option Linger)) c ∨
    luazmqSktBeforeClose handler c = (do
      Lua.modify fun c => { c with tally := c.tally.ran }
      let error ← handler
      Lua.modify (Cell.setOnclose .noref)
      pure error : Lua Cell (Option Linger)) c := by
  cases href : c.zskt.oncloseRef with
  | noref => exact Or.inl (by simp [luazmqSktBeforeClose, href])
  | refnil => exact Or.inr (Or.inl (by simp [luazmqSktBeforeClose, href]))
  | fn => exact Or.inr (Or.inr (by simp [luazmqSktBeforeClose, href]))

theorem beforeClose_runs {handler : Lua Cell (Option Linger)} (h : Runs handler fun _ _ => True) :
    Runs (luazmqSktBeforeClose handler) fun _ _ => True := by
  intro c
  have hran : Runs (Lua.modify fun c : Cell => { c with tally := c.tally.ran }) _ :=
    Lua.within_modify fun _ => ⟨rfl, rfl, fun _ h => h, Nat.le_refl _⟩
  rcases beforeClose_cases handler c with hc | hc | hc
  · rw [hc]
    exact (runs_pure none).any c
  · rw [hc]
    exact ((setOnclose_runs .noref).bind fun _ => runs_pure none).any c
  · rw [hc]
    exact (hran.bind fun _ => h.bind fun error => (setOnclose_runs .noref).bind fun _ => runs_pure error).any c

theorem luazmqSktDestroy_open {linger : Option Linger} {handler : Lua Cell (Option Linger)} {c : Cell}
    (h : c.zskt.closed = false) : luazmqSktDestroy linger handler c = (do
      let error ← luazmqSktBeforeClose handler
      closeHandle (linger <|> error)
      uncount
      Lua.modify Cell.setClosed : Lua Cell Unit) c := by
  simp [luazmqSktDestroy, h]

theorem luazmqSktDestroy_closed {linger : Option Linger} {handler : Lua Cell (Option Linger)} {c : Cell}
    (h : c.zskt.closed = true) : luazmqSktDestroy linger handler c = .ret () c := by
  simp [luazmqSktDestroy, h]

/-- **A close that returns** has passed an owned handle to `zmq_close`. -/
theorem destroy_runs (linger : Option Linger) {handler : Lua Cell (Option Linger)}
    (h : Runs handler fun _ _ => True) : Runs (luazmqSktDestroy linger handler) fun c c' =>
      c.zskt.closed = false → c.zskt.dontDestroy = false → c.zskt.skt ∈ c'.closes := by
  intro c
  cases hclosed : c.zskt.closed with
  | true =>
    rw [luazmqSktDestroy_closed hclosed]
    exact Lua.withinAt_ret (Grows.refl c) fun hopen => absurd (hclosed.symm.trans hopen) (by decide)
  | false =>
    rw [luazmqSktDestroy_open hclosed]
    refine ((beforeClose_runs h).bind fun error => (closeHandle_runs (linger <|> error)).bind fun _ =>
      uncount_runs.bind fun _ => setClosed_runs).mono
        (Q := fun c c' => c.zskt.closed = false → c.zskt.dontDestroy = false → c.zskt.skt ∈ c'.closes) ?_ c
    rintro c c' ⟨m, -, hgm, ⟨n, hn, -, -, hgn⟩, -⟩ - howns
    refine hgn.closes _ ?_
    rw [← hgm.skt]
    exact hn (by rw [hgm.dontDestroy, howns])

theorem onClose_grows (fn : Bool) (c : Cell) : ∃ b ref,
    Lua.pcall (luazmqSktOnClose fn) c = .ret b (c.setOnclose ref) := by
  by_cases hclosed : c.zskt.closed = true
  · refine ⟨false, c.zskt.oncloseRef, Lua.run_pcall_raise ?_⟩
    simp [luazmqSktOnClose, hclosed]
    rfl
  · by_cases href : c.zskt.oncloseRef ≠ .noref ∧ fn = false
    · exact ⟨true, .noref, Lua.run_pcall_ret (by simp [luazmqSktOnClose, hclosed, href])⟩
    · exact ⟨true, if fn then .fn else .refnil, Lua.run_pcall_ret (by simp [luazmqSktOnClose, hclosed, href])⟩

/-- Under `pcall` a call has returned, or it is tallied. -/
theorem tallied_runs {x : Lua Cell Unit} {Q : Cell → Cell → Prop} (hx : Runs x Q) :
    Runs (tallied x) fun c c' => Q c c' ∨ c.tally.raises < c'.tally.raises := by
  refine hx.attempt (fun _ => rfl) fun c c' hg => ⟨⟨hg.skt, hg.dontDestroy, hg.closes, ?_⟩, ?_⟩
  · exact Nat.le_succ_of_le hg.raises
  · exact Nat.lt_succ_of_le hg.raises

theorem onClose_runs (fn : Bool) : Runs (Lua.pcall (luazmqSktOnClose fn)) fun c c' =>
    ∃ ref, c' = c.setOnclose ref := by
  intro c
  obtain ⟨b, ref, hm⟩ := onClose_grows fn c
  rw [hm]
  exact Lua.withinAt_ret ⟨rfl, rfl, fun _ h => h, Nat.le_refl _⟩ ⟨ref, rfl⟩

/-- A handler that makes no call of `close` leaves the socket as it is, up to the handler. -/
theorem noClose_run {s : Handler} (h : s.noClose = true) (c : Cell) :
    ∃ ref, s.run c = .ret s.error (c.setOnclose ref) := by
  induction s generalizing c with
  | ends error => exact ⟨c.zskt.oncloseRef, rfl⟩
  | close linger inner rest => cases h
  | onClose fn rest ih =>
    obtain ⟨b, ref, hm⟩ := onClose_grows fn c
    obtain ⟨ref', hrest⟩ := ih h (c.setOnclose ref)
    exact ⟨ref', by simp [Handler.run, hm, hrest]; exact ⟨rfl, rfl⟩⟩

/-- What is left before the handle is closed, when the handler makes no call of `close`. -/
theorem beforeClose_noClose {s : Handler} {c : Cell} (h : c.zskt.oncloseRef = .fn → s.noClose = true) :
    ∃ tally ref, luazmqSktBeforeClose s.run c =
        .ret (if c.zskt.oncloseRef = .fn then s.error else none) { c.setOnclose ref with tally := tally } ∧
      tally.runs ≤ c.tally.runs + 1 ∧ tally.raises = c.tally.raises := by
  cases href : c.zskt.oncloseRef with
  | noref =>
    have hrun : luazmqSktBeforeClose s.run c = .ret none c := by simp [luazmqSktBeforeClose, href]
    exact ⟨c.tally, c.zskt.oncloseRef, hrun, Nat.le_succ _, rfl⟩
  | refnil =>
    exact ⟨c.tally, .noref, by simp [luazmqSktBeforeClose, href, Cell.setOnclose], Nat.le_succ _, rfl⟩
  | fn =>
    obtain ⟨ref, hrun⟩ := noClose_run (h href) { c with tally := c.tally.ran }
    refine ⟨c.tally.ran, .noref, ?_, Nat.le_refl _, rfl⟩
    simp [luazmqSktBeforeClose, href, hrun, Cell.setOnclose]

end Lzmq.CContext
