/-
  Closing a socket in the FFI binding (`Socket:close` in `lzmq/ffi.lua`), which is also the finalizer.

  The socket is open as long as it has its handle, and `close` forgets the handle last.  As in the C binding
  the `on_close` handler runs before that, and a handler that closes the socket has all of `close` run
  inside.  There is no second `zmq_close` here: the outer call finds the handle gone and raises.

  The argument `linger` goes to `ffi.new`, which raises on what it cannot convert, when the socket has
  already been taken out of the count.
-/
import Lzmq.CContext.Close

namespace Lzmq.FfiContext

open Lzmq.CContext (Linger Handler CloseCall Tally)

/-! ## A socket -/

/-- `_private` of a socket: `skt`, whether there is a `ctx`, `on_close` and `dont_destroy`. -/
structure Socket where
  skt : Option Nat
  ctx : Bool
  onClose : Bool
  dontDestroy : Bool
deriving DecidableEq, Repr

/-- The object, `scount` and the keys of `sockets` of its context, the handles passed to `zmq_close`, and the
    tally of the handlers. -/
structure Cell where
  sock : Socket
  scount : Int
  sockets : List Nat
  closes : List Nat
  tally : Tally
deriving DecidableEq, Repr

def Cell.setOnClose (fn : Bool) (c : Cell) : Cell := { c with sock := { c.sock with onClose := fn } }

/-- `Context:_remove_socket` -/
def removeSocket : Lua Cell Unit := do
  let sock ← Lua.read Cell.sock
  match sock.skt with
  | none => Lua.raise -- index is nil
  | some h => Lua.modify fun c => { c with sockets := c.sockets.filter (· ≠ h) }

/-- `Context:_inc_socket_count` -/
def incSocketCount (n : Int) : Lua Cell Unit := do
  Lua.modify fun c => { c with scount := c.scount + n }
  let scount ← Lua.read Cell.scount
  if 0 ≤ scount then pure () else Lua.raise

/-- `if linger then api.zmq_skt_setopt_int(…) end`; the result is not read. -/
def setLinger : Option Linger → Lua Cell Unit
  | none => pure ()
  | some v => if v.truthy && v.newInt.isNone then Lua.raise else pure ()

/-- `api.zmq_close`, which takes the finalizer off the handle first. -/
def zmqClose : Option Nat → Lua Cell Unit
  | none => Lua.raise -- bad argument #1 to 'gc'
  | some h => Lua.modify fun c => { c with closes := h :: c.closes }

/-- `if not self._private.dont_destroy then … end` -/
def closeHandle (linger : Option Linger) : Lua Cell Unit := do
  let sock ← Lua.read Cell.sock
  if sock.dontDestroy then pure ()
  else do
    if sock.ctx then do
      removeSocket
      incSocketCount (-1)
    setLinger linger
    zmqClose sock.skt

/-- `if self._private.on_close then pcall(self._private.on_close) end`; nobody reads the error. -/
def runHandler (handler : Lua Cell (Option Linger)) : Lua Cell Unit := do
  let sock ← Lua.read Cell.sock
  if sock.onClose then do
    Lua.modify fun c => { c with tally := c.tally.ran }
    let _ ← handler
    pure ()
  else pure ()

/-- `self._private.skt = nil`, `self._private.ctx = nil` -/
def Cell.forget (c : Cell) : Cell := { c with sock := { c.sock with skt := none, ctx := false } }

/-- `Socket:close`, and `Socket.__gc` -/
def close (linger : Option Linger) (handler : Lua Cell (Option Linger)) : Lua Cell Unit := do
  let sock ← Lua.read Cell.sock
  if sock.skt.isNone then pure ()
  else do
    runHandler handler
    closeHandle linger
    -- the handle is forgotten last: a `close` in the handler still finds it
    Lua.modify Cell.forget

/-- `Socket:on_close` -/
def onClose (fn : Bool) : Lua Cell Unit := do
  let sock ← Lua.read Cell.sock
  if sock.skt.isNone then Lua.raise
  else Lua.modify (Cell.setOnClose fn)

/-- A call of `close`, under `pcall`. -/
def tallied (x : Lua Cell Unit) : Lua Cell Unit :=
  Lua.attempt x fun ok c => { c with tally := c.tally.called ok }

/-- What one run of the handler does. -/
def run : Handler → Lua Cell (Option Linger)
  | .ends error => pure error
  | .close linger inner rest => do
    tallied (close linger (run inner))
    run rest
  | .onClose fn rest => do
    let _ ← Lua.pcall (onClose fn)
    run rest

def closeAll : List CloseCall → Lua Cell Unit
  | [] => pure ()
  | s :: rest => do
    close s.linger (run s.handler)
    closeAll rest

/-- There is nothing that `ffi.new` raises on. -/
def Settable : Option Linger → Prop
  | none => True
  | some v => (v.truthy && v.newInt.isNone) = false

instance : DecidablePred Settable
  | none => .isTrue trivial
  | some v => inferInstanceAs (Decidable ((v.truthy && v.newInt.isNone) = false))

theorem settable_none : Settable none := trivial

/-! ## One call -/

/-- An open socket of a context that owns its handle. -/
structure Closable (h : Nat) (c : Cell) : Prop where
  skt : c.sock.skt = some h
  owns : c.sock.dontDestroy = false
  ctx : c.sock.ctx = true
  fresh : h ∉ c.closes
  scount : 1 ≤ c.scount

/-- What no code undoes. -/
structure Grows (c c' : Cell) : Prop where
  dontDestroy : c'.sock.dontDestroy = c.sock.dontDestroy
  skt : c.sock.skt = none → c'.sock.skt = none
  raises : c.tally.raises ≤ c'.tally.raises

theorem Grows.refl (c : Cell) : Grows c c := ⟨rfl, id, Nat.le_refl _⟩

theorem Grows.trans {a b c : Cell} (hab : Grows a b) (hbc : Grows b c) : Grows a c where
  dontDestroy := hbc.dontDestroy.trans hab.dontDestroy
  skt h := hbc.skt (hab.skt h)
  raises := Nat.le_trans hab.raises hbc.raises

/-- Code that opens no socket again and forgets no error; `Q` relates the states around it when it returns. -/
abbrev Runs {α : Type} (x : Lua Cell α) (Q : Cell → Cell → Prop) : Prop := Lua.Within Grows x Q

theorem runs_pure {α : Type} (a : α) : Runs (pure a) fun c c' => c' = c := Lua.within_pure Grows.refl a

theorem Runs.bind {α β : Type} {x : Lua Cell α} {f : α → Lua Cell β} {P Q : Cell → Cell → Prop} (hx : Runs x P)
    (hf : ∀ a, Runs (f a) Q) : Runs (x >>= f) fun c c' => ∃ m, P c m ∧ Grows c m ∧ Q m c' ∧ Grows m c' :=
  Lua.Within.bind (R := Grows) (fun _ _ _ h => h.trans) hx hf

theorem runs_raise {α : Type} {Q : Cell → Cell → Prop} : Runs (Lua.raise : Lua Cell α) Q := fun c =>
  Lua.withinAt_raise (Grows.refl c)

/-- A change that leaves the object and the tally. -/
theorem runs_modify {f : Cell → Cell} (h : ∀ c, (f c).sock = c.sock ∧ (f c).tally = c.tally) :
    Runs (Lua.modify f) fun c c' => c' = f c := Lua.within_modify fun c => by
  obtain ⟨hsock, htally⟩ := h c
  exact ⟨by rw [hsock], fun hskt => by rw [hsock, hskt], Nat.le_of_eq (by rw [htally])⟩

theorem runs_ite {α : Type} {b : Bool} {x y : Lua Cell α} {Q : Cell → Cell → Prop} (hx : Runs x Q)
    (hy : Runs y Q) : Runs (if b then x else y) Q := by
  cases b with
  | true => exact hx
  | false => exact hy

theorem runs_read {α β : Type} {f : Cell → α} {g : α → Lua Cell β} {Q : Cell → Cell → Prop}
    (h : ∀ a, Runs (g a) Q) : Runs (do let a ← Lua.read f; g a) Q := fun c => h (f c) c

theorem setLinger_runs (linger : Option Linger) : Runs (setLinger linger) fun _ _ => True := by
  cases linger with
  | none => exact (runs_pure ()).any
  | some v => exact runs_ite runs_raise (runs_pure ()).any

theorem zmqClose_runs (skt : Option Nat) : Runs (zmqClose skt) fun _ _ => True := by
  cases skt with
  | none => exact runs_raise
  | some h => exact (runs_modify (f := fun c : Cell => { c with closes := h :: c.closes }) fun _ => ⟨rfl, rfl⟩).any

theorem removeSocket_runs : Runs removeSocket fun _ _ => True := by
  refine runs_read fun sock => ?_
  cases sock.skt with
  | none => exact runs_raise
  | some h =>
    exact (runs_modify (f := fun c : Cell => { c with sockets := c.sockets.filter (· ≠ h) }) fun _ =>
      ⟨rfl, rfl⟩).any

theorem incSocketCount_runs (n : Int) : Runs (incSocketCount n) fun _ _ => True := by
  have hmodify : Runs (Lua.modify fun c : Cell => { c with scount := c.scount + n }) _ :=
    runs_modify fun _ => ⟨rfl, rfl⟩
  refine (hmodify.bind fun _ => runs_read (Q := fun _ _ => True) fun scount => ?_).any
  by_cases h : 0 ≤ scount
  · rw [if_pos h]
    exact (runs_pure ()).any
  · rw [if_neg h]
    exact runs_raise

theorem closeHandle_runs (linger : Option Linger) : Runs (closeHandle linger) fun _ _ => True := by
  refine runs_read fun sock => runs_ite (runs_pure ()).any ?_
  have hrest : Runs (do setLinger linger; zmqClose sock.skt) fun _ _ => True :=
    (Runs.bind (setLinger_runs linger) fun _ => zmqClose_runs sock.skt).any
  exact runs_ite (Runs.bind removeSocket_runs fun _ => (Runs.bind (incSocketCount_runs (-1)) fun _ => hrest).any).any
    hrest

theorem setLinger_settable {linger : Option Linger} (h : Settable linger) (c : Cell) :
    setLinger linger c = .ret () c := by
  cases linger with
  | none => rfl
  | some v =>
    rw [setLinger, show (v.truthy && v.newInt.isNone) = false from h]
    rfl

theorem setLinger_refused {linger : Option Linger} (h : ¬ Settable linger) (c : Cell) :
    setLinger linger c = .raise c := by
  cases linger with
  | none => exact absurd trivial h
  | some v =>
    rw [setLinger, show (v.truthy && v.newInt.isNone) = true from (Bool.not_eq_false _).mp h]
    rfl

/-- What `closeHandle` leaves of a closable socket. -/
def Cell.afterClose (h : Nat) (c : Cell) : Cell :=
  { c with sockets := c.sockets.filter (· ≠ h), scount := c.scount - 1, closes := h :: c.closes }

theorem closeHandle_closable {h : Nat} {linger : Option Linger} {c : Cell} (hc : Closable h c)
    (hset : Settable linger) : closeHandle linger c = .ret () (c.afterClose h) := by
  have hle : 0 ≤ c.scount + -1 := by have := hc.scount; omega
  simp [closeHandle, removeSocket, incSocketCount, zmqClose, setLinger_settable hset, hc.skt, hc.owns, hc.ctx,
    hle, Cell.afterClose, Int.sub_eq_add_neg]

/-- What `ffi.new` refuses ends the call when the socket has been counted down. -/
theorem closeHandle_refused {h : Nat} {linger : Option Linger} {c : Cell} (hc : Closable h c)
    (hset : ¬ Settable linger) : ∃ c', closeHandle linger c = .raise c' := by
  have hle : 0 ≤ c.scount + -1 := by have := hc.scount; omega
  refine ⟨{ c with sockets := c.sockets.filter (· ≠ h), scount := c.scount + -1 }, ?_⟩
  simp [closeHandle, removeSocket, incSocketCount, setLinger_refused hset, hc.skt, hc.owns, hc.ctx, hle]

/-- Without its handle an owning socket raises. -/
theorem closeHandle_forgotten {linger : Option Linger} {c : Cell} (hskt : c.sock.skt = none)
    (howns : c.sock.dontDestroy = false) : closeHandle linger c = .raise c := by
  cases hctx : c.sock.ctx with
  | true => simp [closeHandle, removeSocket, hskt, howns, hctx]
  | false =>
    by_cases hset : Settable linger
    · simp [closeHandle, zmqClose, setLinger_settable hset, hskt, howns, hctx]
    · simp [closeHandle, setLinger_refused hset, howns, hctx]

theorem onClose_run (fn : Bool) (c : Cell) :
    ∃ b fn', Lua.pcall (onClose fn) c = .ret b (c.setOnClose fn') := by
  cases hskt : c.sock.skt with
  | none => exact ⟨false, c.sock.onClose, Lua.run_pcall_raise (by simp [onClose, hskt]; rfl)⟩
  | some h => exact ⟨true, fn, Lua.run_pcall_ret (by simp [onClose, hskt])⟩

theorem onClose_runs (fn : Bool) : Runs (Lua.pcall (onClose fn)) fun _ _ => True := by
  intro c
  obtain ⟨b, fn', hm⟩ := onClose_run fn c
  rw [hm]
  exact Lua.withinAt_ret ⟨rfl, id, Nat.le_refl _⟩ trivial

theorem runHandler_runs {handler : Lua Cell (Option Linger)} (h : Runs handler fun _ _ => True) :
    Runs (runHandler handler) fun _ _ => True := by
  have hran : Runs (Lua.modify fun c : Cell => { c with tally := c.tally.ran }) _ :=
    Lua.within_modify fun _ => ⟨rfl, id, Nat.le_refl _⟩
  exact runs_read fun sock =>
    runs_ite (hran.bind fun _ => h.bind fun _ => runs_pure ()).any (runs_pure ()).any

/-- **A close that returns** leaves a closed socket. -/
theorem close_runs (linger : Option Linger) {handler : Lua Cell (Option Linger)}
    (h : Runs handler fun _ _ => True) : Runs (close linger handler) fun _ c' => c'.sock.skt = none := by
  intro c
  have hforget : Runs (Lua.modify Cell.forget) fun c c' => c' = c.forget :=
    Lua.within_modify fun _ => ⟨rfl, fun _ => rfl, Nat.le_refl _⟩
  cases hskt : c.sock.skt with
  | none =>
    rw [show close linger handler c = .ret () c from by simp [close, hskt]]
    exact Lua.withinAt_ret (Grows.refl c) hskt
  | some _ =>
    rw [show close linger handler c = (do
      runHandler handler
      closeHandle linger
      Lua.modify Cell.forget : Lua Cell Unit) c from by simp [close, hskt]]
    refine (Runs.bind (runHandler_runs h) fun _ => Runs.bind (closeHandle_runs linger) fun _ => hforget).mono
      (Q := fun _ c' => c'.sock.skt = none) ?_ c
    rintro c c' ⟨m, -, -, ⟨n, -, -, rfl, -⟩, -⟩
    rfl

/-- Under `pcall` a call has returned, or it is tallied. -/
theorem tallied_runs {x : Lua Cell Unit} {Q : Cell → Cell → Prop} (hx : Runs x Q) :
    Runs (tallied x) fun c c' => Q c c' ∨ c.tally.raises < c'.tally.raises := by
  refine hx.attempt (fun _ => rfl) fun c c' hg => ⟨⟨hg.dontDestroy, hg.skt, ?_⟩, ?_⟩
  · exact Nat.le_succ_of_le hg.raises
  · exact Nat.lt_succ_of_le hg.raises

/-- **A run of the handler** that makes a call of `close` leaves a closed socket, or the call has raised. -/
theorem run_runs (s : Handler) : Runs (run s) fun c c' =>
    s.noClose = false → c'.sock.skt = none ∨ c.tally.raises < c'.tally.raises := by
  induction s with
  | ends error => exact (runs_pure error).mono fun _ _ _ h => Bool.noConfusion h
  | close linger inner rest ihi ihr =>
    refine ((tallied_runs (close_runs linger ihi.any)).bind fun _ => ihr).mono ?_
    rintro c c' ⟨m, hclose, -, -, hg⟩ -
    rcases hclose with hnone | hlt
    · exact Or.inl (hg.skt hnone)
    · exact Or.inr (Nat.lt_of_lt_of_le hlt hg.raises)
  | onClose fn rest ihr =>
    refine ((onClose_runs fn).bind fun _ => ihr).mono ?_
    rintro c c' ⟨m, -, hgm, hin, -⟩ hno
    exact (hin hno).imp_right fun hlt => Nat.lt_of_le_of_lt hgm.raises hlt

/-- A closed socket stays closed, and still owns its handle. -/
def Forgotten (c : Cell) : Prop := c.sock.skt = none ∧ c.sock.dontDestroy = false

theorem Closable.setOnClose {h : Nat} {c : Cell} (hc : Closable h c) (fn : Bool) (tally : Tally) :
    Closable h { c.setOnClose fn with tally := tally } := ⟨hc.skt, hc.owns, hc.ctx, hc.fresh, hc.scount⟩

theorem close_open {h : Nat} {linger : Option Linger} {handler : Lua Cell (Option Linger)} {c : Cell}
    (hc : Closable h c) : close linger handler c = (do
      runHandler handler
      closeHandle linger
      Lua.modify Cell.forget : Lua Cell Unit) c := by
  simp [close, hc.skt]

/-- `close` goes through when the handler leaves the socket as it was, -/
theorem close_of_kept {h : Nat} {linger : Option Linger} {handler : Lua Cell (Option Linger)} {c : Cell}
    (hc : Closable h c) (hset : Settable linger) (fn : Bool) (tally : Tally)
    (hrun : runHandler handler c = .ret () { c.setOnClose fn with tally := tally }) :
    close linger handler c =
      .ret () (Cell.forget (Cell.afterClose h { c.setOnClose fn with tally := tally })) := by
  rw [close_open hc, Lua.run_bind, hrun, Lua.andThen_ret, Lua.run_bind,
    closeHandle_closable (hc.setOnClose fn tally) hset]
  rfl

/-- and raises when the handler has closed it. -/
theorem close_of_forgotten {h : Nat} {linger : Option Linger} {handler : Lua Cell (Option Linger)} {c c' : Cell}
    (hc : Closable h c) (hrun : runHandler handler c = .ret () c') (hf : Forgotten c') :
    close linger handler c = .raise c' := by
  rw [close_open hc, Lua.run_bind, hrun, Lua.andThen_ret, Lua.run_bind, closeHandle_forgotten hf.1 hf.2,
    Lua.andThen_raise]

theorem runHandler_none (handler : Lua Cell (Option Linger)) {c : Cell} (h : c.sock.onClose = false) :
    runHandler handler c = .ret () c := by
  simp [runHandler, h]

theorem runHandler_some {handler : Lua Cell (Option Linger)} {c c' : Cell} {error : Option Linger}
    (h : c.sock.onClose = true) (hrun : handler { c with tally := c.tally.ran } = .ret error c') :
    runHandler handler c = .ret () c' := by
  simp [runHandler, h, hrun]

/-- A handler that makes no call of `close` leaves the socket as it is, up to the handler. -/
theorem noClose_run {s : Handler} (h : s.noClose = true) (c : Cell) :
    ∃ fn, run s c = .ret s.error (c.setOnClose fn) := by
  induction s generalizing c with
  | ends error => exact ⟨c.sock.onClose, rfl⟩
  | close linger inner rest => cases h
  | onClose fn rest ih =>
    obtain ⟨b, fn', hm⟩ := onClose_run fn c
    obtain ⟨fn'', hrest⟩ := ih h (c.setOnClose fn')
    exact ⟨fn'', by simp [run, hm, hrest]; exact ⟨rfl, rfl⟩⟩

theorem runHandler_noClose {s : Handler} {c : Cell} (h : c.sock.onClose = true → s.noClose = true) :
    ∃ fn tally, runHandler (run s) c = .ret () { c.setOnClose fn with tally := tally } ∧
      tally.runs ≤ c.tally.runs + 1 ∧ tally.raises = c.tally.raises := by
  by_cases hon : c.sock.onClose = true
  · obtain ⟨fn, hrun⟩ := noClose_run (h hon) { c with tally := c.tally.ran }
    exact ⟨fn, c.tally.ran, runHandler_some hon hrun, Nat.le_refl _, rfl⟩
  · exact ⟨c.sock.onClose, c.tally, runHandler_none _ (Bool.eq_false_iff.mpr hon), Nat.le_succ _, rfl⟩

/-! ## A socket's closes -/

end Lzmq.FfiContext
