/-
  Destroying a context of the FFI binding: what is still open when `zmq_ctx_term` is called.

  `Context_cleanup` closes the sockets in the table `sockets`, without `pcall`.  A socket whose `on_close`
  handler closes it makes `close` raise (`FfiContext.Close`), and `destroy` with it: the context stays, and so
  do the sockets that the loop has not come to.  The socket itself is closed then, so that a second `destroy`
  gets further.  And a socket joins the table at the end of its constructor; when a setter raises before,
  nobody has it and nothing closes it (before the collector does).

  `Inv` is the world between two calls, `Ready` says in addition that no socket is lost track of.  One close is
  `Inv.closing`, the loop `cleanup_spec`, and `destroy_iff` reads both results off it.
-/
import Lzmq.FfiContext.Count

namespace Lzmq.FfiContext

open Lzmq.CContext (Handler Tally)

/-! ## A program and its context -/

/-- What comes of a setter, or of `bind` and `connect`, in the constructor. -/
inductive Outcome
  | ok
  | fails
  | raises
deriving DecidableEq, Repr

/-- The calls of the constructor, whose values may be of the wrong type; whether it goes on. -/
def applyOptions (i : Nat) : List Outcome → Lua World Bool
  | [] => pure true
  | .ok :: rest => applyOptions i rest
  | .fails :: _ => do
    onSocket i (close none (pure none))
    pure false
  | .raises :: _ => Lua.raise

/-- `Context:socket`, and the number of the object that it returns. -/
def createSocket (opened : Bool) (outcomes : List Outcome) : Lua World (Option Nat) := do
  let w ← Lua.read id
  if opened then do
    newSocket
    if ← applyOptions w.objs.length outcomes then do
      onSocket w.objs.length autoclose
      pure (some w.objs.length)
    else pure none
  else pure none

/-- What one run of a handler does to its own socket: closes without a linger period, and changes of the handler.
    Whether it ends with an error makes no difference, nobody reads it. -/
inductive Script
  | done
  | close (inner rest : Script)
  | onClose (fn : Bool) (rest : Script)
deriving DecidableEq, Repr

def Script.handler : Script → Handler
  | .done => .ends none
  | .close inner rest => .close none inner.handler rest.handler
  | .onClose fn rest => .onClose fn rest.handler

abbrev Script.run (s : Script) : Lua Cell (Option CContext.Linger) := FfiContext.run s.handler

/-- The run makes no call of `close`. -/
abbrev Script.noClose (s : Script) : Bool := s.handler.noClose

/-- A context, the socket objects that the program has, those that a constructor left behind when it raised, and the
    handles that were open when the context was terminated. -/
structure Prog where
  world : World
  held : List Nat
  lost : List Nat
  terminated : Option (List Nat)
deriving DecidableEq, Repr

def Prog.init : Prog := ⟨.init, [], [], none⟩

/-- The order in which `pairs` comes to the entries of a table. -/
abbrev Order : Type := { f : List Nat → List Nat // ∀ l, (f l).Perm l }

/-- A call of the program: the constructor, methods of its n-th socket, and `destroy`; `handlers i` is what the
    handler of the i-th object does. -/
inductive Call
  | socket (opened : Bool) (outcomes : List Outcome)
  | close (n : Nat) (handler : Script)
  | onClose (n : Nat) (fn : Bool)
  | destroy (handlers : Nat → Script) (order : Order)

/-- The object that `sockets` has for the handle `h`. -/
def World.objectOf (w : World) (h : Nat) : Option Nat :=
  if h ∈ w.sockets then w.objs.findIdx? fun o => o.sock.skt == some h else none

/-- `Context_cleanup`: `pairs` skips the entries that have been removed before it comes to them. -/
def cleanup (handlers : Nat → Script) : List Nat → Lua World Unit
  | [] => pure ()
  | h :: rest => do
    let w ← Lua.read id
    match w.objectOf h with
    | none => pure ()
    | some i => onSocket i (close none (handlers i).run)
    cleanup handlers rest

/-- The handles that have not been closed. -/
def World.openHandles (w : World) : List Nat := (List.range w.nextHandle).filter (· ∉ w.closes)

/-- A method of one of the program's sockets. -/
def Prog.method (p : Prog) (n : Nat) (x : Lua Cell Unit) : Option Prog :=
  match p.held[n]? with
  | none => some p
  | some i => (Lua.after (onSocket i x) p.world).map fun w => { p with world := w }

/-- A call, made under `pcall`. -/
def Prog.call (p : Prog) : Call → Option Prog
  | .socket opened outcomes =>
    if p.terminated.isSome then some p -- check_context raises
    else
      match createSocket opened outcomes p.world with
      | .ret o w => some { p with world := w, held := p.held ++ o.toList }
      | .raise w => some { p with world := w, lost := p.lost ++ [p.world.objs.length] }
      | .abort => none
  | .close n handler => p.method n (close none handler.run)
  | .onClose n fn => p.method n (onClose fn)
  | .destroy handlers order =>
    if p.terminated.isSome then some p
    else
      match cleanup handlers (order.val p.world.sockets) p.world with
      | .ret _ w => some { p with world := w, terminated := some w.openHandles } -- zmq_ctx_term
      | .raise w => some { p with world := w }
      | .abort => none

/-! ## The world between two calls -/

/-- The object of the handle `i`; `fn` is whether it has a handler. -/
def World.object (w : World) (i : Nat) (fn : Bool) : Obj :=
  ⟨⟨if i ∈ w.closes then none else some i, decide (i ∉ w.closes), fn, false⟩, true⟩

/-- What holds between two calls: the handle of an object is its number, closed once when the object is; the table
    has open handles only; the counter is right. -/
structure World.Inv (w : World) : Prop where
  handles : w.nextHandle = w.objs.length
  obj : ∀ i < w.objs.length, ∃ fn, w.objs[i]? = some (w.object i fn)
  closes : ∀ h ∈ w.closes, h < w.objs.length
  once : w.closes.Nodup
  sockets : ∀ h ∈ w.sockets, h < w.objs.length ∧ h ∉ w.closes
  count : Ledger.Balanced Obj.counted w.objs w.scount

theorem World.inv_init : World.init.Inv where
  handles := rfl
  obj i hi := absurd hi (Nat.not_lt_zero i)
  closes _ hh := absurd hh List.not_mem_nil
  once := List.nodup_nil
  sockets _ hh := absurd hh List.not_mem_nil
  count := rfl

/-! ## One socket -/

/-- What closing a socket leaves of it: nothing depends on how often its handler ran. -/
def Cell.closed (h : Nat) (fn : Bool) (tally : Tally) (c : Cell) : Cell :=
  Cell.forget (Cell.afterClose h { c.setOnClose fn with tally := tally })

/-- Nothing in a handler does anything to a closed socket. -/
theorem run_forgotten_eq (s : Script) {c : Cell} (hc : Forgotten c) : s.run c = .ret none c := by
  induction s with
  | done => rfl
  | close inner rest _ ihr =>
    have hclose : close none inner.run c = .ret () c := by simp [close, hc.1]
    have hrun : tallied (close none inner.run) c = .ret () c := Lua.run_attempt_ret hclose
    show run (.close none inner.handler rest.handler) c = .ret none c
    rw [run, Lua.run_bind, hrun, Lua.andThen_ret]
    exact ihr
  | onClose fn rest ih =>
    have hraise : onClose fn c = .raise c := by simp [onClose, hc.1]
    show run (.onClose fn rest.handler) c = .ret none c
    rw [run, Lua.run_bind, Lua.run_pcall_raise hraise, Lua.andThen_ret]
    exact ih

/-- A run of the handler that does not close the socket, from the start of `close`. -/
theorem Script.quiet {s : Script} (hno : s.noClose = true) (c : Cell) :
    ∃ fn tally, runHandler s.run c = .ret () { c.setOnClose fn with tally := tally } := by
  obtain ⟨fn, tally, hrun, -⟩ := runHandler_noClose (c := c) (s := s.handler) fun _ => hno
  exact ⟨fn, tally, hrun⟩

/-- **A run of the handler that closes the socket** closes it, once. -/
theorem run_closes {h : Nat} (s : Script) {c : Cell} (hc : Closable h c) (hno : s.noClose = false) :
    ∃ fn tally, s.run c = .ret none (c.closed h fn tally) := by
  induction s generalizing c with
  | done => cases hno
  | close inner rest ihi ihr =>
    have hclosed : ∃ fn tally, tallied (close none inner.run) c = .ret () (c.closed h fn tally) := by
      by_cases hon : c.sock.onClose = true
      · cases hno' : inner.noClose with
        | true =>
          obtain ⟨fn, tally, hrun⟩ := Script.quiet hno' c
          exact ⟨fn, tally, Lua.run_attempt_ret (close_of_kept hc settable_none fn tally hrun)⟩
        | false =>
          -- the handler's own `close` runs the handler again
          obtain ⟨fn, tally, hrun⟩ := ihi (hc.setOnClose c.sock.onClose c.tally.ran) hno'
          exact ⟨fn, tally.called false,
            Lua.run_attempt_raise (close_of_forgotten hc (runHandler_some hon hrun) ⟨rfl, hc.owns⟩)⟩
      · have hrun := runHandler_none inner.run (Bool.eq_false_iff.mpr hon)
        exact ⟨c.sock.onClose, c.tally,
          Lua.run_attempt_ret (close_of_kept hc settable_none c.sock.onClose c.tally hrun)⟩
    obtain ⟨fn, tally, hm⟩ := hclosed
    refine ⟨fn, tally, ?_⟩
    show run (.close none inner.handler rest.handler) c = _
    rw [run, Lua.run_bind, hm, Lua.andThen_ret]
    exact run_forgotten_eq rest ⟨rfl, hc.owns⟩
  | onClose fn rest ih =>
    obtain ⟨b, fn', hm⟩ := onClose_run fn c
    obtain ⟨fn'', tally, hrun⟩ := ih (hc.setOnClose fn' c.tally) hno
    refine ⟨fn'', tally, ?_⟩
    show run (.onClose fn rest.handler) c = _
    rw [run, Lua.run_bind, hm, Lua.andThen_ret]
    exact hrun

/-- **`close` of an open socket** closes it, once; it raises exactly when the socket has a handler that closes it. -/
theorem close_ends {h : Nat} (s : Script) {c : Cell} (hc : Closable h c) : ∃ fn tally, close none s.run c =
    if c.sock.onClose && !s.noClose then .raise (c.closed h fn tally) else .ret () (c.closed h fn tally) := by
  by_cases hon : c.sock.onClose = true
  · cases hno : s.noClose with
    | true =>
      obtain ⟨fn, tally, hrun⟩ := Script.quiet hno c
      exact ⟨fn, tally, by rw [hon]; exact close_of_kept hc settable_none fn tally hrun⟩
    | false =>
      obtain ⟨fn, tally, hrun⟩ := run_closes s (hc.setOnClose c.sock.onClose c.tally.ran) hno
      exact ⟨fn, tally, by rw [hon]; exact close_of_forgotten hc (runHandler_some hon hrun) ⟨rfl, hc.owns⟩⟩
  · have hoff := Bool.eq_false_iff.mpr hon
    have hnot : ¬ (c.sock.onClose && !s.noClose) = true := by simp [hoff]
    refine ⟨c.sock.onClose, c.tally, ?_⟩
    rw [if_neg hnot]
    exact close_of_kept hc settable_none c.sock.onClose c.tally (runHandler_none s.run hoff)

/-! ## One socket of the world -/

/-- The world after the i-th socket has been closed. -/
def World.closedAt (w : World) (i : Nat) (fn : Bool) : World :=
  { w with
    objs := w.objs.set i ⟨⟨none, false, fn, false⟩, true⟩
    scount := w.scount - 1
    sockets := w.sockets.filter (· ≠ i)
    closes := i :: w.closes }

/-- The world with a new object. -/
def World.created (w : World) : World :=
  { w with
    objs := w.objs ++ [⟨⟨some w.nextHandle, true, false, false⟩, true⟩]
    scount := w.scount + 1
    nextHandle := w.nextHandle + 1 }

section Inv

variable {w : World} (hw : w.Inv)
include hw

theorem World.Inv.fresh : w.objs.length ∉ w.closes := fun h => absurd (hw.closes _ h) (Nat.lt_irrefl _)

theorem World.Inv.closable {i : Nat} {fn : Bool} (hopen : i ∉ w.closes)
    (ho : w.objs[i]? = some (w.object i fn)) : Closable i (w.cell (w.object i fn).sock) where
  skt := by simp [World.cell, World.object, hopen]
  owns := rfl
  ctx := by simp [World.cell, World.object, hopen]
  fresh := hopen
  scount := by
    refine hw.count.pos (List.mem_of_getElem? ho) ?_
    simp [Obj.counted, World.object, hopen]

theorem World.Inv.closedAt {i : Nat} (hi : i < w.objs.length) (hopen : i ∉ w.closes) (fn : Bool) :
    (w.closedAt i fn).Inv where
  handles := by simp [World.closedAt, hw.handles]
  obj j hj := by
    have hj' : j < w.objs.length := by simpa [World.closedAt] using hj
    by_cases hij : i = j
    · subst hij
      exact ⟨fn, by simp [World.closedAt, World.object, hj']⟩
    · obtain ⟨fn', ho⟩ := hw.obj j hj'
      have hji : j ≠ i := fun h => hij h.symm
      refine ⟨fn', ?_⟩
      rw [World.closedAt, List.getElem?_set_ne hij, ho]
      simp [World.object, hji]
  closes h hh := by
    simp only [World.closedAt, List.length_set]
    rcases List.mem_cons.mp hh with rfl | hh
    · exact hi
    · exact hw.closes h hh
  once := List.nodup_cons.mpr ⟨hopen, hw.once⟩
  sockets h hh := by
    obtain ⟨hmem, hne⟩ := List.mem_filter.mp hh
    obtain ⟨hlt, hnot⟩ := hw.sockets h hmem
    refine ⟨by simpa [World.closedAt] using hlt, fun hc => ?_⟩
    rcases List.mem_cons.mp hc with rfl | hc
    · simp at hne
    · exact hnot hc
  count := by
    obtain ⟨fn', ho⟩ := hw.obj i hi
    exact hw.count.set_dead ho (by simp [Obj.counted, World.object, hopen]) rfl

/-- **`close`** of an open socket of the world. -/
theorem World.Inv.closing {i : Nat} {fn : Bool} (hopen : i ∉ w.closes)
    (ho : w.objs[i]? = some (w.object i fn)) (s : Script) : ∃ fn', onSocket i (close none s.run) w =
      if fn && !s.noClose then .raise (w.closedAt i fn') else .ret () (w.closedAt i fn') := by
  obtain ⟨fn', tally, hend⟩ := close_ends s (hw.closable hopen ho)
  have hput : w.put i (w.object i fn) ((w.cell (w.object i fn).sock).closed i fn' tally) = w.closedAt i fn' := rfl
  rw [show (w.cell (w.object i fn).sock).sock.onClose = fn from rfl] at hend
  refine ⟨fn', ?_⟩
  rw [onSocket, ho]
  by_cases hbad : (fn && !s.noClose) = true
  · rw [if_pos hbad] at hend ⊢
    simp [hend, hput]
  · rw [if_neg hbad] at hend ⊢
    simp [hend, hput]

/-- A method that changes nothing but whether the socket has a handler. -/
theorem World.Inv.set {i : Nat} (fn : Bool) : World.Inv { w with objs := w.objs.set i (w.object i fn) } where
  handles := by simp [hw.handles]
  obj j hj := by
    have hj' : j < w.objs.length := by simpa using hj
    by_cases hij : i = j
    · subst hij
      exact ⟨fn, by simp [hj', World.object]⟩
    · obtain ⟨fn', ho⟩ := hw.obj j hj'
      exact ⟨fn', by rw [List.getElem?_set_ne hij, ho]; rfl⟩
  closes h hh := by simpa using hw.closes h hh
  once := hw.once
  sockets h hh := by simpa using hw.sockets h hh
  count := by
    by_cases hi : i < w.objs.length
    · obtain ⟨fn', ho⟩ := hw.obj i hi
      exact hw.count.set_same ho rfl
    · rw [List.set_eq_of_length_le (Nat.le_of_not_lt hi)]
      exact hw.count

theorem World.Inv.created : w.created.Inv where
  handles := by simp [World.created, hw.handles]
  obj i hi := by
    rcases Nat.lt_or_ge i w.objs.length with hlt | hge
    · obtain ⟨fn, ho⟩ := hw.obj i hlt
      exact ⟨fn, by rw [World.created, List.getElem?_append_left hlt, ho]; rfl⟩
    · obtain rfl : i = w.objs.length := by
        simp [World.created] at hi
        omega
      exact ⟨false, by simp [World.created, World.object, hw.fresh, hw.handles]⟩
  closes h hh := by
    have hlt := hw.closes h hh
    simp [World.created]
    omega
  once := hw.once
  sockets h hh := by
    obtain ⟨hlt, hnot⟩ := hw.sockets h hh
    refine ⟨?_, hnot⟩
    simp [World.created]
    omega
  count := hw.count.append _

theorem World.Inv.register {i : Nat} (hi : i < w.objs.length) (hopen : i ∉ w.closes) :
    World.Inv { w with sockets := w.sockets.insert i } where
  handles := hw.handles
  obj := hw.obj
  closes := hw.closes
  once := hw.once
  sockets h hh := by
    rcases List.mem_insert_iff.mp hh with rfl | hh
    · exact ⟨hi, hopen⟩
    · exact hw.sockets h hh
  count := hw.count

end Inv

/-! ## The constructor -/

/-- A method that leaves the socket and the context alone. -/
theorem onSocket_same {w : World} {i : Nat} {o : Obj} (ho : w.objs[i]? = some o) {x : Lua Cell Unit}
    (hx : x (w.cell o.sock) = .ret () (w.cell o.sock)) : onSocket i x w = .ret () w := by
  have hput : w.put i o (w.cell o.sock) = w := by
    show { w with objs := w.objs.set i o } = w
    obtain ⟨hi, hget⟩ := List.getElem?_eq_some_iff.mp ho
    rw [← hget, List.set_getElem_self]
  simp [onSocket, ho, hx, hput]

/-- The setters, `bind` and `connect` of a new socket: they all go well, one fails and the socket is closed, or one
    raises. -/
theorem applyOptions_spec {w : World} (hw : w.Inv) {i : Nat} (hopen : i ∉ w.closes)
    (ho : w.objs[i]? = some (w.object i false)) (outcomes : List Outcome) :
    applyOptions i outcomes w = .ret true w ∨ (∃ fn, applyOptions i outcomes w = .ret false (w.closedAt i fn)) ∨
      applyOptions i outcomes w = .raise w := by
  induction outcomes with
  | nil => exact Or.inl rfl
  | cons outcome rest ih =>
    cases outcome with
    | ok => exact ih
    | fails =>
      obtain ⟨fn, hclose⟩ := hw.closing hopen ho .done
      refine Or.inr (Or.inl ⟨fn, ?_⟩)
      have hclose' : onSocket i (close none (pure none)) w = .ret () (w.closedAt i fn) := hclose
      simp [applyOptions, hclose']
    | raises => exact Or.inr (Or.inr rfl)

/-- How the constructor ends, once it has a handle. -/
inductive Created (w : World) : Ending World (Option Nat) → Prop
  | done : Created w (.ret (some w.objs.length)
      { w.created with sockets := w.sockets.insert w.objs.length })
  | failed (fn : Bool) : Created w (.ret none (w.created.closedAt w.objs.length fn))
  | raised : Created w (.raise w.created)

section Created

variable {w : World} (hw : w.Inv)
include hw

theorem newSocket_eq : newSocket w = .ret () w.created := by
  have hpos : 0 ≤ w.scount + 1 := by
    have := hw.count.nonneg
    omega
  simp [newSocket, hpos, World.created]

theorem created_object : w.created.objs[w.objs.length]? = some (w.created.object w.objs.length false) := by
  simp [World.created, World.object, hw.fresh, hw.handles]

theorem autoclose_created : onSocket w.objs.length autoclose w.created =
    .ret () { w.created with sockets := w.sockets.insert w.objs.length } := by
  have ho := created_object hw
  have hcell : autoclose (w.created.cell (w.created.object w.objs.length false).sock) =
      .ret () { w.created.cell (w.created.object w.objs.length false).sock with
        sockets := w.sockets.insert w.objs.length } := by
    simp [autoclose, World.cell, World.object, World.created, hw.fresh]
  have hset : w.created.objs.set w.objs.length (w.created.object w.objs.length false) = w.created.objs := by
    obtain ⟨hi, hget⟩ := List.getElem?_eq_some_iff.mp ho
    rw [← hget, List.set_getElem_self]
  simp only [onSocket, ho, hcell, World.put]
  congr 2

theorem close_created : ∃ fn, onSocket w.objs.length (close none (pure none)) w.created =
    .ret () (w.created.closedAt w.objs.length fn) :=
  hw.created.closing hw.fresh (created_object hw) .done

theorem created (outcomes : List Outcome) : Created w (createSocket true outcomes w) := by
  have hrun : createSocket true outcomes w = Lua.andThen (applyOptions w.objs.length outcomes w.created) fun go =>
      if go then do
        onSocket w.objs.length autoclose
        pure (some w.objs.length)
      else pure none := by
    simp [createSocket, newSocket_eq hw]
  rw [hrun]
  obtain h | ⟨fn, h⟩ | h := applyOptions_spec hw.created hw.fresh (created_object hw) outcomes
  · have hres : Lua.andThen (applyOptions w.objs.length outcomes w.created) (fun go =>
        if go then do
          onSocket w.objs.length autoclose
          pure (some w.objs.length)
        else pure none) = .ret (some w.objs.length)
          { w.created with sockets := w.sockets.insert w.objs.length } := by
      simp [h, autoclose_created hw]
    rw [hres]
    exact .done
  · rw [h]
    exact .failed fn
  · rw [h]
    exact .raised

end Created

/-! ## The program -/

/-- The handles that are open at the termination are the lost ones. -/
def Prog.Accounted (p : Prog) : Prop := ∀ opened, p.terminated = some opened → ∀ h, h ∈ opened ↔ h ∈ p.lost

/-- Every open socket is in the table, or has been lost by its constructor; the program has none of the lost ones. -/
structure Prog.Inv (p : Prog) : Prop where
  world : p.world.Inv
  known : ∀ i < p.world.objs.length, i ∈ p.world.closes ∨ i ∈ p.world.sockets ∨ i ∈ p.lost
  lost : ∀ i ∈ p.lost, i < p.world.objs.length ∧ i ∉ p.world.closes ∧ i ∉ p.world.sockets
  held : ∀ i ∈ p.held, i < p.world.objs.length ∧ i ∉ p.lost
  accounted : p.Accounted

theorem Prog.inv_init : Prog.init.Inv where
  world := World.inv_init
  known i hi := absurd hi (Nat.not_lt_zero i)
  lost _ hi := absurd hi List.not_mem_nil
  held _ hi := absurd hi List.not_mem_nil
  accounted opened h := by cases h

theorem method_of {p : Prog} {n i : Nat} {x : Lua Cell Unit} {w : World} (hn : p.held[n]? = some i)
    (h : onSocket i x p.world = .ret () w ∨ onSocket i x p.world = .raise w) :
    p.method n x = some { p with world := w } := by
  have hafter : Lua.after (onSocket i x) p.world = some w := Lua.after_of (h.imp (fun h => ⟨(), h⟩) id)
  simp [Prog.method, hn, hafter]

theorem method_none {p : Prog} {n : Nat} (hn : p.held[n]? = none) (x : Lua Cell Unit) : p.method n x = some p := by
  simp [Prog.method, hn]

section Prog

variable {p : Prog} (hp : p.Inv)
include hp

/-- A lost socket is an old one. -/
theorem Prog.Inv.fresh_lost : p.world.objs.length ∉ p.lost := fun h =>
  absurd (hp.lost _ h).1 (Nat.lt_irrefl _)

theorem Prog.Inv.fresh_sockets : p.world.objs.length ∉ p.world.sockets := fun h =>
  absurd (hp.world.sockets _ h).1 (Nat.lt_irrefl _)

/-- The constructor has come to its end. -/
theorem Prog.Inv.done : Prog.Inv { p with
    world := { p.world.created with sockets := p.world.sockets.insert p.world.objs.length }
    held := p.held ++ [p.world.objs.length] } where
  world := hp.world.created.register (by simp [World.created]) hp.world.fresh
  known i hi := by
    rcases Nat.lt_or_ge i p.world.objs.length with hlt | hge
    · rcases hp.known i hlt with h | h | h
      · exact Or.inl h
      · exact Or.inr (Or.inl (List.mem_insert_of_mem h))
      · exact Or.inr (Or.inr h)
    · obtain rfl : i = p.world.objs.length := by
        simp [World.created] at hi
        omega
      exact Or.inr (Or.inl List.mem_insert_self)
  lost i hi := by
    obtain ⟨hlt, hclosed, hsockets⟩ := hp.lost i hi
    refine ⟨by simp [World.created]; omega, hclosed, fun h => ?_⟩
    rcases List.mem_insert_iff.mp h with rfl | h
    · exact absurd hlt (Nat.lt_irrefl _)
    · exact hsockets h
  held i hi := by
    rcases List.mem_append.mp hi with hi | hi
    · obtain ⟨hlt, hlost⟩ := hp.held i hi
      exact ⟨by simp [World.created]; omega, hlost⟩
    · obtain rfl := List.mem_singleton.mp hi
      exact ⟨by simp [World.created], hp.fresh_lost⟩
  accounted := hp.accounted

/-- The constructor has closed the socket again. -/
theorem Prog.Inv.failed (fn : Bool) :
    Prog.Inv { p with world := p.world.created.closedAt p.world.objs.length fn } where
  world := hp.world.created.closedAt (by simp [World.created]) hp.world.fresh fn
  known i hi := by
    rcases Nat.lt_or_ge i p.world.objs.length with hlt | hge
    · rcases hp.known i hlt with h | h | h
      · exact Or.inl (List.mem_cons_of_mem _ h)
      · refine Or.inr (Or.inl (List.mem_filter.mpr ⟨h, ?_⟩))
        simpa using Nat.ne_of_lt hlt
      · exact Or.inr (Or.inr h)
    · obtain rfl : i = p.world.objs.length := by
        simp [World.closedAt, World.created] at hi
        omega
      exact Or.inl List.mem_cons_self
  lost i hi := by
    obtain ⟨hlt, hclosed, hsockets⟩ := hp.lost i hi
    refine ⟨by simp [World.closedAt, World.created]; omega, fun h => ?_, fun h => hsockets (List.mem_filter.mp h).1⟩
    rcases List.mem_cons.mp h with rfl | h
    · exact absurd hlt (Nat.lt_irrefl _)
    · exact hclosed h
  held i hi := by
    obtain ⟨hlt, hlost⟩ := hp.held i hi
    exact ⟨by simp [World.closedAt, World.created]; omega, hlost⟩
  accounted := hp.accounted

/-- The constructor has raised. -/
theorem Prog.Inv.raised (hterm : p.terminated = none) :
    Prog.Inv { p with world := p.world.created, lost := p.lost ++ [p.world.objs.length] } where
  world := hp.world.created
  known i hi := by
    rcases Nat.lt_or_ge i p.world.objs.length with hlt | hge
    · rcases hp.known i hlt with h | h | h
      · exact Or.inl h
      · exact Or.inr (Or.inl h)
      · exact Or.inr (Or.inr (List.mem_append_left _ h))
    · obtain rfl : i = p.world.objs.length := by
        simp [World.created] at hi
        omega
      exact Or.inr (Or.inr (List.mem_append_right _ (List.mem_singleton.mpr rfl)))
  lost i hi := by
    rcases List.mem_append.mp hi with hi | hi
    · obtain ⟨hlt, hrest⟩ := hp.lost i hi
      exact ⟨by simp [World.created]; omega, hrest⟩
    · obtain rfl := List.mem_singleton.mp hi
      exact ⟨by simp [World.created], hp.world.fresh, hp.fresh_sockets⟩
  held i hi := by
    obtain ⟨hlt, hlost⟩ := hp.held i hi
    refine ⟨by simp [World.created]; omega, fun h => ?_⟩
    rcases List.mem_append.mp h with h | h
    · exact hlost h
    · obtain rfl := List.mem_singleton.mp h
      exact absurd hlt (Nat.lt_irrefl _)
  accounted opened h := by
    rw [show p.terminated = some opened from h] at hterm
    cases hterm

/-- A socket that is not lost has been closed. -/
theorem Prog.Inv.closedAt {i : Nat} (hi : i < p.world.objs.length) (hlost : i ∉ p.lost) (hopen : i ∉ p.world.closes)
    (fn : Bool) : Prog.Inv { p with world := p.world.closedAt i fn } where
  world := hp.world.closedAt hi hopen fn
  known j hj := by
    have hj' : j < p.world.objs.length := by simpa [World.closedAt] using hj
    rcases hp.known j hj' with h | h | h
    · exact Or.inl (List.mem_cons_of_mem _ h)
    · by_cases hij : j = i
      · exact Or.inl (List.mem_cons.mpr (Or.inl hij))
      · exact Or.inr (Or.inl (List.mem_filter.mpr ⟨h, by simpa using hij⟩))
    · exact Or.inr (Or.inr h)
  lost j hj := by
    obtain ⟨hlt, hclosed, hsockets⟩ := hp.lost j hj
    refine ⟨by simpa [World.closedAt] using hlt, fun h => ?_, fun h => hsockets (List.mem_filter.mp h).1⟩
    rcases List.mem_cons.mp h with rfl | h
    · exact hlost hj
    · exact hclosed h
  held j hj := by
    obtain ⟨hlt, hnot⟩ := hp.held j hj
    exact ⟨by simpa [World.closedAt] using hlt, hnot⟩
  accounted := hp.accounted

theorem Prog.Inv.set (i : Nat) (fn : Bool) :
    Prog.Inv { p with world := { p.world with objs := p.world.objs.set i (p.world.object i fn) } } where
  world := hp.world.set fn
  known j hj := hp.known j (by simpa using hj)
  lost j hj := by simpa using hp.lost j hj
  held j hj := by simpa using hp.held j hj
  accounted := hp.accounted

/-- The table gives the object of the handle. -/
theorem Prog.Inv.objectOf {h : Nat} (hmem : h ∈ p.world.sockets) : p.world.objectOf h = some h := by
  obtain ⟨hlt, hopen⟩ := hp.world.sockets h hmem
  rw [World.objectOf, if_pos hmem, List.findIdx?_eq_some_iff_getElem]
  refine ⟨hlt, ?_, fun j hj => ?_⟩
  · obtain ⟨fn, ho⟩ := hp.world.obj h hlt
    obtain ⟨_, hget⟩ := List.getElem?_eq_some_iff.mp ho
    simp [hget, World.object, hopen]
  · obtain ⟨fn, ho⟩ := hp.world.obj j (Nat.lt_trans hj hlt)
    obtain ⟨_, hget⟩ := List.getElem?_eq_some_iff.mp ho
    rw [hget, World.object]
    by_cases hclosed : j ∈ p.world.closes
    · simp [hclosed]
    · simp [hclosed, Nat.ne_of_lt hj]

end Prog

/-! ## `Context_cleanup` -/

/-- The socket has a handler that closes it, and is open. -/
def World.Spoils (w : World) (handlers : Nat → Script) (h : Nat) : Prop :=
  h ∈ w.sockets ∧ (∃ o, w.objs[h]? = some o ∧ o.sock.onClose = true) ∧ (handlers h).noClose = false

/-- Closing another socket does not change that. -/
theorem spoils_closedAt_iff {w : World} {handlers : Nat → Script} {i h : Nat} {fn : Bool} (hne : h ≠ i) :
    (w.closedAt i fn).Spoils handlers h ↔ w.Spoils handlers h := by
  have hmem : h ∈ (w.closedAt i fn).sockets ↔ h ∈ w.sockets := by simp [World.closedAt, hne]
  have hobj : (w.closedAt i fn).objs[h]? = w.objs[h]? := List.getElem?_set_ne (Ne.symm hne)
  rw [World.Spoils, World.Spoils, hmem, hobj]

/-- **The loop.**  It raises when it comes to a socket whose handler closes it, and has closed that one; without
    such a socket it closes all of them. -/
theorem cleanup_spec (handlers : Nat → Script) (order : List Nat) : ∀ {p : Prog}, p.Inv →
    ∃ w, Prog.Inv { p with world := w } ∧ (∀ h ∈ w.sockets, h ∈ p.world.sockets) ∧
      ((∀ h ∈ order, ¬ p.world.Spoils handlers h) → cleanup handlers order p.world = .ret () w ∧
        ∀ h ∈ order, h ∉ w.sockets) ∧
      ((∃ h ∈ order, p.world.Spoils handlers h) → cleanup handlers order p.world = .raise w) := by
  induction order with
  | nil =>
    intro p hp
    refine ⟨p.world, hp, fun _ h => h, fun _ => ⟨rfl, fun _ h => absurd h List.not_mem_nil⟩, fun h => ?_⟩
    obtain ⟨h, hmem, -⟩ := h
    exact absurd hmem List.not_mem_nil
  | cons i rest ih =>
    intro p hp
    by_cases hmem : i ∈ p.world.sockets
    · obtain ⟨hi, hopen⟩ := hp.world.sockets i hmem
      obtain ⟨fn, ho⟩ := hp.world.obj i hi
      have hlost : i ∉ p.lost := fun h => (hp.lost i h).2.2 hmem
      obtain ⟨fn', hend⟩ := hp.world.closing hopen ho (handlers i)
      have hspoils : p.world.Spoils handlers i ↔ (fn && !(handlers i).noClose) = true := by
        rw [World.Spoils, ho]
        simp [hmem, World.object]
      have hp' := hp.closedAt hi hlost hopen fn'
      by_cases hbad : (fn && !(handlers i).noClose) = true
      · -- this one raises, and is closed
        rw [if_pos hbad] at hend
        refine ⟨p.world.closedAt i fn', hp', fun h hh => (List.mem_filter.mp hh).1, fun h => ?_, fun _ => ?_⟩
        · exact absurd (hspoils.mpr hbad) (h i List.mem_cons_self)
        · simp [cleanup, hp.objectOf hmem, hend]
      · rw [if_neg hbad] at hend
        obtain ⟨w, hw, hsub, hret, hraise⟩ := ih hp'
        have hrun : cleanup handlers (i :: rest) p.world = cleanup handlers rest (p.world.closedAt i fn') := by
          simp [cleanup, hp.objectOf hmem, hend]
        have hgone : i ∉ w.sockets := fun h => by
          have hfilter := (List.mem_filter.mp (hsub i h)).2
          simp at hfilter
        refine ⟨w, hw, fun h hh => (List.mem_filter.mp (hsub h hh)).1, fun hno => ?_, fun hex => ?_⟩
        · obtain ⟨hend', hall⟩ := hret fun h hh hsp => by
            by_cases hne : h = i
            · subst hne
              have hmem' := (List.mem_filter.mp hsp.1).2
              simp at hmem'
            · exact hno h (List.mem_cons_of_mem _ hh) ((spoils_closedAt_iff hne).mp hsp)
          refine ⟨hrun.trans hend', fun h hh => ?_⟩
          rcases List.mem_cons.mp hh with rfl | hh
          · exact hgone
          · exact hall h hh
        · obtain ⟨h, hh, hsp⟩ := hex
          have hne : h ≠ i := by
            rintro rfl
            exact hbad (hspoils.mp hsp)
          have hrest := (List.mem_cons.mp hh).resolve_left hne
          exact hrun.trans (hraise ⟨h, hrest, (spoils_closedAt_iff hne).mpr hsp⟩)
    · -- removed already
      have hrun : cleanup handlers (i :: rest) p.world = cleanup handlers rest p.world := by
        simp [cleanup, World.objectOf, hmem]
      obtain ⟨w, hw, hsub, hret, hraise⟩ := ih hp
      refine ⟨w, hw, hsub, fun hno => ?_, fun hex => ?_⟩
      · obtain ⟨hend, hall⟩ := hret fun h hh => hno h (List.mem_cons_of_mem _ hh)
        refine ⟨hrun.trans hend, fun h hh => ?_⟩
        rcases List.mem_cons.mp hh with rfl | hh
        · exact fun h => hmem (hsub _ h)
        · exact hall h hh
      · obtain ⟨h, hh, hsp⟩ := hex
        have hne : h ≠ i := by
          rintro rfl
          exact hmem hsp.1
        exact hrun.trans (hraise ⟨h, (List.mem_cons.mp hh).resolve_left hne, hsp⟩)

/-! ## Runs -/

section Prog

variable {p : Prog} (hp : p.Inv)
include hp

/-- Without entries in the table the open handles are the lost ones. -/
theorem Prog.Inv.openHandles_iff (hnone : ∀ h, h ∉ p.world.sockets) (h : Nat) :
    h ∈ p.world.openHandles ↔ h ∈ p.lost := by
  rw [World.openHandles, List.mem_filter, List.mem_range, hp.world.handles, decide_eq_true_eq]
  constructor
  · rintro ⟨hlt, hopen⟩
    exact ((hp.known h hlt).resolve_left hopen).resolve_left (hnone h)
  · intro hlost
    obtain ⟨hlt, hopen, -⟩ := hp.lost h hlost
    exact ⟨hlt, hopen⟩

/-- The step `destroy` of a context that is not terminated. -/
theorem Prog.Inv.destroy (handlers : Nat → Script) (order : Order) (hterm : p.terminated = none) :
    ∃ p', p.call (.destroy handlers order) = some p' ∧ p'.Inv ∧
      (p'.terminated.isSome = true ↔ ∀ h, ¬ p.world.Spoils handlers h) := by
  obtain ⟨w, hw, hsub, hret, hraise⟩ := cleanup_spec handlers (order.val p.world.sockets) hp
  have horder : ∀ h, h ∈ order.val p.world.sockets ↔ h ∈ p.world.sockets := fun h =>
    (order.property p.world.sockets).mem_iff
  have hopen : ¬ p.terminated.isSome = true := by simp [hterm]
  by_cases hsp : ∃ h, p.world.Spoils handlers h
  · obtain ⟨h, hh⟩ := hsp
    have hend := hraise ⟨h, (horder h).mpr hh.1, hh⟩
    refine ⟨{ p with world := w }, ?_, hw, ?_⟩
    · rw [Prog.call, if_neg hopen, hend]
    · exact iff_of_false hopen fun hno => hno h hh
  · have hno : ∀ h, ¬ p.world.Spoils handlers h := fun h hh => hsp ⟨h, hh⟩
    obtain ⟨hend, hall⟩ := hret fun h _ => hno h
    refine ⟨{ p with world := w, terminated := some w.openHandles }, ?_, ?_, iff_of_true rfl hno⟩
    · rw [Prog.call, if_neg hopen, hend]
    · refine ⟨hw.world, hw.known, hw.lost, hw.held, fun opened h => ?_⟩
      obtain rfl := Option.some.inj h
      exact hw.openHandles_iff fun h hh => hall h ((horder h).mpr (hsub h hh)) hh

/-- The step `socket`. -/
theorem Prog.Inv.socket (opened : Bool) (outcomes : List Outcome) :
    ∃ p', p.call (.socket opened outcomes) = some p' ∧ p'.Inv := by
  rw [Prog.call]
  by_cases hterm : p.terminated.isSome = true
  · exact ⟨p, if_pos hterm, hp⟩
  · rw [if_neg hterm]
    cases opened with
    | false => exact ⟨p, by simp [createSocket], hp⟩
    | true =>
      have hend := created hp.world outcomes
      generalize createSocket true outcomes p.world = r at hend
      cases hend with
      | done => exact ⟨_, rfl, hp.done⟩
      | failed fn =>
        refine ⟨_, rfl, ?_⟩
        rw [Option.toList_none, List.append_nil]
        exact hp.failed fn
      | raised => exact ⟨_, rfl, hp.raised (Option.not_isSome_iff_eq_none.mp hterm)⟩

/-- The step `close`. -/
theorem Prog.Inv.close (n : Nat) (handler : Script) : ∃ p', p.call (.close n handler) = some p' ∧ p'.Inv := by
  cases hn : p.held[n]? with
  | none => exact ⟨p, method_none hn _, hp⟩
  | some i =>
    obtain ⟨hi, hlost⟩ := hp.held i (List.mem_of_getElem? hn)
    obtain ⟨fn, ho⟩ := hp.world.obj i hi
    by_cases hopen : i ∈ p.world.closes
    · have hsame : onSocket i (FfiContext.close none handler.run) p.world = .ret () p.world := by
        apply onSocket_same ho
        simp [FfiContext.close, World.cell, World.object, hopen]
      exact ⟨p, method_of hn (Or.inl hsame), hp⟩
    · obtain ⟨fn', hend⟩ := hp.world.closing hopen ho handler
      refine ⟨_, method_of (w := p.world.closedAt i fn') hn ?_, hp.closedAt hi hlost hopen fn'⟩
      by_cases hbad : (fn && !handler.noClose) = true
      · rw [if_pos hbad] at hend
        exact Or.inr hend
      · rw [if_neg hbad] at hend
        exact Or.inl hend

/-- The step `on_close`. -/
theorem Prog.Inv.onClose (n : Nat) (fn : Bool) : ∃ p', p.call (.onClose n fn) = some p' ∧ p'.Inv := by
  cases hn : p.held[n]? with
  | none => exact ⟨p, method_none hn _, hp⟩
  | some i =>
    obtain ⟨hi, -⟩ := hp.held i (List.mem_of_getElem? hn)
    obtain ⟨fn', ho⟩ := hp.world.obj i hi
    by_cases hopen : i ∈ p.world.closes
    · have hraise : onSocket i (FfiContext.onClose fn) p.world =
          .raise { p.world with objs := p.world.objs.set i (p.world.object i fn') } := by
        simp [onSocket, ho, FfiContext.onClose, World.cell, World.object, hopen, World.put]
      exact ⟨_, method_of hn (Or.inr hraise), hp.set i fn'⟩
    · have hret : onSocket i (FfiContext.onClose fn) p.world =
          .ret () { p.world with objs := p.world.objs.set i (p.world.object i fn) } := by
        simp [onSocket, ho, FfiContext.onClose, World.cell, World.object, hopen, World.put, Cell.setOnClose]
      exact ⟨_, method_of hn (Or.inl hret), hp.set i fn⟩

/-- **One call.** -/
theorem Prog.Inv.call (c : Call) : ∃ p', p.call c = some p' ∧ p'.Inv := by
  cases c with
  | socket opened outcomes => exact hp.socket opened outcomes
  | close n handler => exact hp.close n handler
  | onClose n fn => exact hp.onClose n fn
  | destroy handlers order =>
    by_cases hterm : p.terminated.isSome = true
    · exact ⟨p, if_pos hterm, hp⟩
    · obtain ⟨p', h, hp', -⟩ := hp.destroy handlers order (Option.not_isSome_iff_eq_none.mp hterm)
      exact ⟨p', h, hp'⟩

end Prog

/-- A `destroy` gets to `zmq_ctx_term`, or finds the context terminated. -/
def Reaches (_ : Prog) (c : Call) (p' : Prog) : Prop :=
  match c with
  | .destroy _ _ => p'.terminated.isSome = true
  | _ => True

/-- No open socket has a handler that closes it. -/
def Unspoilt (p : Prog) : Call → Prop
  | .destroy handlers _ => p.terminated = none → ∀ h, ¬ p.world.Spoils handlers h
  | _ => True

/-- **Destroying a context.**  In every run each handle is closed at most once, and when the context is terminated
    the open handles are those of the sockets whose constructor raised.  Every `destroy` of a run terminates the
    context iff none of them meets an open socket with a handler that closes it. -/
theorem destroys_iff (calls : List Call) :
    (∃ p, Steps.run Prog.call .init calls = some p ∧ p.world.closes.Nodup ∧ p.Accounted) ∧
    (Steps.Keeps Prog.call Reaches .init calls ↔ Steps.Meets Prog.call Unspoilt .init calls) := by
  constructor
  · obtain ⟨p, hrun, hp⟩ := Steps.exists_run_inv Prog.call (fun _ c hp => Prog.Inv.call hp c) calls _ Prog.inv_init
    exact ⟨p, hrun, hp.world.once, hp.accounted⟩
  · refine Steps.keeps_iff_meets Prog.call Prog.Inv (fun p c hp => ?_)
      (fun p c p' hp h _ => ?_) calls _ Prog.inv_init
    · have hcall := hp.call c
      cases c with
      | destroy handlers order =>
        by_cases hterm : p.terminated.isSome = true
        · refine iff_of_true ⟨p, if_pos hterm, hterm⟩ fun hnone => ?_
          rw [hnone] at hterm
          cases hterm
        · have hnone := Option.not_isSome_iff_eq_none.mp hterm
          obtain ⟨p', h, -, hiff⟩ := hp.destroy handlers order hnone
          constructor
          · rintro ⟨p'', h', hreaches⟩ _
            obtain rfl := Option.some.inj (h.symm.trans h')
            exact hiff.mp hreaches
          · exact fun hno => ⟨p', h, hiff.mpr (hno hnone)⟩
      | socket opened outcomes => exact iff_of_true (hcall.imp fun _ h => ⟨h.1, trivial⟩) trivial
      | close n handler => exact iff_of_true (hcall.imp fun _ h => ⟨h.1, trivial⟩) trivial
      | onClose n fn => exact iff_of_true (hcall.imp fun _ h => ⟨h.1, trivial⟩) trivial
    · obtain ⟨p'', h', hp'⟩ := hp.call c
      obtain rfl := Option.some.inj (h'.symm.trans h)
      exact hp'

end Lzmq.FfiContext
