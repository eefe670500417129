/-
  The number of sockets of a context, in the FFI binding (`lzmq/ffi.lua`), and in both.

  `scount` goes up in `Context:socket`.  `Socket:close` counts down only when it also closes the handle: a
  socket of the context that gives up its handle with `reset_handle(h, false)` stays in the count for ever.
  And `reset_handle` does not test whether the socket is open: on a closed one it raises, but only after it
  has given the socket a new handle, so that a socket that has been counted down is open again.
  `keeps_iff_meets` says that these are the only ways to lose count.

  `Obj` remembers whether `ctx:socket` made the object; the code cannot tell once the socket is closed.
-/
import Lzmq.CContext.Count
import Lzmq.FfiContext.Close

namespace Lzmq.FfiContext

/-! ## Sockets of a context -/

/-- A socket object, and whether it comes from `ctx:socket`. -/
structure Obj where
  sock : Socket
  ofCtx : Bool
deriving DecidableEq, Repr

/-- A context with the socket objects there are, and libzmq. -/
structure World where
  objs : List Obj
  scount : Int
  sockets : List Nat
  nextHandle : Nat
  closes : List Nat
deriving DecidableEq, Repr

def World.init : World := ⟨[], 0, [], 0, []⟩

/-- An open socket of the context. -/
def Obj.counted (o : Obj) : Bool := o.ofCtx && o.sock.skt.isSome

def World.cell (w : World) (sock : Socket) : Cell := ⟨sock, w.scount, w.sockets, w.closes, .zero⟩

def World.put (w : World) (i : Nat) (o : Obj) (c : Cell) : World :=
  { w with
    objs := w.objs.set i { o with sock := c.sock }
    scount := c.scount
    sockets := c.sockets
    closes := c.closes }

/-- A method of the socket object `i`. -/
def onSocket (i : Nat) (x : Lua Cell Unit) : Lua World Unit := fun w =>
  match w.objs[i]? with
  | none => .raise w
  | some o =>
    match x (w.cell o.sock) with
    | .ret _ c => .ret () (w.put i o c)
    | .raise c => .raise (w.put i o c)
    | .abort => .abort

/-- `Context:autoclose` of an own socket, after `check_context`. -/
def autoclose : Lua Cell Unit := do
  let sock ← Lua.read Cell.sock
  if sock.ctx = false then Lua.raise -- assert(self == skt._private.ctx)
  else
    match sock.skt with
    | none => pure ()
    | some h => Lua.modify fun c => { c with sockets := c.sockets.insert h }

/-- `ffi.gc(skt, nil)` -/
def gcOff : Option Nat → Lua Cell Unit
  | none => Lua.raise -- bad argument #1 to 'gc'
  | some _ => pure ()

/-- `Socket:reset_handle`; it does not matter here that an owned handle gets a finalizer. -/
def resetHandle (h : Nat) (own : Option Bool) (close : Bool) : Lua Cell Unit := do
  let sock ← Lua.read Cell.sock
  if sock.ctx then removeSocket
  Lua.modify fun c => { c with sock := { c.sock with skt := some h } }
  match own with
  | none => pure ()
  | some own => Lua.modify fun c => { c with sock := { c.sock with dontDestroy := !own } }
  if sock.ctx then autoclose
  if close then zmqClose sock.skt else gcOff sock.skt

/-- What the setters, `bind` and `connect` that the options of `ctx:socket` name return. -/
structure Setup where
  setters : List Bool
  bind : Option Bool
  connect : Option Bool

def Setup.results (s : Setup) : List Bool := s.setters ++ s.bind.toList ++ s.connect.toList

/-- The calls of the setters, of `bind` and of `connect`; whether the constructor goes on. -/
def configure (i : Nat) : List Bool → Lua World Bool
  | [] => pure true
  | ok :: rest =>
    if ok then configure i rest
    else do
      onSocket i (close none (pure none))
      pure false

/-- The object of a new handle, `_inc_socket_count(1)` -/
def newSocket : Lua World Unit := do
  Lua.modify fun w =>
    { w with
      objs := w.objs ++ [⟨⟨some w.nextHandle, true, false, false⟩, true⟩]
      scount := w.scount + 1
      nextHandle := w.nextHandle + 1 }
  let scount ← Lua.read World.scount
  if 0 ≤ scount then pure () else Lua.raise

/-- `Context:socket`, on valid arguments; `opened` is whether `zmq_socket` succeeds. -/
def contextSocket (opened : Bool) (s : Setup) : Lua World Unit := do
  let w ← Lua.read id
  if opened then do
    newSocket
    if ← configure w.objs.length s.results then onSocket w.objs.length autoclose else pure ()
  else pure ()

/-- `zmq.init_socket` -/
def initSocket (h : Nat) : Lua World Unit :=
  Lua.modify fun w => { w with objs := w.objs ++ [⟨⟨some h, false, false, true⟩, false⟩] }

/-- What is done to a context, to the i-th socket object, or with a handle. -/
inductive Use
  | socket (opened : Bool) (s : Setup)
  | close (i : Nat)
  | onClose (i : Nat) (fn : Bool)
  | resetHandle (i h : Nat) (own : Option Bool) (close : Bool)
  | initSocket (h : Nat)
  | foreign

/-- A use, made under `pcall`; a handler leaves the sockets alone. -/
def World.use (w : World) : Use → Option World
  | .socket opened s => Lua.after (contextSocket opened s) w
  | .close i => Lua.after (onSocket i (FfiContext.close none (pure none))) w
  | .onClose i fn => Lua.after (onSocket i (FfiContext.onClose fn)) w
  | .resetHandle i h own close =>
    if h < w.nextHandle then Lua.after (onSocket i (FfiContext.resetHandle h own close)) w else some w
  | .initSocket h => if h < w.nextHandle then Lua.after (FfiContext.initSocket h) w else some w
  | .foreign => some { w with nextHandle := w.nextHandle + 1 }

/-! ## Keeping count -/

/-- The counter is right after the step. -/
def Ok (_ : World) (_ : Use) (w' : World) : Prop := w'.scount = w'.objs.countP Obj.counted

instance (w : World) (u : Use) (w' : World) : Decidable (Ok w u w') :=
  inferInstanceAs (Decidable (_ = _))

/-- A socket of the context is not closed while it does not own its handle, and gets no handle when it is
    closed. -/
def Cond (w : World) : Use → Prop
  | .close i => ∀ o, w.objs[i]? = some o → o.counted = true → o.sock.dontDestroy = false
  | .resetHandle i h _ _ => h < w.nextHandle → ∀ o, w.objs[i]? = some o → o.ofCtx = true → o.sock.skt ≠ none
  | _ => True

/-- The counter is right, and a socket has its context while it is open. -/
structure Counted (w : World) : Prop where
  count : Ledger.Balanced Obj.counted w.objs w.scount
  ctx : ∀ o ∈ w.objs, o.sock.ctx = o.counted

/-! ## The methods -/

section Methods

variable {c : Cell}

theorem runHandler_quiet (c : Cell) : ∃ tally, runHandler (pure none) c = .ret () { c with tally := tally } := by
  by_cases hon : c.sock.onClose = true
  · exact ⟨c.tally.ran, runHandler_some hon rfl⟩
  · exact ⟨c.tally, runHandler_none (pure none) (Bool.eq_false_iff.mpr hon)⟩

/-- **`close`** of an open socket counts down if the socket has a context and owns its handle. -/
theorem close_spec {h : Nat} (hskt : c.sock.skt = some h) (hpos : c.sock.ctx = true → 1 ≤ c.scount) :
    ∃ c', close none (pure none) c = .ret () c' ∧ c'.sock.skt = none ∧ c'.sock.ctx = false ∧
      c'.scount = c.scount - if c.sock.ctx && !c.sock.dontDestroy then 1 else 0 := by
  obtain ⟨tally, hrun⟩ := runHandler_quiet c
  cases howns : c.sock.dontDestroy with
  | true =>
    refine ⟨Cell.forget { c with tally := tally }, ?_, rfl, rfl, ?_⟩
    · simp [close, hskt, hrun, closeHandle, howns]
    · simp [Cell.forget]
  | false =>
    cases hctx : c.sock.ctx with
    | true =>
      have hle : 0 ≤ c.scount + -1 := by have := hpos hctx; omega
      refine ⟨Cell.forget (Cell.afterClose h { c with tally := tally }), ?_, rfl, rfl, rfl⟩
      simp [close, hskt, hrun, closeHandle, setLinger, howns, hctx, removeSocket, incSocketCount, zmqClose, hle,
        Cell.afterClose, Int.sub_eq_add_neg]
    | false =>
      refine ⟨Cell.forget { c with tally := tally, closes := h :: c.closes }, ?_, rfl, rfl, ?_⟩
      · simp [close, hskt, hrun, closeHandle, setLinger, howns, hctx, zmqClose]
      · simp [Cell.forget]

/-- Without `own` the flag stays. -/
theorem resetHandle_own (h : Nat) (own : Option Bool) (close : Bool) (c : Cell) :
    resetHandle h own close c = resetHandle h (some (own.getD (!c.sock.dontDestroy))) close c := by
  obtain ⟨⟨skt, ctx, onClose, dontDestroy⟩, scount, sockets, closes, tally⟩ := c
  cases own with
  | some own => rfl
  | none =>
    cases ctx with
    | false => simp [resetHandle]
    | true => cases skt <;> simp [resetHandle, removeSocket]

/-- **`reset_handle`** leaves the counter and the context alone; the socket is open afterwards, also when the
    call raises. -/
theorem resetHandle_spec (hctx : c.sock.ctx = true → c.sock.skt.isSome = true) (h : Nat) (own : Option Bool)
    (close : Bool) : ∃ c', (resetHandle h own close c = .ret () c' ∨ resetHandle h own close c = .raise c') ∧
      c'.sock.skt = some h ∧ c'.sock.ctx = c.sock.ctx ∧ c'.scount = c.scount := by
  rw [resetHandle_own]
  generalize own.getD _ = own
  obtain ⟨⟨skt, ctx, onClose, dontDestroy⟩, scount, sockets, closes, tally⟩ := c
  cases skt with
  | none =>
    -- closed: neither `zmq_close` nor `ffi.gc` takes the handle that is not there
    obtain rfl : ctx = false := Bool.eq_false_iff.mpr fun h => absurd (hctx h) (by simp)
    refine ⟨⟨⟨some h, false, onClose, !own⟩, scount, sockets, closes, tally⟩, Or.inr ?_,
      rfl, rfl, rfl⟩
    cases close with
    | true => simp [resetHandle, zmqClose]
    | false => simp [resetHandle, gcOff]
  | some h₀ =>
    refine ⟨⟨⟨some h, ctx, onClose, !own⟩, scount,
      if ctx then (sockets.filter (· ≠ h₀)).insert h else sockets,
      if close then h₀ :: closes else closes, tally⟩, Or.inl ?_, rfl, rfl, rfl⟩
    cases ctx with
    | true =>
      cases close with
      | true => simp [resetHandle, zmqClose, removeSocket, autoclose]
      | false => simp [resetHandle, gcOff, removeSocket, autoclose]
    | false =>
      cases close with
      | true => simp [resetHandle, zmqClose]
      | false => simp [resetHandle, gcOff]

end Methods

/-! ## One use -/

theorem counted_init : Counted World.init where
  count := Ledger.balanced_nil
  ctx _ ho := absurd ho List.not_mem_nil

section Use

variable {w : World} {i : Nat} {o : Obj} {c : Cell}

theorem after_onSocket (ho : w.objs[i]? = some o) {x : Lua Cell Unit}
    (hrun : x (w.cell o.sock) = .ret () c ∨ x (w.cell o.sock) = .raise c) :
    Lua.after (onSocket i x) w = some (w.put i o c) := by
  apply Lua.after_of
  rcases hrun with hrun | hrun
  · exact Or.inl ⟨(), by simp [onSocket, ho, hrun]⟩
  · exact Or.inr (by simp [onSocket, ho, hrun])

theorem after_onSocket_none (ho : w.objs[i]? = none) (x : Lua Cell Unit) :
    Lua.after (onSocket i x) w = some w := by
  apply Lua.after_of
  exact Or.inr (by simp [onSocket, ho])

variable (hw : Counted w)
include hw

theorem Counted.put (hcount : Ledger.Balanced Obj.counted (w.put i o c).objs (w.put i o c).scount)
    (hctx : c.sock.ctx = (o.ofCtx && c.sock.skt.isSome)) : Counted (w.put i o c) where
  count := hcount
  ctx p hp := by
    rcases List.mem_or_eq_of_mem_set hp with hp | rfl
    · exact hw.ctx p hp
    · exact hctx

theorem Counted.ctx_at (ho : w.objs[i]? = some o) : o.sock.ctx = o.counted :=
  hw.ctx o (List.mem_of_getElem? ho)

theorem Counted.pos (ho : w.objs[i]? = some o) (hctx : o.sock.ctx = true) : 1 ≤ w.scount :=
  hw.count.pos (List.mem_of_getElem? ho) (hw.ctx_at ho ▸ hctx)

/-- A method that leaves handle, context and counter alone. -/
theorem Counted.put_same (ho : w.objs[i]? = some o) (hskt : c.sock.skt = o.sock.skt)
    (hctx : c.sock.ctx = o.sock.ctx) (hn : c.scount = w.scount) : Counted (w.put i o c) := by
  have hsame : Obj.counted { o with sock := c.sock } = o.counted := by
    rw [Obj.counted, hskt]
    rfl
  refine hw.put ?_ ?_
  · show Ledger.Balanced Obj.counted _ c.scount
    rw [hn]
    exact hw.count.set_same ho hsame
  · rw [hctx, hskt]
    exact hw.ctx_at ho

/-- The counter after a socket has been closed. -/
theorem Counted.balanced_close (ho : w.objs[i]? = some o) (hnone : c.sock.skt = none)
    (hn : c.scount = w.scount - if o.sock.ctx && !o.sock.dontDestroy then 1 else 0) :
    Ledger.Balanced Obj.counted (w.put i o c).objs (w.put i o c).scount ↔
      (o.counted = true → o.sock.dontDestroy = false) := by
  have hdead : Obj.counted { o with sock := c.sock } = false := by simp [Obj.counted, hnone]
  show Ledger.Balanced Obj.counted (w.objs.set i { o with sock := c.sock }) c.scount ↔ _
  rw [hn, hw.ctx_at ho]
  cases hlive : o.counted with
  | false =>
    rw [Bool.false_and, if_neg Bool.false_ne_true, Int.sub_zero]
    exact ⟨fun _ h => Bool.noConfusion h, fun _ => hw.count.set_same ho (hdead.trans hlive.symm)⟩
  | true =>
    cases howns : o.sock.dontDestroy with
    | false => exact ⟨fun _ _ => rfl, fun _ => hw.count.set_dead ho hlive hdead⟩
    | true =>
      -- the socket leaves the count, the counter does not move
      rw [Bool.not_true, Bool.and_false, if_neg Bool.false_ne_true, Int.sub_zero, hw.count.set_iff ho, hdead,
        hlive]
      exact ⟨fun h => Bool.noConfusion h, fun h => Bool.noConfusion (h rfl)⟩

/-- **`close`** of the i-th socket. -/
theorem Counted.close (i : Nat) : ∃ w', w.use (.close i) = some w' ∧
    (Ok w (.close i) w' ↔ Cond w (.close i)) ∧ (Ok w (.close i) w' → Counted w') := by
  cases ho : w.objs[i]? with
  | none =>
    refine ⟨w, after_onSocket_none ho _, ⟨fun _ o h => ?_, fun _ => hw.count⟩, fun _ => hw⟩
    rw [ho] at h
    cases h
  | some o =>
    have hcond : Cond w (.close i) ↔ (o.counted = true → o.sock.dontDestroy = false) := by
      rw [Cond, ho]
      exact ⟨fun h => h o rfl, fun h p hp => by cases hp; exact h⟩
    cases hskt : o.sock.skt with
    | none =>
      -- a closed socket
      have hrun : FfiContext.close none (pure none) (w.cell o.sock) = .ret () (w.cell o.sock) := by
        simp [FfiContext.close, World.cell, hskt]
      have hput := hw.put_same (c := w.cell o.sock) ho rfl rfl rfl
      have hdead : o.counted = false := by simp [Obj.counted, hskt]
      refine ⟨_, after_onSocket ho (Or.inl hrun), ?_, fun _ => hput⟩
      rw [hcond, hdead]
      exact ⟨fun _ h => Bool.noConfusion h, fun _ => hput.count⟩
    | some h =>
      obtain ⟨c', hrun, hnone, hctx, hn⟩ := close_spec (c := w.cell o.sock) hskt (hw.pos ho)
      refine ⟨w.put i o c', after_onSocket ho (Or.inl hrun), ?_, fun hcount => hw.put hcount ?_⟩
      · rw [hcond]
        exact hw.balanced_close ho hnone hn
      · rw [hctx, hnone, Option.isSome_none, Bool.and_false]

/-- **`reset_handle`** of the i-th socket. -/
theorem Counted.resetHandle (i h : Nat) (own : Option Bool) (close : Bool) :
    ∃ w', w.use (.resetHandle i h own close) = some w' ∧
      (Ok w (.resetHandle i h own close) w' ↔ Cond w (.resetHandle i h own close)) ∧
      (Ok w (.resetHandle i h own close) w' → Counted w') := by
  rw [World.use, Cond]
  by_cases hlt : h < w.nextHandle
  · rw [if_pos hlt]
    cases ho : w.objs[i]? with
    | none =>
      exact ⟨w, after_onSocket_none ho _, ⟨fun _ _ o h => (by cases h), fun _ => hw.count⟩, fun _ => hw⟩
    | some o =>
      have hctx := hw.ctx_at ho
      have hopen : o.sock.ctx = true → o.sock.skt.isSome = true := fun h => by
        rw [hctx, Obj.counted, Bool.and_eq_true] at h
        exact h.2
      obtain ⟨c', hrun, hskt, hctx', hn⟩ := resetHandle_spec (c := w.cell o.sock) hopen h own close
      have hok : Ok w (.resetHandle i h own close) (w.put i o c') ↔ (o.ofCtx = true → o.sock.skt ≠ none) := by
        show Ledger.Balanced Obj.counted (w.objs.set i { o with sock := c'.sock }) c'.scount ↔ _
        rw [hn]
        show Ledger.Balanced Obj.counted _ w.scount ↔ _
        rw [hw.count.set_iff ho, Obj.counted, Obj.counted, hskt]
        cases o.ofCtx with
        | false => simp
        | true => cases o.sock.skt <;> simp
      refine ⟨w.put i o c', after_onSocket ho hrun, ?_, fun hcount => hw.put hcount ?_⟩
      · rw [hok]
        exact ⟨fun h _ p hp => by cases hp; exact h, fun h => h hlt o rfl⟩
      · rw [hctx', hskt]
        show o.sock.ctx = _
        rw [hctx, Obj.counted]
        have hkeep := hok.mp hcount
        cases hof : o.ofCtx with
        | false => rfl
        | true =>
          obtain ⟨h₀, hsome⟩ := Option.ne_none_iff_exists'.mp (hkeep hof)
          rw [hsome]
          rfl
  · rw [if_neg hlt]
    exact ⟨w, rfl, ⟨fun _ h' => absurd h' hlt, fun _ => hw.count⟩, fun _ => hw⟩

/-- A new object. -/
theorem Counted.add (o : Obj) (n : Nat) (hctx : o.sock.ctx = o.counted) : Counted { w with
    objs := w.objs ++ [o], scount := w.scount + if o.counted then 1 else 0, nextHandle := n } where
  count := hw.count.append o
  ctx p hp := by
    rcases List.mem_append.mp hp with hp | hp
    · exact hw.ctx p hp
    · rw [List.mem_singleton.mp hp]
      exact hctx

/-- The constructor, when a method that it calls fails. -/
theorem Counted.configure {h : Nat} (ho : w.objs[i]? = some o) (hskt : o.sock.skt = some h)
    (howns : o.sock.dontDestroy = false) : ∀ results, ∃ b w', FfiContext.configure i results w = .ret b w' ∧
      Counted w' ∧ (b = true → w' = w) := by
  intro results
  induction results with
  | nil => exact ⟨true, w, rfl, hw, fun _ => rfl⟩
  | cons ok rest ih =>
    cases ok with
    | true => exact ih
    | false =>
      obtain ⟨c', hrun, hnone, hctx, hn⟩ := close_spec (c := w.cell o.sock) hskt (hw.pos ho)
      refine ⟨false, w.put i o c', by simp [FfiContext.configure, onSocket, ho, hrun], ?_,
        fun h => Bool.noConfusion h⟩
      refine hw.put ((hw.balanced_close ho hnone hn).mpr fun _ => howns) ?_
      rw [hctx, hnone, Option.isSome_none, Bool.and_false]

/-- **`ctx:socket`**, whatever comes of it. -/
theorem Counted.socket (opened : Bool) (s : Setup) :
    ∃ w', w.use (.socket opened s) = some w' ∧ Counted w' := by
  rw [World.use]
  cases opened with
  | false => exact ⟨w, Lua.after_of (Or.inl ⟨(), by simp [contextSocket]⟩), hw⟩
  | true =>
    let o : Obj := ⟨⟨some w.nextHandle, true, false, false⟩, true⟩
    have hm := hw.add o (w.nextHandle + 1) rfl
    generalize hmeq : { w with
      objs := w.objs ++ [o]
      scount := w.scount + if o.counted then 1 else 0
      nextHandle := w.nextHandle + 1 } = m at hm
    have ho : m.objs[w.objs.length]? = some o := by simp [← hmeq]
    have hnew : newSocket w = .ret () m := by
      have hpos : 0 ≤ w.scount + 1 := by have := hw.count.nonneg; omega
      rw [← hmeq]
      simp [newSocket, hpos, o, Obj.counted]
    obtain ⟨b, w', hrun, hw', hgo⟩ := hm.configure ho rfl rfl s.results
    cases b with
    | false => exact ⟨w', Lua.after_of (Or.inl ⟨(), by simp [contextSocket, hnew, hrun]⟩), hw'⟩
    | true =>
      obtain rfl := hgo rfl
      refine ⟨w'.put w.objs.length o { w'.cell o.sock with sockets := w'.sockets.insert w.nextHandle }, ?_,
        hw'.put_same ho rfl rfl rfl⟩
      apply Lua.after_of
      exact Or.inl ⟨(), by simp [contextSocket, hnew, hrun, onSocket, ho, autoclose, o, World.cell]⟩

theorem Counted.onClose (i : Nat) (fn : Bool) : ∃ w', w.use (.onClose i fn) = some w' ∧ Counted w' := by
  rw [World.use]
  cases ho : w.objs[i]? with
  | none => exact ⟨w, after_onSocket_none ho _, hw⟩
  | some o =>
    cases hskt : o.sock.skt with
    | none =>
      have hrun : FfiContext.onClose fn (w.cell o.sock) = .raise (w.cell o.sock) := by
        simp [FfiContext.onClose, World.cell, hskt]
      exact ⟨_, after_onSocket ho (Or.inr hrun), hw.put_same ho rfl rfl rfl⟩
    | some h =>
      have hrun : FfiContext.onClose fn (w.cell o.sock) = .ret () ((w.cell o.sock).setOnClose fn) := by
        simp [FfiContext.onClose, World.cell, hskt]
      exact ⟨_, after_onSocket ho (Or.inl hrun), hw.put_same ho rfl rfl rfl⟩

theorem Counted.initSocket (h : Nat) : ∃ w', w.use (.initSocket h) = some w' ∧ Counted w' := by
  rw [World.use]
  by_cases hlt : h < w.nextHandle
  · rw [if_pos hlt]
    refine ⟨_, Lua.after_of (Or.inl ⟨(), rfl⟩), ?_⟩
    simpa [Obj.counted] using hw.add ⟨⟨some h, false, false, true⟩, false⟩ w.nextHandle rfl
  · rw [if_neg hlt]
    exact ⟨w, rfl, hw⟩

/-- **One use**: the counter is right after it iff the condition held before it. -/
theorem Counted.use (u : Use) :
    ∃ w', w.use u = some w' ∧ (Ok w u w' ↔ Cond w u) ∧ (Ok w u w' → Counted w') := by
  -- what always goes well meets the condition
  have hfine : Cond w u → (∃ w', w.use u = some w' ∧ Counted w') →
      ∃ w', w.use u = some w' ∧ (Ok w u w' ↔ Cond w u) ∧ (Ok w u w' → Counted w') := by
    rintro hcond ⟨w', hu, hw'⟩
    exact ⟨w', hu, ⟨fun _ => hcond, fun _ => hw'.count⟩, fun _ => hw'⟩
  cases u with
  | socket opened s => exact hfine trivial (hw.socket opened s)
  | close i => exact hw.close i
  | onClose i fn => exact hfine trivial (hw.onClose i fn)
  | resetHandle i h own close => exact hw.resetHandle i h own close
  | initSocket h => exact hfine trivial (hw.initSocket h)
  | foreign => exact hfine trivial ⟨_, rfl, hw.count, hw.ctx⟩

end Use

/-- **Every run** of the FFI binding: the counter is right after each use iff each use meets the condition. -/
theorem keeps_iff_meets (us : List Use) :
    Steps.Keeps World.use Ok .init us ↔ Steps.Meets World.use Cond .init us := by
  refine Steps.keeps_iff_meets World.use Counted (fun w u hw => ?_) (fun w u w' hw hu hok => ?_) us .init
    counted_init
  · obtain ⟨w', hu, hiff, -⟩ := hw.use u
    rw [← hiff]
    refine ⟨fun ⟨w'', hu', hok⟩ => ?_, fun hok => ⟨w', hu, hok⟩⟩
    obtain rfl : w' = w'' := Option.some.inj (hu.symm.trans hu')
    exact hok
  · obtain ⟨w'', hu', -, hcounted⟩ := hw.use u
    obtain rfl : w'' = w' := Option.some.inj (hu'.symm.trans hu)
    exact hcounted hok

/-! ## Both bindings -/

/-- **Socket counting.**  In the C binding the counter is right, and before the close of a counted socket
    positive, in every state that any run reaches.  In the FFI binding it is right after each use of a run iff
    no counted socket is closed while it does not own its handle, and none that is closed is given a
    handle. -/
theorem socketCount_iff (us : List CContext.Use) (ffi : List Use) :
    (∀ w, Steps.run CContext.World.use .init us = some w →
      w.socketCount = w.objs.countP CContext.ZSocket.counted ∧
        ∀ z ∈ w.objs, z.counted = true → 1 ≤ w.socketCount) ∧
    (Steps.Keeps World.use Ok .init ffi ↔ Steps.Meets World.use Cond .init ffi) :=
  ⟨fun _ h => CContext.run_counted us h, keeps_iff_meets ffi⟩

/-- The FFI binding loses count of a socket that gives up its handle and is closed, and of one that gets a
    handle after it has been closed. -/
theorem not_keeps :
    ¬ Steps.Keeps World.use Ok .init
      [.socket true ⟨[], none, none⟩, .foreign, .resetHandle 0 1 (some false) false, .close 0] ∧
    ¬ Steps.Keeps World.use Ok .init
      [.socket true ⟨[], none, none⟩, .foreign, .close 0, .resetHandle 0 1 none false] := by
  constructor
  · rintro ⟨_, h₁, -, _, h₂, -, _, h₃, -, _, h₄, hok, -⟩
    cases h₁
    cases h₂
    cases h₃
    cases h₄
    exact absurd hok (by decide)
  · rintro ⟨_, h₁, -, _, h₂, -, _, h₃, -, _, h₄, hok, -⟩
    cases h₁
    cases h₂
    cases h₃
    cases h₄
    exact absurd hok (by decide)

end Lzmq.FfiContext
