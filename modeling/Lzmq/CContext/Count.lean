/-
  The number of sockets of a context, in the C binding.

  `socket_count` goes up when `ctx:socket` has opened a handle, and down when a socket that has a context
  is closed, whether it owns its handle or not.  `reset_handle` moves handles and ownership and leaves the
  context of a socket alone, so the counter stays the number of open sockets of the context, and no close
  brings it below zero.

  Handles may come from elsewhere: `Use.foreign` is a socket that other code opens, whose handle
  `init_socket` and `reset_handle` may then be called with.  A handler of `on_close` runs, but leaves the
  sockets alone.
-/
import Lzmq.CContext.Atomic
import Lzmq.Lib.Ledger
import Lzmq.Lib.Steps

namespace Lzmq.CContext

/-! ## Using sockets -/

/-- `luazmq_skt_reset_handle`, with a handle, the optional argument `own`, and `close`. -/
def luazmqSktResetHandle (src : Nat) (own : Option Bool) (close : Bool) : Lua Cell Unit := do
  let zskt ← Lua.read Cell.zskt
  if zskt.closed then Lua.raise -- luazmq_getsocket
  else do
    let own := own.getD (!zskt.dontDestroy)
    Lua.modify fun c => { c with zskt := { c.zskt with skt := src, dontDestroy := !own } }
    if close then do
      let _ ← zmqClose zskt.skt
      pure ()
    else pure ()

/-- `luazmq_init_socket` -/
def luazmqInitSocket (src : Nat) : Lua World Unit :=
  Lua.modify fun w => { w with objs := w.objs ++ [⟨src, false, true, false, .noref⟩] }

/-- What is done to a context, to the i-th socket object, or with a handle. -/
inductive Use
  | socket (env : Env) (args : List Val)
  | close (i : Nat)
  | onClose (i : Nat) (fn : Bool)
  | resetHandle (i src : Nat) (own : Option Bool) (close : Bool)
  | initSocket (src : Nat)
  | foreign

/-- A use, made under `pcall`; `none` when the process aborts.  There are no handles but those that libzmq
    has given out. -/
def World.use (w : World) : Use → Option World
  | .socket env args =>
    match ctxSocket env w args with
    | .ret _ f => some f.world
    | .raise f => some f.world
    | .abort => none
  | .close i => Lua.after (luazmqSktClose i) w
  | .onClose i fn => Lua.after (onSocket i (luazmqSktOnClose fn)) w
  | .resetHandle i src own close =>
    if src < w.nextHandle then Lua.after (onSocket i (luazmqSktResetHandle src own close)) w else some w
  | .initSocket src => if src < w.nextHandle then Lua.after (luazmqInitSocket src) w else some w
  | .foreign => some { w with nextHandle := w.nextHandle + 1 }

/-! ## The invariant -/

/-- The counter is right, and all handles have been given out by libzmq. -/
structure Counted (w : World) : Prop where
  opened : w.closed = false
  closes : ∀ h ∈ w.closes, h < w.nextHandle
  handle : ∀ z ∈ w.objs, z.skt < w.nextHandle
  count : Ledger.Balanced ZSocket.counted w.objs w.socketCount

/-- What a method may do to its cell: it uses handles that there are, and its socket stays counted or is
    counted down. -/
structure Fair (n : Nat) (c c' : Cell) : Prop where
  closes : ∀ h ∈ c'.closes, h < n
  handle : c'.zskt.skt < n
  count : c'.socketCount =
    c.socketCount - (if c.zskt.counted then 1 else 0) + if c'.zskt.counted then 1 else 0

theorem counted_init : Counted World.init where
  opened := rfl
  closes _ hh := absurd hh List.not_mem_nil
  handle _ hz := absurd hz List.not_mem_nil
  count := Ledger.balanced_nil

section Counted

variable {w : World} (hw : Counted w)
include hw

theorem Counted.put {i : Nat} {z : ZSocket} {c : Cell} (hz : w.objs[i]? = some z)
    (hc : Fair w.nextHandle (w.cell z) c) : Counted (w.put i c) where
  opened := hw.opened
  closes := hc.closes
  handle y hy := by
    rcases List.mem_or_eq_of_mem_set hy with hy | rfl
    · exact hw.handle y hy
    · exact hc.handle
  count := by
    have hset := hw.count.set hz (b := c.zskt)
    rw [World.put, hc.count]
    exact hset

/-- A new object. -/
theorem Counted.add {z : ZSocket} {n : Nat} (hz : z.skt < n) (hn : w.nextHandle ≤ n) :
    Counted { w with
      objs := w.objs ++ [z]
      socketCount := w.socketCount + if z.counted then 1 else 0
      nextHandle := n } where
  opened := hw.opened
  closes h hh := Nat.lt_of_lt_of_le (hw.closes h hh) hn
  handle y hy := by
    rcases List.mem_append.mp hy with hy | hy
    · exact Nat.lt_of_lt_of_le (hw.handle y hy) hn
    · rw [List.mem_singleton.mp hy]
      exact hz
  count := hw.count.append z

theorem Counted.cell_lt {i : Nat} {z : ZSocket} (hz : w.objs[i]? = some z) : z.skt < w.nextHandle :=
  hw.handle z (List.mem_of_getElem? hz)

/-- The counter before a close. -/
theorem Counted.pos {i : Nat} {z : ZSocket} (hz : w.objs[i]? = some z) (hlive : z.counted = true) :
    1 ≤ w.socketCount := hw.count.pos (List.mem_of_getElem? hz) hlive

end Counted

/-! ## The methods -/

theorem Fair.refl {n : Nat} {c : Cell} (hcloses : ∀ h ∈ c.closes, h < n) (hhandle : c.zskt.skt < n) :
    Fair n c c :=
  ⟨hcloses, hhandle, by rw [Int.sub_add_cancel]⟩

/-- `uncount` on a socket that is counted, or has no context. -/
theorem uncount_eq {c : Cell} (hopen : c.zskt.closed = false)
    (hcount : c.zskt.counted = true → 1 ≤ c.socketCount) :
    uncount c = .ret () { c with socketCount := c.socketCount - if c.zskt.counted then 1 else 0 } := by
  have hcounted : c.zskt.counted = c.zskt.ctx := by rw [ZSocket.counted, hopen, Bool.not_false, Bool.and_true]
  rw [hcounted] at hcount ⊢
  cases hctx : c.zskt.ctx with
  | true => exact uncount_of hctx (hcount hctx)
  | false => simp [uncount, hctx]

/-- A handler that does nothing leaves all but `onclose_ref` and its own tally. -/
theorem beforeClose_idle {c : Cell} (hopen : c.zskt.closed = false) : ∃ m : Cell,
    luazmqSktBeforeClose (pure none) c = .ret none m ∧ m.zskt.skt = c.zskt.skt ∧
      m.zskt.dontDestroy = c.zskt.dontDestroy ∧ m.zskt.ctx = c.zskt.ctx ∧ m.zskt.closed = false ∧
      m.socketCount = c.socketCount ∧ m.closes = c.closes := by
  obtain ⟨tally, ref, hbefore, -⟩ := beforeClose_noClose (s := .ends none) (c := c) fun _ => rfl
  rw [Handler.error, ite_self] at hbefore
  exact ⟨_, hbefore, rfl, rfl, rfl, hopen, rfl, rfl⟩

/-- **A close** takes an open socket of the context out of the count; only its `zmq_close` may fail. -/
theorem destroy_fair {n : Nat} {c : Cell} (hcloses : ∀ h ∈ c.closes, h < n) (hhandle : c.zskt.skt < n)
    (hcount : c.zskt.counted = true → 1 ≤ c.socketCount) :
    (luazmqSktDestroy none (pure none) c = .abort ∧ c.zskt.closed = false ∧ c.zskt.dontDestroy = false ∧
      c.zskt.skt ∈ c.closes) ∨ ∃ c', luazmqSktDestroy none (pure none) c = .ret () c' ∧ Fair n c c' := by
  by_cases hclosed : c.zskt.closed = true
  · refine Or.inr ⟨c, ?_, Fair.refl hcloses hhandle⟩
    simp [luazmqSktDestroy, hclosed]
  · have hopen := Bool.eq_false_iff.mpr hclosed
    obtain ⟨m, hm, hskt, howns, hctx, hmclosed, hsockets, hmcloses⟩ := beforeClose_idle hopen
    have hcounted : m.zskt.counted = c.zskt.counted := by
      rw [ZSocket.counted, ZSocket.counted, hctx, hmclosed, hopen]
    have hrun : ∀ m' : Cell, closeHandle none m = .ret () m' → m'.zskt = m.zskt → m'.socketCount = m.socketCount →
        (∀ h ∈ m'.closes, h < n) → ∃ c', luazmqSktDestroy none (pure none) c = .ret () c' ∧ Fair n c c' := by
      intro m' hclose hz hn hlt
      have huncount := uncount_eq (c := m') (by rw [hz, hmclosed])
          (by rw [hz, hn, hcounted, hsockets]; exact hcount)
      refine ⟨Cell.setClosed { m' with socketCount := m'.socketCount - if m'.zskt.counted then 1 else 0 },
        ?_, ?_⟩
      · simp [luazmqSktDestroy, hopen, hm, hclose, huncount]
      · refine ⟨hlt, ?_, ?_⟩
        · show m'.zskt.skt < n
          rw [hz, hskt]
          exact hhandle
        · have hdead : (Cell.setClosed { m' with
              socketCount := m'.socketCount - if m'.zskt.counted then 1 else 0 }).zskt.counted = false := by
            simp [Cell.setClosed, ZSocket.counted]
          rw [hdead, ← hcounted, ← hsockets, ← hn, ← hz]
          simp [Cell.setClosed]
    by_cases hkeep : m.zskt.dontDestroy = true
    · refine Or.inr (hrun m (by simp [closeHandle, hkeep]) rfl rfl ?_)
      rw [hmcloses]
      exact hcloses
    · have howned := Bool.eq_false_iff.mpr hkeep
      by_cases hin : m.zskt.skt ∈ m.closes
      · refine Or.inl ⟨?_, hopen, howns ▸ howned, by rwa [hskt, hmcloses] at hin⟩
        have habort : closeHandle none m = .abort := closeHandle_abort howned hin trivial
        simp [luazmqSktDestroy, hopen, hm, habort]
      · refine Or.inr (hrun _ (closeHandle_fresh howned hin trivial) rfl rfl fun h hh => ?_)
        rcases List.mem_cons.mp hh with rfl | hh
        · rw [hskt]
          exact hhandle
        · rw [hmcloses] at hh
          exact hcloses h hh

/-- **`reset_handle`** does not touch the count. -/
theorem resetHandle_fair {n src : Nat} {c : Cell} (hcloses : ∀ h ∈ c.closes, h < n) (hhandle : c.zskt.skt < n)
    (hsrc : src < n) (own : Option Bool) (close : Bool) :
    ∃ c', (luazmqSktResetHandle src own close c = .ret () c' ∨
      luazmqSktResetHandle src own close c = .raise c') ∧ Fair n c c' := by
  by_cases hclosed : c.zskt.closed = true
  · exact ⟨c, Or.inr (by simp [luazmqSktResetHandle, hclosed]), Fair.refl hcloses hhandle⟩
  · have hset : ∀ closes : List Nat, (∀ h ∈ closes, h < n) → Fair n c { c with
        zskt := { c.zskt with skt := src, dontDestroy := !own.getD (!c.zskt.dontDestroy) }
        closes := closes } :=
      fun closes hlt => ⟨hlt, hsrc, (Int.sub_add_cancel _ _).symm⟩
    cases close with
    | false => exact ⟨_, Or.inl (by simp [luazmqSktResetHandle, hclosed]), hset c.closes hcloses⟩
    | true =>
      refine ⟨_, Or.inl (by simp [luazmqSktResetHandle, hclosed, zmqClose]), hset (c.zskt.skt :: c.closes) ?_⟩
      intro h hh
      rcases List.mem_cons.mp hh with rfl | hh
      · exact hhandle
      · exact hcloses h hh

theorem onClose_fair {n : Nat} {c : Cell} (hcloses : ∀ h ∈ c.closes, h < n) (hhandle : c.zskt.skt < n)
    (fn : Bool) :
    ∃ c', (luazmqSktOnClose fn c = .ret () c' ∨ luazmqSktOnClose fn c = .raise c') ∧ Fair n c c' := by
  have hset : ∀ ref, Fair n c (c.setOnclose ref) := fun ref =>
    ⟨hcloses, hhandle, (Int.sub_add_cancel _ _).symm⟩
  by_cases hclosed : c.zskt.closed = true
  · exact ⟨c, Or.inr (by simp [luazmqSktOnClose, hclosed]), Fair.refl hcloses hhandle⟩
  · by_cases href : c.zskt.oncloseRef ≠ .noref ∧ fn = false
    · exact ⟨_, Or.inl (by simp [luazmqSktOnClose, hclosed, href]), hset .noref⟩
    · exact ⟨_, Or.inl (by simp [luazmqSktOnClose, hclosed, href]), hset (if fn then .fn else .refnil)⟩

/-! ## One use -/

section Use

variable {w : World} (hw : Counted w)
include hw

/-- A method that is fair, on any object. -/
theorem Counted.after {i : Nat} {x : Lua Cell Unit} (hx : ∀ z, w.objs[i]? = some z → ∃ c',
    (x (w.cell z) = .ret () c' ∨ x (w.cell z) = .raise c') ∧ Fair w.nextHandle (w.cell z) c') :
    ∃ w', Lua.after (onSocket i x) w = some w' ∧ Counted w' := by
  cases hz : w.objs[i]? with
  | none => exact ⟨w, Lua.after_of (Or.inr (by simp [onSocket, hz])), hw⟩
  | some z =>
    obtain ⟨c', hrun, hfair⟩ := hx z hz
    refine ⟨w.put i c', ?_, hw.put hz hfair⟩
    rcases hrun with hrun | hrun
    · exact Lua.after_of (Or.inl ⟨(), by simp [onSocket, hz, hrun]⟩)
    · exact Lua.after_of (Or.inr (by simp [onSocket, hz, hrun]))

theorem Counted.fresh : w.nextHandle ∉ w.closes := fun h => absurd (hw.closes _ h) (Nat.lt_irrefl _)

theorem Counted.newSocket : Counted w.newSocket :=
  hw.add (z := ⟨w.nextHandle, false, false, true, .noref⟩) (Nat.lt_succ_self _) (Nat.le_succ _)

/-- A constructor that fails closes its handle. -/
theorem Counted.dropped : Counted (w.newSocket.dropped w.objs.length w.nextHandle) := by
  have hlive := live_newSocket hw.count.nonneg hw.fresh
  refine hw.newSocket.put (c := ⟨⟨w.nextHandle, true, false, true, .noref⟩, w.newSocket.socketCount - 1,
    w.nextHandle :: w.closes, .zero⟩) hlive.obj ⟨fun h hh => ?_, Nat.lt_succ_self _, ?_⟩
  · rcases List.mem_cons.mp hh with rfl | hh
    · exact Nat.lt_succ_self _
    · exact Nat.lt_succ_of_lt (hw.closes h hh)
  · exact (Int.add_zero _).symm

/-- **`ctx:socket`**, whatever comes of it. -/
theorem Counted.socket (env : Env) (args : List Val) :
    ∃ w', w.use (.socket env args) = some w' ∧ Counted w' := by
  rw [World.use]
  by_cases hopens : opensHandle env args = true
  · obtain ⟨hself, htype, hsocket⟩ := opensHandle_iff.mp hopens
    obtain ⟨f, hrun, hworld⟩ :=
      (ctxSocket_constructed hw.opened hw.count.nonneg hw.fresh hself htype hsocket).world
    refine ⟨f.world, ?_, ?_⟩
    · rcases hrun with ⟨results, hrun⟩ | hrun
      · rw [hrun]
      · rw [hrun]
    · rcases hworld with hworld | hworld | hworld
      · rw [hworld]
        exact ⟨hw.opened, hw.newSocket.closes, hw.newSocket.handle, hw.newSocket.count⟩
      · rw [hworld]
        exact hw.dropped
      · rw [hworld]
        exact hw.newSocket
  · obtain ⟨f, hf, hrun | ⟨e, hrun⟩⟩ := ctxSocket_refused hw.opened (Bool.eq_false_iff.mpr hopens)
    · exact ⟨w, by simp [hrun, hf], hw⟩
    · exact ⟨w, by simp [hrun, hf], hw⟩

/-- **One use** keeps the counter right, or it is a close whose `zmq_close` fails. -/
theorem Counted.use (u : Use) : (∃ w', w.use u = some w' ∧ Counted w') ∨
    (w.use u = none ∧ ∃ i z, u = .close i ∧ w.objs[i]? = some z ∧ z.closed = false ∧ z.dontDestroy = false ∧
      z.skt ∈ w.closes) := by
  cases u with
  | socket env args => exact Or.inl (hw.socket env args)
  | close i =>
    cases hz : w.objs[i]? with
    | none => exact Or.inl ⟨w, Lua.after_of (Or.inr (by simp [luazmqSktClose, onSocket, hz])), hw⟩
    | some z =>
      rcases destroy_fair (c := w.cell z) hw.closes (hw.cell_lt hz) (hw.pos hz) with
        ⟨hrun, hopen, howns, hin⟩ | ⟨c', hrun, hfair⟩
      · refine Or.inr ⟨?_, i, z, rfl, hz, hopen, howns, hin⟩
        exact Lua.after_abort (by simp [luazmqSktClose, onSocket, hz, hrun])
      · refine Or.inl ⟨w.put i c', ?_, hw.put hz hfair⟩
        exact Lua.after_of (Or.inl ⟨(), by simp [luazmqSktClose, onSocket, hz, hrun]⟩)
  | onClose i fn =>
    exact Or.inl (hw.after fun z hz => onClose_fair hw.closes (hw.cell_lt hz) fn)
  | resetHandle i src own close =>
    rw [World.use]
    by_cases hsrc : src < w.nextHandle
    · rw [if_pos hsrc]
      exact Or.inl (hw.after fun z hz => resetHandle_fair hw.closes (hw.cell_lt hz) hsrc own close)
    · rw [if_neg hsrc]
      exact Or.inl ⟨w, rfl, hw⟩
  | initSocket src =>
    rw [World.use]
    by_cases hsrc : src < w.nextHandle
    · rw [if_pos hsrc]
      refine Or.inl ⟨_, rfl, ?_⟩
      have hadd := hw.add (z := ⟨src, false, true, false, .noref⟩) hsrc (Nat.le_refl _)
      simpa [ZSocket.counted] using hadd
    · rw [if_neg hsrc]
      exact Or.inl ⟨w, rfl, hw⟩
  | foreign =>
    refine Or.inl ⟨_, rfl, hw.opened, fun h hh => Nat.lt_succ_of_lt (hw.closes h hh), fun z hz => ?_,
      hw.count⟩
    exact Nat.lt_succ_of_lt (hw.handle z hz)

end Use

/-- **The counter is right** in every state that a run reaches, and before the next close of a counted socket
    it is positive. -/
theorem run_counted (us : List Use) {w : World} (h : Steps.run World.use .init us = some w) :
    w.socketCount = w.objs.countP ZSocket.counted ∧
      ∀ z ∈ w.objs, z.counted = true → 1 ≤ w.socketCount := by
  have hstep : ∀ w u w', Counted w → World.use w u = some w' → Counted w' := by
    intro w u w' hw hu
    rcases hw.use u with ⟨w'', hw'', hcounted⟩ | ⟨hnone, -⟩
    · obtain rfl : w'' = w' := Option.some.inj (hw''.symm.trans hu)
      exact hcounted
    · rw [hnone] at hu
      cases hu
  have hw := Steps.run_invariant World.use hstep us .init w counted_init h
  exact ⟨hw.count, fun z hz hlive => hw.count.pos hz hlive⟩

end Lzmq.CContext
