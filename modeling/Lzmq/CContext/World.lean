/-
  A context of the C binding with its socket objects (`zcontext.c`).

  The world has one context, every socket object there is, and what libzmq has seen: the handles it gave
  out and those that came back through `zmq_close`.  What a method does to one socket is code over a
  `Cell`; `onSocket` runs it in the world.  `autoclose_ref` is a registry reference to a weak table of
  sockets; here it is the list of their numbers.
-/
import Lzmq.CContext.Close

namespace Lzmq.CContext

/-- A context, the socket objects in the order of their creation, and libzmq. -/
structure World where
  objs : List ZSocket
  closed : Bool
  socketCount : Int
  autocloseRef : Option (List Nat)
  nextHandle : Nat
  closes : List Nat
deriving DecidableEq, Repr

/-- A socket in the count of the context. -/
def ZSocket.counted (z : ZSocket) : Bool := z.ctx && !z.closed

/-- A new context without sockets. -/
def World.init : World := ⟨[], false, 0, none, 0, []⟩

def World.cell (w : World) (z : ZSocket) : Cell := ⟨z, w.socketCount, w.closes, .zero⟩

def World.put (w : World) (i : Nat) (c : Cell) : World :=
  { w with objs := w.objs.set i c.zskt, socketCount := c.socketCount, closes := c.closes }

/-- A method of the socket object `i`; its argument check fails on anything else. -/
def onSocket (i : Nat) (x : Lua Cell Unit) : Lua World Unit := fun w =>
  match w.objs[i]? with
  | none => .raise w
  | some z =>
    match x (w.cell z) with
    | .ret _ c => .ret () (w.put i c)
    | .raise c => .raise (w.put i c)
    | .abort => .abort

/-- The method `close`, for sockets whose handlers leave the sockets alone. -/
def luazmqSktClose (i : Nat) : Lua World Unit := onSocket i (luazmqSktDestroy none (pure none))

/-- `luazmq_ctx_autoclose` -/
def luazmqCtxAutoclose (i : Nat) : Lua World Unit := fun w =>
  match w.objs[i]? with
  | none => .raise w
  | some z =>
    if w.closed ∨ z.closed then .raise w
    else .ret () { w with autocloseRef := some ((w.autocloseRef.getD []).insert i) }

/-- The object of a new socket, and its place in the count. -/
def World.newSocket (w : World) : World :=
  { w with
    objs := w.objs ++ [⟨w.nextHandle, false, false, true, .noref⟩]
    socketCount := w.socketCount + 1
    nextHandle := w.nextHandle + 1 }

/-! ## Closing -/

/-- What closing an owned socket of the context leaves. -/
def World.closedAt (w : World) (i : Nat) (z : ZSocket) : World :=
  { w with
    objs := w.objs.set i { z with closed := true }
    socketCount := w.socketCount - 1
    closes := z.skt :: w.closes }

theorem luazmqSktClose_closed {w : World} {i : Nat} {z : ZSocket} (hz : w.objs[i]? = some z)
    (hclosed : z.closed = true) : luazmqSktClose i w = .ret () w := by
  have hput : w.put i (w.cell z) = w := by
    rw [World.put, World.cell]
    show { w with objs := w.objs.set i z } = w
    obtain ⟨hi, hget⟩ := List.getElem?_eq_some_iff.mp hz
    rw [← hget, List.set_getElem_self]
  rw [luazmqSktClose, onSocket, hz]
  simp [luazmqSktDestroy, World.cell, hclosed]
  exact hput

/-- **`close`** of an open socket of the context, without a handler. -/
theorem luazmqSktClose_open {w : World} {i : Nat} {z : ZSocket} (hz : w.objs[i]? = some z)
    (hopen : z.closed = false) (howns : z.dontDestroy = false) (hctx : z.ctx = true)
    (href : z.oncloseRef = .noref) (hfresh : z.skt ∉ w.closes) (hcount : 1 ≤ w.socketCount) :
    luazmqSktClose i w = .ret () (w.closedAt i z) := by
  obtain ⟨skt, closed, dontDestroy, ctx, ref⟩ := z
  obtain rfl : closed = false := hopen
  obtain rfl : dontDestroy = false := howns
  obtain rfl : ctx = true := hctx
  obtain rfl : ref = .noref := href
  have hfresh' : skt ∉ w.closes := hfresh
  rw [luazmqSktClose, onSocket, hz]
  simp [luazmqSktDestroy, luazmqSktBeforeClose, closeHandle, readLinger, uncount, zmqClose, World.cell, hfresh',
    hcount, Cell.setClosed, World.put, World.closedAt]

end Lzmq.CContext
