/-
  What a context object of the C binding does with the handle of its context (`zcontext.c`).

  libzmq asks for an order: a handle is used until `zmq_ctx_shutdown`, after it only terminated, and after a
  termination nothing may be called with it.  Either call can fail (a signal interrupts `zmq_ctx_term`), and then
  the handle is as it was.  `Phase.step` says this about one call; a log of calls is in order when it is a run
  of it.

  The binding keeps two flags of its own and tests them at the start of a method.  `shutdown` and `destroy` then
  close the sockets of the context and do not test the flags a second time.  What comes from that is the subject of
  `Contexts.Closing`; here is what a request does around the closing.  A context that came as a pointer (the flag
  DONT_DESTROY) is only used.
-/
import Lzmq.Lib.Lua
import Lzmq.Lib.Steps

namespace Lzmq.Contexts

open Lzmq.Steps

/-! ## A handle -/

/-- A call with the handle, with what libzmq returned: -1 is a failure, of `zmq_socket` a null pointer. -/
inductive Call
  | socket (ret : Int)
  | get (option ret : Int)
  | set (option value ret : Int)
  | shutdown (ret : Int)
  | term (ret : Int)
deriving DecidableEq, Repr

inductive Phase
  | usable
  | down
  | gone
deriving DecidableEq, Repr

/-- What may be called in which phase. -/
def Phase.step : Phase → Call → Option Phase
  | .usable, .shutdown ret => some (if ret = -1 then .usable else .down)
  | .usable, .term ret => some (if ret = -1 then .usable else .gone)
  | .usable, _ => some .usable
  | .down, .shutdown _ => some .down
  | .down, .term ret => some (if ret = -1 then .down else .gone)
  | _, _ => none

/-- A call that leaves the phase alone. -/
def Call.isUse : Call → Bool
  | .shutdown _ => false
  | .term _ => false
  | _ => true

/-- libzmq: the calls so far, and what the next ones return. -/
structure Zmq where
  calls : List Call
  outcomes : List Int
deriving DecidableEq, Repr

/-- What the next call returns. -/
def Zmq.next (z : Zmq) : Int := z.outcomes.headD 0

def Zmq.log (z : Zmq) (c : Call) : Zmq := ⟨z.calls ++ [c], z.outcomes.tail⟩

theorem run_log {p q : Phase} {z : Zmq} {c : Call} (h : run Phase.step .usable z.calls = some p)
    (hc : p.step c = some q) : run Phase.step .usable (z.log c).calls = some q := by
  rw [Zmq.log, run_append Phase.step z.calls [c] h, run_cons_some Phase.step [] hc, run_nil]

theorem run_log_none {p : Phase} {z : Zmq} {c : Call} (h : run Phase.step .usable z.calls = some p)
    (hc : p.step c = none) : run Phase.step .usable (z.log c).calls = none := by
  rw [Zmq.log, run_append Phase.step z.calls [c] h, run, hc]
  rfl

theorem isUse_log {z : Zmq} {c : Call} (h : ∀ d ∈ z.calls, d.isUse = true) (hc : c.isUse = true) :
    ∀ d ∈ (z.log c).calls, d.isUse = true := by
  intro d hd
  rcases List.mem_append.mp hd with hd | hd
  · exact h d hd
  · rw [List.mem_singleton.mp hd]
    exact hc

/-- A use of a usable handle. -/
theorem step_use {c : Call} (h : c.isUse = true) : Phase.usable.step c = some .usable := by
  cases c with
  | socket ret => rfl
  | get option ret => rfl
  | set option value ret => rfl
  | shutdown ret => cases h
  | term ret => cases h

/-! ## Requests -/

inductive Request
  | socket
  | get (option : Int)
  | set (option value : Int)
  | shutdown
  | destroy
  | closed
  | shutdowned
  | lightuserdata
deriving DecidableEq, Repr

/-- What comes back: `true`, `nil` with an error, a number, a boolean, a socket or a pointer. -/
inductive Reply
  | pass
  | fail
  | int (n : Int)
  | bool (b : Bool)
  | socket
  | pointer
  | raise
deriving DecidableEq, Repr

/-- The reply of a method and the state it leaves; the method does not abort. -/
def answer {σ : Type} (x : Lua σ Reply) (s : σ) : Option (Reply × σ) :=
  match x s with
  | .ret r s => some (r, s)
  | .raise s => some (.raise, s)
  | .abort => none

theorem answer_ret {σ : Type} {x : Lua σ Reply} {s s' : σ} {r : Reply} (h : x s = .ret r s') :
    answer x s = some (r, s') := by rw [answer, h]

theorem answer_raise {σ : Type} {x : Lua σ Reply} {s s' : σ} (h : x s = .raise s') :
    answer x s = some (.raise, s') := by rw [answer, h]

/-! ## The C binding -/

/-- The flags of a context: LUAZMQ_FLAG_CLOSED, LUAZMQ_FLAG_CTX_SHUTDOWN and LUAZMQ_FLAG_DONT_DESTROY. -/
structure ZContext where
  closed : Bool
  ctxShutdown : Bool
  dontDestroy : Bool
deriving DecidableEq, Repr

/-- A socket object, by a number, and whether it only borrows its handle (LUAZMQ_FLAG_DONT_DESTROY).  It keeps the
    handle that `ctx:socket` or `init_socket` gave it; the latter has no context that would count it. -/
structure Skt where
  num : Nat
  dontDestroy : Bool
deriving DecidableEq, Repr

/-- The sockets with the flag LUAZMQ_FLAG_CLOSED, those whose handle has been passed to `zmq_close`, and
    `autoclose_ref`, a weak table of sockets, in the order of `lua_next`. -/
structure Sockets where
  closed : List Skt
  closes : List Skt
  autocloseRef : Option (List Skt)
deriving DecidableEq, Repr

structure CState where
  ctx : ZContext
  zmq : Zmq
  skts : Sockets
deriving DecidableEq, Repr

/-- `luazmq_context_create` and, when `own` is false, `luazmq_init_ctx` -/
def CState.init (own : Bool) (outcomes : List Int) : CState :=
  ⟨⟨false, false, !own⟩, ⟨[], outcomes⟩, ⟨[], [], none⟩⟩

/-- A call of libzmq. -/
def cCall (c : Int → Call) : Lua CState Int := do
  let ret ← Lua.read fun s => s.zmq.next
  Lua.modify fun s => { s with zmq := s.zmq.log (c ret) }
  pure ret

/-- `luazmq_getcontext_at` -/
def luazmqGetcontext : Lua CState Unit := do
  let ctx ← Lua.read CState.ctx
  if ctx.closed then Lua.raise -- context is closed
  else if ctx.ctxShutdown then Lua.raise -- context is  shutdowned
  else pure ()

/-- `luazmq_ctx_socket` up to `zmq_socket` -/
def luazmqCtxSocket : Lua CState Reply := do
  luazmqGetcontext
  let ret ← cCall .socket
  if ret = -1 then pure .fail else pure .socket

def luazmqCtxGet (option : Int) : Lua CState Reply := do
  luazmqGetcontext
  let ret ← cCall (.get option)
  if ret = -1 then pure .fail else pure (.int ret)

def luazmqCtxSet (option value : Int) : Lua CState Reply := do
  luazmqGetcontext
  let ret ← cCall (.set option value)
  if ret = -1 then pure .fail else pure .pass

/-- The end of `luazmq_ctx_shutdown` and of `luazmq_ctx_destroy`: a call, unless the handle is borrowed, and then a
    flag. -/
def finish (c : Int → Call) (mark : ZContext → ZContext) : Lua CState Reply := do
  let ctx ← Lua.read CState.ctx
  let ret ← if ctx.dontDestroy then pure 0 else cCall c
  if ret = -1 then pure .fail
  else do
    Lua.modify fun s => { s with ctx := mark s.ctx }
    pure .pass

def ZContext.markShutdown (ctx : ZContext) : ZContext := { ctx with ctxShutdown := true }

def ZContext.markClosed (ctx : ZContext) : ZContext := { ctx with closed := true }

/-- `closing` is `luazmq_ctx_close_sockets`. -/
def luazmqCtxShutdown (closing : Lua CState Unit) : Lua CState Reply := do
  luazmqGetcontext
  closing
  finish .shutdown ZContext.markShutdown

/-- `luazmq_ctx_destroy`, also `__gc` and `term` -/
def luazmqCtxDestroy (closing : Lua CState Unit) : Lua CState Reply := do
  let ctx ← Lua.read CState.ctx
  if ctx.closed then pure .pass
  else do
    closing
    finish .term ZContext.markClosed

def luazmqCtxLightuserdata : Lua CState Reply := do
  luazmqGetcontext
  pure .pointer

def cRequest (closing : Lua CState Unit) : Request → Lua CState Reply
  | .socket => luazmqCtxSocket
  | .get option => luazmqCtxGet option
  | .set option value => luazmqCtxSet option value
  | .shutdown => luazmqCtxShutdown closing
  | .destroy => luazmqCtxDestroy closing
  | .closed => Lua.read fun s => .bool s.ctx.closed -- luazmq_ctx_closed
  | .shutdowned => Lua.read fun s => .bool s.ctx.ctxShutdown -- luazmq_ctx_shutdowned
  | .lightuserdata => luazmqCtxLightuserdata

/-! ## The flags and the phase -/

/-- The phase that the flags speak of. -/
def ZContext.phase (ctx : ZContext) : Phase :=
  if ctx.closed then .gone else if ctx.ctxShutdown then .down else .usable

/-- The flags are right about an owned handle; a borrowed one has only been used. -/
structure Refines (s : CState) : Prop where
  owned : s.ctx.dontDestroy = false → run Phase.step .usable s.zmq.calls = some s.ctx.phase
  borrowed : s.ctx.dontDestroy = true → ∀ c ∈ s.zmq.calls, c.isUse = true

theorem refines_init (own : Bool) (outcomes : List Int) : Refines (.init own outcomes) where
  owned _ := rfl
  borrowed _ _ hc := absurd hc List.not_mem_nil

/-- The calls of an owned handle are out of order, and stay it. -/
def Broken (s : CState) : Prop := s.ctx.dontDestroy = false ∧ run Phase.step .usable s.zmq.calls = none

theorem Broken.not_refines {s : CState} (h : Broken s) : ¬ Refines s := by
  intro hs
  have hrun := hs.owned h.1
  rw [h.2] at hrun
  cases hrun

/-- What code does at least: it only adds calls. -/
structure Grows (s s' : CState) : Prop where
  dontDestroy : s'.ctx.dontDestroy = s.ctx.dontDestroy
  calls : s.zmq.calls <+: s'.zmq.calls

theorem Grows.refl (s : CState) : Grows s s := ⟨rfl, List.prefix_rfl⟩

theorem Grows.trans {s m s' : CState} (h : Grows s m) (h' : Grows m s') : Grows s s' :=
  ⟨h'.dontDestroy.trans h.dontDestroy, h.calls.trans h'.calls⟩

theorem Broken.grows {s s' : CState} (h : Broken s) (hg : Grows s s') : Broken s' := by
  refine ⟨hg.dontDestroy.trans h.1, ?_⟩
  obtain ⟨cs, hcs⟩ := hg.calls
  cases hrun : run Phase.step .usable s'.zmq.calls with
  | none => rfl
  | some p =>
    rw [← hcs] at hrun
    obtain ⟨q, hq, -⟩ := run_append_inv Phase.step _ _ hrun
    rw [h.2] at hq
    cases hq

/-! ## The end of `shutdown` and `destroy` -/

/-- The call is in order unless the handle has been terminated, and the flag says what it did. -/
structure Follows (c : Int → Call) (mark : ZContext → ZContext) : Prop where
  dontDestroy : ∀ ctx, (mark ctx).dontDestroy = ctx.dontDestroy
  opened : ∀ (ctx : ZContext) ret, ctx.closed = false →
    ctx.phase.step (c ret) = some (if ret = -1 then ctx.phase else (mark ctx).phase)
  closed : ∀ (ctx : ZContext) ret, ctx.closed = true → ctx.phase.step (c ret) = none

theorem follows_shutdown : Follows .shutdown ZContext.markShutdown where
  dontDestroy _ := rfl
  opened ctx ret h := by
    obtain ⟨closed, ctxShutdown, dontDestroy⟩ := ctx
    obtain rfl : closed = false := h
    cases ctxShutdown with
    | false => rfl
    | true => exact congrArg some (ite_self Phase.down).symm
  closed ctx ret h := by rw [ZContext.phase, if_pos h]; rfl

theorem follows_term : Follows .term ZContext.markClosed where
  dontDestroy _ := rfl
  opened ctx ret h := by
    obtain ⟨closed, ctxShutdown, dontDestroy⟩ := ctx
    obtain rfl : closed = false := h
    cases ctxShutdown with
    | false => rfl
    | true => rfl
  closed ctx ret h := by rw [ZContext.phase, if_pos h]; rfl

section Finish

variable {c : Int → Call} {mark : ZContext → ZContext} (m : CState)

theorem finish_borrowed (hdont : m.ctx.dontDestroy = true) :
    finish c mark m = .ret .pass { m with ctx := mark m.ctx } := by
  simp [finish, hdont]

theorem finish_fails (hdont : m.ctx.dontDestroy = false) (hret : m.zmq.next = -1) :
    finish c mark m = .ret .fail { m with zmq := m.zmq.log (c m.zmq.next) } := by
  simp [finish, hdont, cCall, hret]

theorem finish_succeeds (hdont : m.ctx.dontDestroy = false) (hret : m.zmq.next ≠ -1) :
    finish c mark m = .ret .pass ⟨mark m.ctx, m.zmq.log (c m.zmq.next), m.skts⟩ := by
  simp [finish, hdont, cCall, hret]

variable (hf : Follows c mark)
include hf

theorem finish_grows : ∃ r s', finish c mark m = .ret r s' ∧ Grows m s' ∧ s'.skts = m.skts := by
  by_cases hdont : m.ctx.dontDestroy = true
  · exact ⟨.pass, _, finish_borrowed m hdont, ⟨hf.dontDestroy m.ctx, List.prefix_rfl⟩, rfl⟩
  · have hown : m.ctx.dontDestroy = false := Bool.not_eq_true _ ▸ hdont
    by_cases hret : m.zmq.next = -1
    · exact ⟨.fail, _, finish_fails m hown hret, ⟨rfl, List.prefix_append _ _⟩, rfl⟩
    · exact ⟨.pass, _, finish_succeeds m hown hret, ⟨hf.dontDestroy m.ctx, List.prefix_append _ _⟩, rfl⟩

variable {m} (hm : Refines m)
include hm

/-- A borrowed handle is left alone, an owned one that has not been terminated is called in order. -/
theorem finish_refines (hopen : m.ctx.dontDestroy = false → m.ctx.closed = false) {r : Reply} {s' : CState}
    (hs' : finish c mark m = .ret r s') : Refines s' := by
  by_cases hdont : m.ctx.dontDestroy = true
  · obtain ⟨-, rfl⟩ := Ending.ret.inj ((finish_borrowed m hdont).symm.trans hs')
    refine ⟨fun hown => ?_, fun _ => hm.borrowed hdont⟩
    rw [show m.ctx.dontDestroy = false from (hf.dontDestroy m.ctx).symm.trans hown] at hdont
    cases hdont
  · have hown : m.ctx.dontDestroy = false := Bool.not_eq_true _ ▸ hdont
    have hrun := run_log (hm.owned hown) (hf.opened m.ctx m.zmq.next (hopen hown))
    by_cases hret : m.zmq.next = -1
    · obtain ⟨-, rfl⟩ := Ending.ret.inj ((finish_fails m hown hret).symm.trans hs')
      rw [if_pos hret] at hrun
      exact ⟨fun _ => hrun, fun hb => absurd hb hdont⟩
    · obtain ⟨-, rfl⟩ := Ending.ret.inj ((finish_succeeds m hown hret).symm.trans hs')
      rw [if_neg hret] at hrun
      exact ⟨fun _ => hrun, fun hb => absurd ((hf.dontDestroy m.ctx).symm.trans hb) hdont⟩

/-- A handle that has been terminated is called once more. -/
theorem finish_broken (hown : m.ctx.dontDestroy = false) (hclosed : m.ctx.closed = true) {r : Reply} {s' : CState}
    (hs' : finish c mark m = .ret r s') : Broken s' := by
  have hrun := run_log_none (hm.owned hown) (hf.closed m.ctx m.zmq.next hclosed)
  by_cases hret : m.zmq.next = -1
  · obtain ⟨-, rfl⟩ := Ending.ret.inj ((finish_fails m hown hret).symm.trans hs')
    exact ⟨hown, hrun⟩
  · obtain ⟨-, rfl⟩ := Ending.ret.inj ((finish_succeeds m hown hret).symm.trans hs')
    exact ⟨(hf.dontDestroy m.ctx).trans hown, hrun⟩

end Finish

/-! ## One request -/

/-- The request closes the sockets of the context and then calls libzmq. -/
def Request.closes (r : Request) (ctx : ZContext) : Prop :=
  match r with
  | .shutdown => ctx.phase = .usable
  | .destroy => ctx.closed = false
  | _ => False

/-- The argument check. -/
theorem run_getcontext (s : CState) : luazmqGetcontext s =
    if s.ctx.phase = .usable then .ret () s else .raise s := by
  obtain ⟨⟨closed, ctxShutdown, dontDestroy⟩, z, k⟩ := s
  cases closed <;> cases ctxShutdown <;> simp [luazmqGetcontext, ZContext.phase]

section Asks

variable (s : CState)

/-- A method that checks the context, makes one call and returns. -/
theorem checked_cases (c : Int → Call) (f : Int → Lua CState Reply) (hf : ∀ ret s, ∃ r, f ret s = .ret r s) :
    (s.ctx.phase = .usable ∧ ∃ r, answer (luazmqGetcontext >>= fun _ => cCall c >>= f) s =
      some (r, { s with zmq := s.zmq.log (c s.zmq.next) })) ∨
    answer (luazmqGetcontext >>= fun _ => cCall c >>= f) s = some (.raise, s) := by
  by_cases h : s.ctx.phase = .usable
  · obtain ⟨r, hr⟩ := hf s.zmq.next { s with zmq := s.zmq.log (c s.zmq.next) }
    refine Or.inl ⟨h, r, answer_ret ?_⟩
    simp [run_getcontext, h, cCall, hr]
  · refine Or.inr (answer_raise ?_)
    simp [run_getcontext, h]

/-- Every `if` between two values returns. -/
theorem run_reply (a b : Reply) (ret : Int) (s : CState) :
    ∃ r, (if ret = -1 then pure a else pure b : Lua CState Reply) s = .ret r s := by
  by_cases h : ret = -1
  · exact ⟨a, by rw [if_pos h]; rfl⟩
  · exact ⟨b, by rw [if_neg h]; rfl⟩

/-- What a request does: nothing, one use of a usable handle, or closing the sockets and a call; the code that
    closes them does not raise. -/
inductive Does (closing : Lua CState Unit) (r : Request) (s : CState) : Prop
  | nothing (hr : ¬ r.closes s.ctx) (a : Reply) (h : answer (cRequest closing r) s = some (a, s))
  | use (hr : ¬ r.closes s.ctx) (hs : s.ctx.phase = .usable) (c : Call) (hc : c.isUse = true) (a : Reply)
      (h : answer (cRequest closing r) s = some (a, { s with zmq := s.zmq.log c }))
  | closes (hr : r.closes s.ctx) (c : Int → Call) (mark : ZContext → ZContext) (hf : Follows c mark)
      (h : ∀ m, closing s = .ret () m → answer (cRequest closing r) s = answer (finish c mark) m)
      (habort : closing s = .abort → answer (cRequest closing r) s = none)

theorem does (closing : Lua CState Unit) (r : Request) : Does closing r s := by
  -- the requests that use the handle once
  have huse : ∀ (c : Int → Call) (f : Int → Lua CState Reply), ¬ r.closes s.ctx → (∀ ret, (c ret).isUse = true) →
      (∀ ret s, ∃ r, f ret s = .ret r s) → cRequest closing r = (luazmqGetcontext >>= fun _ => cCall c >>= f) →
        Does closing r s := by
    intro c f hr hc hf heq
    rcases checked_cases s c f hf with ⟨h, a, ha⟩ | h
    · exact .use hr h _ (hc s.zmq.next) a (by rw [heq]; exact ha)
    · exact .nothing hr .raise (by rw [heq]; exact h)
  cases r with
  | socket => exact huse .socket _ id (fun _ => rfl) (run_reply .fail .socket) rfl
  | get option => exact huse (.get option) _ id (fun _ => rfl) (fun ret => run_reply .fail (.int ret) ret) rfl
  | set option value => exact huse (.set option value) _ id (fun _ => rfl) (run_reply .fail .pass) rfl
  | shutdown =>
    by_cases h : s.ctx.phase = .usable
    · refine .closes h .shutdown ZContext.markShutdown follows_shutdown (fun m hm => ?_) fun habort => ?_
      · simp [answer, cRequest, luazmqCtxShutdown, run_getcontext, h, hm]
      · simp [answer, cRequest, luazmqCtxShutdown, run_getcontext, h, habort]
    · exact .nothing h .raise (answer_raise (by simp [cRequest, luazmqCtxShutdown, run_getcontext, h]))
  | destroy =>
    cases h : s.ctx.closed with
    | true =>
      have hnot : ¬ Request.closes .destroy s.ctx := fun hr => Bool.noConfusion (h.symm.trans hr)
      exact .nothing hnot .pass (answer_ret (by simp [cRequest, luazmqCtxDestroy, h]))
    | false =>
      refine .closes h .term ZContext.markClosed follows_term (fun m hm => ?_) fun habort => ?_
      · simp [answer, cRequest, luazmqCtxDestroy, h, hm]
      · simp [answer, cRequest, luazmqCtxDestroy, h, habort]
  | closed => exact .nothing id _ rfl
  | shutdowned => exact .nothing id _ rfl
  | lightuserdata =>
    by_cases h : s.ctx.phase = .usable
    · exact .nothing id .pointer (answer_ret (by simp [cRequest, luazmqCtxLightuserdata, run_getcontext, h]))
    · exact .nothing id .raise (answer_raise (by simp [cRequest, luazmqCtxLightuserdata, run_getcontext, h]))

variable {s}

/-- A use of a usable context. -/
theorem Refines.use (hs : Refines s) (h : s.ctx.phase = .usable) {c : Call} (hc : c.isUse = true) :
    Refines { s with zmq := s.zmq.log c } where
  owned hown := by
    have hrun := hs.owned hown
    rw [h] at hrun
    show run _ _ _ = some s.ctx.phase
    rw [h]
    exact run_log hrun (step_use hc)
  borrowed hdont := isUse_log (hs.borrowed hdont) hc

end Asks

end Lzmq.Contexts
