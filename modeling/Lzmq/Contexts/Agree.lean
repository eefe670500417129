/-
  Contexts in both bindings.

  The same requests, with libzmq returning the same: the bindings give the same replies and make the same calls
  until a call fails whose result the FFI binding does not look at.  `get` hands the -1 on as a number, `shutdown`
  and `destroy` answer `true` and go on as if it had worked; the C binding reports all three, and leaves the
  context as it was.  No sockets are closed here: what their handlers may do is in `Contexts.Closing` and
  `Contexts.Attempts`.
-/
import Lzmq.Contexts.Attempts

namespace Lzmq.Contexts

open Lzmq.Steps

/-- The two bindings side by side. -/
structure Pair where
  c : CState
  ffi : FfiState

def Pair.init (own : Bool) (outcomes : List Int) : Pair := ⟨.init own outcomes, .init own outcomes⟩

/-- The context of the C binding, as one of the FFI binding without a handler. -/
def ZContext.toContext (ctx : ZContext) : Context := ⟨!ctx.closed, !ctx.dontDestroy, ctx.ctxShutdown, false⟩

def CState.toFfi (s : CState) : FfiState := ⟨s.ctx.toContext, s.zmq⟩

def pairStep (s : Pair) (r : Request) : Option Pair :=
  ((answer (cRequest (pure ()) r) s.c).map Prod.snd).bind fun c =>
    (ffiStep s.ffi (.request r .done .done)).map fun ffi => ⟨c, ffi⟩

/-- The request gets the same reply from both bindings, and leaves them alike. -/
def Agrees (s : Pair) (r : Request) (s' : Pair) : Prop :=
  (answer (cRequest (pure ()) r) s.c).map Prod.fst = (answer (ffiRequest (pure ()) (pure ()) r) s.ffi).map Prod.fst ∧
    s'.ffi = s'.c.toFfi

/-- No call fails whose failure the FFI binding passes over. -/
def AgreeOk (s : CState) : Request → Prop
  | .get _ => s.ctx.phase = .usable → s.zmq.next ≠ -1
  | .shutdown => s.ctx.phase = .usable → s.ctx.dontDestroy = false → s.zmq.next ≠ -1
  | .destroy => s.ctx.phase ≠ .gone → s.ctx.dontDestroy = false → s.zmq.next ≠ -1
  | _ => True

/-! ## One request -/

section Request

variable {s : Pair} {r : Request}

/-- The step, from the two replies. -/
theorem pairStep_iff {a b : Reply} {c : CState} {ffi : FfiState}
    (hc : answer (cRequest (pure ()) r) s.c = some (a, c))
    (hf : answer (ffiRequest (pure ()) (pure ()) r) s.ffi = some (b, ffi)) :
    (∃ s', pairStep s r = some s' ∧ Agrees s r s') ↔ a = b ∧ ffi = c.toFfi := by
  have hstep : pairStep s r = some ⟨c, ffi⟩ := by
    rw [pairStep, hc]
    show (ffiStep s.ffi (.request r .done .done)).map _ = _
    rw [ffiStep, show ffiRequest Script.done.run Script.done.run r = ffiRequest (pure ()) (pure ()) r from rfl, hf]
    rfl
  constructor
  · rintro ⟨s', hs', hreply, hffi⟩
    obtain rfl := Option.some.inj (hstep.symm.trans hs')
    rw [hc, hf] at hreply
    exact ⟨Option.some.inj hreply, hffi⟩
  · rintro ⟨hab, hffi⟩
    refine ⟨_, hstep, ?_, hffi⟩
    rw [hc, hf, hab]
    rfl

/-- The requests that need a usable context. -/
def Request.checked : Request → Bool
  | .destroy => false
  | .closed => false
  | .shutdowned => false
  | _ => true

theorem c_refused {c : CState} {closing : Lua CState Unit} (h : c.ctx.phase ≠ .usable) (hr : r.checked = true) :
    answer (cRequest closing r) c = some (.raise, c) := by
  apply answer_raise
  cases r with
  | socket => simp [cRequest, luazmqCtxSocket, run_getcontext, h]
  | get option => simp [cRequest, luazmqCtxGet, run_getcontext, h]
  | set option value => simp [cRequest, luazmqCtxSet, run_getcontext, h]
  | shutdown => simp [cRequest, luazmqCtxShutdown, run_getcontext, h]
  | lightuserdata => simp [cRequest, luazmqCtxLightuserdata, run_getcontext, h]
  | destroy => cases hr
  | closed => cases hr
  | shutdowned => cases hr

theorem ffi_refused {ffi : FfiState} {closing handler : Lua FfiState Unit} (h : ffi.self.phase ≠ .usable)
    (hr : r.checked = true) : answer (ffiRequest closing handler r) ffi = some (.raise, ffi) := by
  apply answer_raise
  cases r with
  | socket => simp [ffiRequest, socket, run_checkContext, h]
  | get option => simp [ffiRequest, get, run_checkContext, h]
  | set option value => simp [ffiRequest, set, run_checkContext, h]
  | shutdown => simp [ffiRequest, shutdown, run_checkContext, h]
  | lightuserdata => simp [ffiRequest, lightuserdata, run_checkContext, h]
  | destroy => cases hr
  | closed => cases hr
  | shutdowned => cases hr

theorem phase_toContext (ctx : ZContext) : ctx.toContext.phase = ctx.phase := by
  obtain ⟨closed, ctxShutdown, dontDestroy⟩ := ctx
  cases closed <;> rfl

/-- A request that both bindings refuse. -/
theorem refused_iff (hs : s.ffi = s.c.toFfi) (h : s.c.ctx.phase ≠ .usable) (hr : r.checked = true) :
    ∃ s', pairStep s r = some s' ∧ Agrees s r s' := by
  have hffi : s.ffi.self.phase ≠ .usable := by
    rw [hs]
    exact fun h' => h ((phase_toContext s.c.ctx).symm.trans h')
  exact (pairStep_iff (c_refused h hr) (ffi_refused hffi hr)).mpr ⟨rfl, hs⟩

end Request

/-- A usable context in both bindings; `k` are the sockets of the C binding, which nothing closes here. -/
def Pair.usable (dontDestroy : Bool) (z : Zmq) (k : Sockets) : Pair :=
  ⟨⟨⟨false, false, dontDestroy⟩, z, k⟩, ⟨⟨true, !dontDestroy, false, false⟩, z⟩⟩

theorem eq_usable {s : Pair} (hs : s.ffi = s.c.toFfi) (h : s.c.ctx.phase = .usable) :
    s = .usable s.c.ctx.dontDestroy s.c.zmq s.c.skts := by
  obtain ⟨c, ffi⟩ := s
  obtain rfl : ffi = c.toFfi := hs
  obtain ⟨⟨closed, ctxShutdown, dontDestroy⟩, z, k⟩ := c
  cases closed with
  | true => cases h
  | false =>
    cases ctxShutdown with
    | true => cases h
    | false => rfl

section Usable

variable (dontDestroy : Bool) (z : Zmq) (k : Sockets)

/-- A request that makes one call, and the replies it gets. -/
theorem usable_iff {r : Request} (c : Call) {a b : Reply}
    (hc : cRequest (pure ()) r ⟨⟨false, false, dontDestroy⟩, z, k⟩ =
      .ret a ⟨⟨false, false, dontDestroy⟩, z.log c, k⟩)
    (hf : ffiRequest (pure ()) (pure ()) r ⟨⟨true, !dontDestroy, false, false⟩, z⟩ =
      .ret b ⟨⟨true, !dontDestroy, false, false⟩, z.log c⟩) :
    (∃ s', pairStep (.usable dontDestroy z k) r = some s' ∧ Agrees (.usable dontDestroy z k) r s') ↔ a = b :=
  (pairStep_iff (answer_ret hc) (answer_ret hf)).trans (and_iff_left rfl)

/-- `socket` and `set` report a failure in both bindings. -/
theorem usable_socket : ∃ s', pairStep (.usable dontDestroy z k) .socket = some s' ∧
    Agrees (.usable dontDestroy z k) .socket s' := by
  by_cases hret : z.next = -1
  · refine (usable_iff dontDestroy z k (.socket z.next) (a := .fail) ?_ ?_).mpr rfl
    · simp [cRequest, luazmqCtxSocket, luazmqGetcontext, cCall, hret]
    · simp [ffiRequest, socket, checkContext, ffiCall, hret]
  · refine (usable_iff dontDestroy z k (.socket z.next) (a := .socket) ?_ ?_).mpr rfl
    · simp [cRequest, luazmqCtxSocket, luazmqGetcontext, cCall, hret]
    · simp [ffiRequest, socket, checkContext, ffiCall, hret]

theorem usable_set (option value : Int) : ∃ s', pairStep (.usable dontDestroy z k) (.set option value) = some s' ∧
    Agrees (.usable dontDestroy z k) (.set option value) s' := by
  by_cases hret : z.next = -1
  · refine (usable_iff dontDestroy z k (.set option value z.next) (a := .fail) ?_ ?_).mpr rfl
    · simp [cRequest, luazmqCtxSet, luazmqGetcontext, cCall, hret]
    · simp [ffiRequest, set, checkContext, ffiCall, hret]
  · refine (usable_iff dontDestroy z k (.set option value z.next) (a := .pass) ?_ ?_).mpr rfl
    · simp [cRequest, luazmqCtxSet, luazmqGetcontext, cCall, hret]
    · simp [ffiRequest, set, checkContext, ffiCall, hret]

/-- `get` reports it in the C binding only. -/
theorem usable_get_iff (option : Int) : (∃ s', pairStep (.usable dontDestroy z k) (.get option) = some s' ∧
    Agrees (.usable dontDestroy z k) (.get option) s') ↔ z.next ≠ -1 := by
  by_cases hret : z.next = -1
  · refine (usable_iff dontDestroy z k (.get option z.next) (a := .fail) (b := .int z.next) ?_ ?_).trans ?_
    · simp [cRequest, luazmqCtxGet, luazmqGetcontext, cCall, hret]
    · simp [ffiRequest, get, checkContext, ffiCall]
    · exact ⟨fun h => Reply.noConfusion h, fun h => absurd hret h⟩
  · refine (usable_iff dontDestroy z k (.get option z.next) (a := .int z.next) (b := .int z.next) ?_ ?_).trans ?_
    · simp [cRequest, luazmqCtxGet, luazmqGetcontext, cCall, hret]
    · simp [ffiRequest, get, checkContext, ffiCall]
    · exact ⟨fun _ => hret, fun _ => rfl⟩

/-- So does `shutdown`, on an owned context. -/
theorem usable_shutdown_iff : (∃ s', pairStep (.usable dontDestroy z k) .shutdown = some s' ∧
    Agrees (.usable dontDestroy z k) .shutdown s') ↔ (dontDestroy = false → z.next ≠ -1) := by
  cases dontDestroy with
  | true =>
    have hc : cRequest (pure ()) .shutdown ⟨⟨false, false, true⟩, z, k⟩ =
        .ret .pass ⟨⟨false, true, true⟩, z, k⟩ := by
      simp [cRequest, luazmqCtxShutdown, luazmqGetcontext, finish, ZContext.markShutdown]
    have hf : ffiRequest (pure ()) (pure ()) .shutdown ⟨⟨true, false, false, false⟩, z⟩ =
        .ret .pass ⟨⟨true, false, true, false⟩, z⟩ := by
      simp [ffiRequest, shutdown, checkContext, stop]
    have hiff := pairStep_iff (s := .usable true z k) (answer_ret hc) (answer_ret hf)
    exact hiff.trans ⟨fun _ h => Bool.noConfusion h, fun _ => ⟨rfl, rfl⟩⟩
  | false =>
    have hf : ffiRequest (pure ()) (pure ()) .shutdown ⟨⟨true, true, false, false⟩, z⟩ =
        .ret .pass ⟨⟨true, true, true, false⟩, z.log (.shutdown z.next)⟩ := by
      simp [ffiRequest, shutdown, checkContext, stop, ffiCall]
    by_cases hret : z.next = -1
    · have hc : cRequest (pure ()) .shutdown ⟨⟨false, false, false⟩, z, k⟩ =
          .ret .fail ⟨⟨false, false, false⟩, z.log (.shutdown z.next), k⟩ := by
        simp [cRequest, luazmqCtxShutdown, luazmqGetcontext, finish, ZContext.markShutdown, cCall, hret]
      have hiff := pairStep_iff (s := .usable false z k) (answer_ret hc) (answer_ret hf)
      exact hiff.trans ⟨fun h => Reply.noConfusion h.1, fun h => absurd hret (h rfl)⟩
    · have hc : cRequest (pure ()) .shutdown ⟨⟨false, false, false⟩, z, k⟩ =
          .ret .pass ⟨⟨false, true, false⟩, z.log (.shutdown z.next), k⟩ := by
        simp [cRequest, luazmqCtxShutdown, luazmqGetcontext, finish, ZContext.markShutdown, cCall, hret]
      have hiff := pairStep_iff (s := .usable false z k) (answer_ret hc) (answer_ret hf)
      exact hiff.trans ⟨fun _ _ => hret, fun _ => ⟨rfl, rfl⟩⟩

theorem usable_lightuserdata : ∃ s', pairStep (.usable dontDestroy z k) .lightuserdata = some s' ∧
    Agrees (.usable dontDestroy z k) .lightuserdata s' := ⟨_, rfl, rfl, rfl⟩

end Usable

/-- `destroy` of a context that is not closed. -/
theorem destroy_iff {s : Pair} (hs : s.ffi = s.c.toFfi) :
    (∃ s', pairStep s .destroy = some s' ∧ Agrees s .destroy s') ↔
    AgreeOk s.c .destroy := by
  obtain ⟨c, ffi⟩ := s
  obtain rfl : ffi = c.toFfi := hs
  obtain ⟨⟨closed, ctxShutdown, dontDestroy⟩, z, k⟩ := c
  cases closed with
  | true =>
    have hc : cRequest (pure ()) .destroy ⟨⟨true, ctxShutdown, dontDestroy⟩, z, k⟩ =
        .ret .pass ⟨⟨true, ctxShutdown, dontDestroy⟩, z, k⟩ := by
      simp [cRequest, luazmqCtxDestroy]
    have hf : ffiRequest (pure ()) (pure ()) .destroy ⟨⟨false, !dontDestroy, ctxShutdown, false⟩, z⟩ =
        .ret .pass ⟨⟨false, !dontDestroy, ctxShutdown, false⟩, z⟩ := by
      simp [ffiRequest, destroy]
    exact iff_of_true ((pairStep_iff (answer_ret hc) (answer_ret hf)).mpr ⟨rfl, rfl⟩) fun h => absurd rfl h
  | false =>
    have hopen : ZContext.phase ⟨false, ctxShutdown, dontDestroy⟩ ≠ .gone := by
      cases ctxShutdown <;> exact Phase.noConfusion
    cases dontDestroy with
    | true =>
      have hc : cRequest (pure ()) .destroy ⟨⟨false, ctxShutdown, true⟩, z, k⟩ =
          .ret .pass ⟨⟨true, ctxShutdown, true⟩, z, k⟩ := by
        simp [cRequest, luazmqCtxDestroy, finish, ZContext.markClosed]
      have hf : ffiRequest (pure ()) (pure ()) .destroy ⟨⟨true, false, ctxShutdown, false⟩, z⟩ =
          .ret .pass ⟨⟨false, false, ctxShutdown, false⟩, z⟩ := by
        simp [ffiRequest, destroy, runHandler, terminate]
      exact iff_of_true ((pairStep_iff (answer_ret hc) (answer_ret hf)).mpr ⟨rfl, rfl⟩) fun _ h => Bool.noConfusion h
    | false =>
      have hf : ffiRequest (pure ()) (pure ()) .destroy ⟨⟨true, true, ctxShutdown, false⟩, z⟩ =
          .ret .pass ⟨⟨false, true, ctxShutdown, false⟩, z.log (.term z.next)⟩ := by
        simp [ffiRequest, destroy, runHandler, terminate, zmqCtxTerm, ffiCall]
      by_cases hret : z.next = -1
      · have hc : cRequest (pure ()) .destroy ⟨⟨false, ctxShutdown, false⟩, z, k⟩ =
            .ret .fail ⟨⟨false, ctxShutdown, false⟩, z.log (.term z.next), k⟩ := by
          simp [cRequest, luazmqCtxDestroy, finish, ZContext.markClosed, cCall, hret]
        have hiff := pairStep_iff (answer_ret hc) (answer_ret hf)
          (s := ⟨⟨⟨false, ctxShutdown, false⟩, z, k⟩, ⟨⟨true, true, ctxShutdown, false⟩, z⟩⟩)
        exact hiff.trans ⟨fun h => Reply.noConfusion h.1, fun h => absurd hret (h hopen rfl)⟩
      · have hc : cRequest (pure ()) .destroy ⟨⟨false, ctxShutdown, false⟩, z, k⟩ =
            .ret .pass ⟨⟨true, ctxShutdown, false⟩, z.log (.term z.next), k⟩ := by
          simp [cRequest, luazmqCtxDestroy, finish, ZContext.markClosed, cCall, hret]
        exact iff_of_true ((pairStep_iff (answer_ret hc) (answer_ret hf)).mpr ⟨rfl, rfl⟩) fun _ _ => hret

/-- **One request.** -/
theorem agrees_iff {s : Pair} (hs : s.ffi = s.c.toFfi) (r : Request) :
    (∃ s', pairStep s r = some s' ∧ Agrees s r s') ↔ AgreeOk s.c r := by
  by_cases h : s.c.ctx.phase = .usable
  · have heq := eq_usable hs h
    generalize s.c.ctx.dontDestroy = dontDestroy, s.c.zmq = z, s.c.skts = k at heq
    subst heq
    cases r with
    | socket => exact iff_of_true (usable_socket dontDestroy z k) trivial
    | get option => exact (usable_get_iff dontDestroy z k option).trans ⟨fun hret _ => hret, fun hok => hok h⟩
    | set option value => exact iff_of_true (usable_set dontDestroy z k option value) trivial
    | shutdown => exact (usable_shutdown_iff dontDestroy z k).trans ⟨fun hret _ => hret, fun hok => hok h⟩
    | destroy => exact destroy_iff hs
    | closed => exact iff_of_true ⟨_, rfl, rfl, rfl⟩ trivial
    | shutdowned => exact iff_of_true ⟨_, rfl, rfl, rfl⟩ trivial
    | lightuserdata => exact iff_of_true (usable_lightuserdata dontDestroy z k) trivial
  · cases r with
    | socket => exact iff_of_true (refused_iff hs h rfl) trivial
    | get option => exact iff_of_true (refused_iff hs h rfl) fun h' => absurd h' h
    | set option value => exact iff_of_true (refused_iff hs h rfl) trivial
    | shutdown => exact iff_of_true (refused_iff hs h rfl) fun h' => absurd h' h
    | destroy => exact destroy_iff hs
    | closed =>
      refine iff_of_true ?_ trivial
      refine (pairStep_iff (a := .bool s.c.ctx.closed) (b := .bool s.c.ctx.closed) rfl ?_).mpr ⟨rfl, hs⟩
      rw [hs]
      simp [answer, ffiRequest, CState.toFfi, ZContext.toContext]
    | shutdowned =>
      refine iff_of_true ?_ trivial
      refine (pairStep_iff (a := .bool s.c.ctx.ctxShutdown) (b := .bool s.c.ctx.ctxShutdown) rfl ?_).mpr ⟨rfl, hs⟩
      rw [hs]
      rfl
    | lightuserdata => exact iff_of_true (refused_iff hs h rfl) trivial

/-- **The bindings agree** about a context in every run of requests, in the replies and in the calls of libzmq,
    iff no `get`, `shutdown` or `destroy` fails in libzmq. -/
theorem contexts_agree_iff (own : Bool) (outcomes : List Int) (rs : List Request) :
    Keeps pairStep Agrees (.init own outcomes) rs ↔
      Meets pairStep (fun s => AgreeOk s.c) (.init own outcomes) rs := by
  refine keeps_iff_meets pairStep (fun s => s.ffi = s.c.toFfi) (fun _ r hs => agrees_iff hs r)
    (fun _ _ _ _ _ hok => hok.2) rs _ ?_
  cases own <;> rfl

end Lzmq.Contexts
