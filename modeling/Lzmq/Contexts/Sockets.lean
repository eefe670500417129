/-
  Sockets of a context in both bindings: the same constructor calls, on arguments that both take.

  The C binding runs through the option table on the Lua stack, the FFI binding with `pairs`; both follow a plan
  of calls of libzmq (`CContext.Plan`, `FfiContext.Create`), and the plans are the same.  So are the results, up
  to what a failed option returns behind its error, and the worlds that are left: the same handles have been
  closed, and the program has the same sockets.

  What the FFI binding does not have is a stack: a setter of a list of strings overruns its own in the C
  binding when the list is long (`CContext.Room`).  `sockets_agree_iff` says that nothing else keeps the
  bindings apart, for every sequence of calls and with any calls of libzmq failing.

  An argument list that both take carries the proof of it (`PlainSocket`).
-/
import Lzmq.CContext.Destroy
import Lzmq.CContext.Room
import Lzmq.FfiContext.Create

namespace Lzmq.Contexts

open Lzmq.Steps
open Lzmq.CContext (Env Val ZmqCall)
open Lzmq.FfiContext (FfiNew Made Built contextSocketOpt plainArgs)

/-! ## Both bindings -/

/-- Arguments of the constructor that both bindings take, and how libzmq answers. -/
structure PlainSocket (ffi : FfiNew) where
  env : Env
  args : List Val
  plain : plainArgs env ffi args = true

/-- The lists of the option table fit the stack of the C setters, if the call comes to them. -/
def PlainSocket.fits {ffi : FfiNew} (call : PlainSocket ffi) : Bool :=
  (call.env.fails 0).isSome || CContext.listsFit call.env 1 (CContext.optEntries call.args)

inductive SocketCall (ffi : FfiNew)
  | socket (call : PlainSocket ffi)
  | close (n : Nat)

/-- A context in each binding, with the socket objects that the program has. -/
structure Programs where
  c : CContext.Prog
  ffi : FfiContext.Prog

def Programs.init : Programs := ⟨.init, .init⟩

/-- `Context:socket`, made under `pcall`. -/
def ffiSocket (ffi : FfiNew) (q : FfiContext.Prog) (env : Env) (args : List Val) : Option FfiContext.Prog :=
  match contextSocketOpt env ffi args ⟨q.world, []⟩ with
  | .ret (.socket i) f => some { q with world := f.world, held := q.held ++ [i] }
  | .ret (.fail _ _) f => some { q with world := f.world }
  | .raise f => some { q with
      world := f.world
      lost := if q.world.objs.length < f.world.objs.length then q.lost ++ [q.world.objs.length] else q.lost }
  | .abort => none

def programsStep (ffi : FfiNew) (s : Programs) : SocketCall ffi → Option Programs
  | .socket call =>
    (s.c.call (.socket call.env call.args)).bind fun c =>
      (ffiSocket ffi s.ffi call.env call.args).map fun q => ⟨c, q⟩
  | .close n =>
    (s.c.call (.close n)).bind fun c => (s.ffi.call (.close n .done)).map fun q => ⟨c, q⟩

/-- The results of a constructor in both bindings: the same socket, or the same error. -/
inductive SameResult : List Val → Made → Prop
  | socket (i : Nat) : SameResult [.skt i] (.socket i)
  | fail (e : Nat) (extra ext : List Val) : SameResult (.nil :: .err e :: extra) (.fail e ext)

/-- As many objects, the same ones closed, and the same ones in the hands of the program. -/
structure SameSockets (s : Programs) : Prop where
  objs : s.ffi.world.objs.length = s.c.world.objs.length
  closes : s.ffi.world.closes = s.c.world.closes
  held : s.ffi.held = s.c.held

/-- The constructors return the same after the same calls of libzmq; `overran` is what has become of the stacks of
    the C setters. -/
def SameSocket (ffi : FfiNew) (s : Programs) (call : PlainSocket ffi) (overran : Bool) : Prop :=
  ∃ results f made g, CContext.ctxSocket call.env s.c.world call.args = .ret results f ∧
    contextSocketOpt call.env ffi call.args ⟨s.ffi.world, []⟩ = .ret made g ∧
    SameResult results made ∧ g.calls = f.calls ∧ f.overran = overran

/-- The bindings do the same, and the C binding keeps to its stacks. -/
def SocketsAgree (ffi : FfiNew) (s : Programs) (c : SocketCall ffi) (s' : Programs) : Prop :=
  (∀ call, c = .socket call → SameSocket ffi s call false) ∧ SameSockets s'

/-- The condition on a call. -/
def SocketCall.Fits {ffi : FfiNew} : SocketCall ffi → Prop
  | .socket call => call.fits = true
  | .close _ => True

/-- What holds between two calls. -/
structure InStep (s : Programs) : Prop where
  c : s.c.Inv
  ffi : s.ffi.Inv
  same : SameSockets s

theorem inStep_init : InStep .init where
  c := CContext.Prog.inv_init
  ffi := FfiContext.Prog.inv_init
  same := ⟨rfl, rfl, rfl⟩

/-! ## The socket type -/

/-- A type that the FFI binding takes, the C binding takes. -/
theorem socketType_of_stypeOk (env : Env) (args : List Val)
    (h : FfiContext.stypeOk (FfiContext.stypeOpt args).1 = true) : CContext.socketType env args[1]? = true := by
  rw [FfiContext.stypeOpt] at h
  cases htable : CContext.tableOf args[1]? with
  | none =>
    rw [htable] at h
    cases hv : args[1]? with
    | none => simp [hv, FfiContext.stypeOk] at h
    | some v =>
      cases v with
      | lua v =>
        cases v with
        | num n => simp [CContext.socketType, CContext.tableOf]
        | str s =>
          have hs : s ∈ CContext.socketNames := by simpa [hv, FfiContext.stypeOk] using h
          simp [CContext.socketType, CContext.tableOf, hs]
        | list l =>
          rw [hv] at htable
          cases htable
        | bool b => simp [hv, FfiContext.stypeOk] at h
        | other => simp [hv, FfiContext.stypeOk] at h
      | _ => simp [hv, FfiContext.stypeOk] at h
  | some entries =>
    rw [htable] at h
    rw [CContext.socketType.eq_2 env _ entries htable]
    cases hfind : entries.find? fun e => e.1 == .num 1 with
    | none => simp [hfind, FfiContext.stypeOk] at h
    | some e =>
      obtain ⟨k, v⟩ := e
      have htyped : FfiContext.stypeOk (some (.lua v)) = true := by simpa [hfind] using h
      cases v with
      | num n => simp
      | str s =>
        have hs : s ∈ CContext.socketNames := by simpa [FfiContext.stypeOk] using htyped
        simp [hs]
      | _ => cases htyped

/-! ## One call -/

section Call

variable {ffi : FfiNew} {s : Programs} (hs : InStep s)
include hs

/-- The next handle of either context. -/
theorem InStep.handles : s.ffi.world.nextHandle = s.c.world.nextHandle := by
  rw [hs.ffi.world.handles, hs.c.world.handles, hs.same.objs]

/-- The constructor, when `zmq_socket` fails. -/
theorem InStep.noHandle {call : PlainSocket ffi} {e : Nat} (hsocket : call.env.fails 0 = some e) :
    ∃ s', programsStep ffi s (.socket call) = some s' ∧ SameSocket ffi s call (!call.fits) ∧ InStep s' := by
  obtain ⟨env, args, hplain⟩ := call
  replace hsocket : env.fails 0 = _ := hsocket
  have hargs := hplain
  rw [plainArgs, Bool.and_eq_true, Bool.and_eq_true, Bool.and_eq_true, beq_iff_eq] at hargs
  obtain ⟨⟨⟨hself, htype⟩, -⟩, -⟩ := hargs
  have hc : CContext.ctxSocket env s.c.world args = .ret [.nil, .err e]
      ⟨LuaStack.pushResults [.nil, .err e] args.reverse, s.c.world, ⟨[.socket], false⟩, e⟩ := by
    have h1 : LuaStack.get args.reverse (.abs 1) = args[0]? := LuaStack.get_reverse args 0
    have h2 : LuaStack.get args.reverse (.abs 2) = args[1]? := LuaStack.get_reverse args 1
    simp [CContext.ctxSocket, CContext.luazmqCtxSocket, CContext.luazmqGetcontext, h1, h2, hself,
      hs.c.world.opened, socketType_of_stypeOk env args htype, CContext.zmq, CContext.Log.add, hsocket,
      CContext.luazmqFail, LuaStack.results, LuaStack.pushResults]
  have hf : contextSocketOpt env ffi args ⟨s.ffi.world, []⟩ = .ret (.fail e []) ⟨s.ffi.world, [.socket]⟩ := by
    simp [contextSocketOpt, htype, FfiContext.zmqCall, hsocket]
  have hfits : (⟨env, args, hplain⟩ : PlainSocket ffi).fits = true := by simp [PlainSocket.fits, hsocket]
  refine ⟨s, ?_, ⟨_, _, _, _, hc, hf, .fail e [] [], rfl, by rw [hfits]; rfl⟩, hs⟩
  · have hcall : s.c.call (.socket env args) = some s.c := by
      simp [CContext.Prog.call, hc, CContext.sockets]
    have hcall' : ffiSocket ffi s.ffi env args = some s.ffi := by simp [ffiSocket, hf]
    simp [programsStep, hcall, hcall']

/-- Both constructors return the socket. -/
theorem InStep.same_done : SameSockets
    ⟨⟨s.c.world.newSocket.registered s.c.world.objs.length, s.c.held ++ [s.c.world.objs.length]⟩, { s.ffi with
      world := { s.ffi.world.created with sockets := s.ffi.world.sockets.insert s.ffi.world.objs.length }
      held := s.ffi.held ++ [s.ffi.world.objs.length] }⟩ where
  objs := by
    show (s.ffi.world.objs ++ [_]).length = (s.c.world.objs ++ [_]).length
    rw [List.length_append, List.length_append, hs.same.objs]
    rfl
  closes := hs.same.closes
  held := by
    show s.ffi.held ++ [_] = s.c.held ++ [_]
    rw [hs.same.held, hs.same.objs]

/-- Both constructors close the socket again. -/
theorem InStep.same_failed (fn : Bool) : SameSockets
    ⟨⟨s.c.world.newSocket.dropped s.c.world.objs.length s.c.world.nextHandle, s.c.held⟩, { s.ffi with
      world := s.ffi.world.created.closedAt s.ffi.world.objs.length fn }⟩ where
  objs := by
    show ((s.ffi.world.objs ++ [_]).set _ _).length = ((s.c.world.objs ++ [_]).set _ _).length
    rw [List.length_set, List.length_set, List.length_append, List.length_append, hs.same.objs]
    rfl
  closes := by
    show s.ffi.world.objs.length :: s.ffi.world.closes = s.c.world.nextHandle :: s.c.world.closes
    rw [hs.same.closes, hs.same.objs, hs.c.world.handles]
  held := hs.same.held

/-- The constructor, when it has a handle. -/
theorem InStep.handle {call : PlainSocket ffi} (hsocket : call.env.fails 0 = none) :
    ∃ s', programsStep ffi s (.socket call) = some s' ∧ SameSocket ffi s call (!call.fits) ∧ InStep s' := by
  obtain ⟨env, args, hplain⟩ := call
  replace hsocket : env.fails 0 = _ := hsocket
  have hargs := hplain
  rw [plainArgs, Bool.and_eq_true, Bool.and_eq_true, Bool.and_eq_true, beq_iff_eq] at hargs
  obtain ⟨⟨⟨hself, htype⟩, -⟩, -⟩ := hargs
  have hbuilt := FfiContext.built hs.ffi.world hplain hsocket
  have hcons := CContext.ctxSocket_constructed hs.c.world.opened hs.c.world.count.nonneg hs.c.world.fresh hself
    (socketType_of_stypeOk env args htype) hsocket
  have hraises := FfiContext.plain_raises hplain s.c.world.nextHandle
  have hover : CContext.overruns env.fails 1 (CContext.socketPlan env s.c.world.nextHandle
      (CContext.optEntries args)).steps = !(⟨env, args, hplain⟩ : PlainSocket ffi).fits := by
    rw [CContext.overruns_iff hraises, PlainSocket.fits, hsocket]
    rfl
  generalize hrunf : contextSocketOpt env ffi args ⟨s.ffi.world, []⟩ = rf at hbuilt
  generalize hrunc : CContext.ctxSocket env s.c.world args = rc at hcons
  cases hcons with
  | raised f hf hr hw =>
    rw [hraises] at hr
    cases hr
  | done f hf hr hw ho =>
    cases hbuilt with
    | failed calls e extra ext fn hf' =>
      rw [hs.handles, hf] at hf'
      cases congrArg Prod.snd hf'
    | done calls hf' =>
      rw [hs.handles, hf] at hf'
      obtain rfl : f.calls = calls := congrArg Prod.fst hf'
      refine ⟨_, ?_, ?_, hs.c.done.1, hs.ffi.done, hs.same_done⟩
      · have hcall : s.c.call (.socket env args) =
            some ⟨s.c.world.newSocket.registered s.c.world.objs.length, s.c.held ++ [s.c.world.objs.length]⟩ := by
          simp [CContext.Prog.call, hrunc, CContext.sockets, hw]
        simp [programsStep, hcall, ffiSocket, hrunf]
      · refine ⟨_, _, _, _, hrunc, hrunf, ?_, rfl, ho.trans hover⟩
        rw [hs.same.objs]
        exact .socket _
  | failed f e extra hf hw ho =>
    cases hbuilt with
    | done calls hf' =>
      rw [hs.handles, hf] at hf'
      cases congrArg Prod.snd hf'
    | failed calls e' extra' ext fn hf' =>
      rw [hs.handles, hf] at hf'
      obtain rfl : f.calls = calls := congrArg Prod.fst hf'
      obtain rfl : e = e' := congrArg Prod.fst (Option.some.inj (congrArg Prod.snd hf'))
      refine ⟨_, ?_, ?_, hs.c.failed.1, hs.ffi.failed fn, hs.same_failed fn⟩
      · have hcall : s.c.call (.socket env args) =
            some ⟨s.c.world.newSocket.dropped s.c.world.objs.length s.c.world.nextHandle, s.c.held⟩ := by
          rw [CContext.Prog.call, hrunc]
          show some (CContext.Prog.mk f.world (s.c.held ++ CContext.sockets extra)) = _
          rw [CContext.sockets_extra hf, List.append_nil, hw]
        simp [programsStep, hcall, ffiSocket, hrunf]
      · exact ⟨_, _, _, _, hrunc, hrunf, .fail e extra ext, rfl, ho.trans hover⟩

/-- **`close`** of the n-th socket. -/
theorem InStep.close (n : Nat) :
    ∃ s', programsStep ffi s (.close n) = some s' ∧ InStep s' := by
  cases hn : s.c.held[n]? with
  | none =>
    have hnf : s.ffi.held[n]? = none := by rw [hs.same.held, hn]
    have hc : s.c.call (.close n) = some s.c := by simp [CContext.Prog.call, CContext.Prog.method, hn]
    have hf : s.ffi.call (.close n .done) = some s.ffi := FfiContext.method_none hnf _
    exact ⟨s, by simp [programsStep, hc, hf], hs⟩
  | some i =>
    have hnf : s.ffi.held[n]? = some i := by rw [hs.same.held, hn]
    obtain ⟨hif, hlost⟩ := hs.ffi.held i (List.mem_of_getElem? hnf)
    obtain ⟨fn, ho⟩ := hs.ffi.world.obj i hif
    have hi : i < s.c.world.objs.length := hs.same.objs ▸ hif
    by_cases hopen : i ∈ s.c.world.closes
    · have hopenf : i ∈ s.ffi.world.closes := hs.same.closes ▸ hopen
      have hcrun := CContext.luazmqSktClose_closed (hs.c.world.obj i hi) (by simp [CContext.World.object, hopen])
      have hfrun : FfiContext.onSocket i (FfiContext.close none (FfiContext.Script.run .done)) s.ffi.world =
          .ret () s.ffi.world := by
        apply FfiContext.onSocket_same ho
        simp [FfiContext.close, FfiContext.World.cell, FfiContext.World.object, hopenf]
      have hc : s.c.call (.close n) = some s.c := by simp [CContext.Prog.call, CContext.Prog.method, hn, hcrun]
      have hf : s.ffi.call (.close n .done) = some s.ffi := FfiContext.method_of hnf (Or.inl hfrun)
      exact ⟨s, by simp [programsStep, hc, hf], hs⟩
    · have hopenf : i ∉ s.ffi.world.closes := fun h => hopen (hs.same.closes ▸ h)
      have hcount : 1 ≤ s.c.world.socketCount := hs.c.world.count.pos (List.mem_of_getElem? (hs.c.world.obj i hi))
        (by simp [CContext.ZSocket.counted, CContext.World.object, hopen])
      have hcrun := CContext.luazmqSktClose_open (hs.c.world.obj i hi) (by simp [CContext.World.object, hopen])
        rfl rfl rfl hopen hcount
      obtain ⟨fn', hfrun⟩ := hs.ffi.world.closing hopenf ho .done
      have hc : s.c.call (.close n) =
          some { s.c with world := s.c.world.closedAt i (s.c.world.object i) } := by
        simp [CContext.Prog.call, CContext.Prog.method, hn, hcrun]
      have hf : s.ffi.call (.close n .done) = some { s.ffi with world := s.ffi.world.closedAt i fn' } := by
        refine FfiContext.method_of hnf (Or.inl ?_)
        rw [hfrun, show FfiContext.Script.noClose .done = true from rfl, Bool.not_true, Bool.and_false]
        rfl
      obtain ⟨c', hc', hinv, -⟩ := hs.c.close n
      obtain rfl := Option.some.inj (hc'.symm.trans hc)
      have hsame : SameSockets ⟨{ s.c with world := s.c.world.closedAt i (s.c.world.object i) },
          { s.ffi with world := s.ffi.world.closedAt i fn' }⟩ := by
        refine ⟨?_, ?_, hs.same.held⟩
        · show (s.ffi.world.objs.set _ _).length = (s.c.world.objs.set _ _).length
          rw [List.length_set, List.length_set, hs.same.objs]
        · exact congrArg (i :: ·) hs.same.closes
      exact ⟨_, by simp [programsStep, hc, hf], hinv, hs.ffi.closedAt hif hlost hopenf fn', hsame⟩

/-- **A constructor**: everything is the same, up to the stacks of the C setters. -/
theorem InStep.socket (call : PlainSocket ffi) :
    ∃ s', programsStep ffi s (.socket call) = some s' ∧ SameSocket ffi s call (!call.fits) ∧ InStep s' := by
  cases hsocket : call.env.fails 0 with
  | none => exact hs.handle hsocket
  | some e => exact hs.noHandle hsocket

theorem InStep.step (c : SocketCall ffi) : ∃ s', programsStep ffi s c = some s' ∧ InStep s' := by
  cases c with
  | socket call =>
    obtain ⟨s', hs', -, hin⟩ := hs.socket call
    exact ⟨s', hs', hin⟩
  | close n => exact hs.close n

/-- **One call**: the bindings agree iff its lists fit. -/
theorem InStep.agree_iff (c : SocketCall ffi) :
    (∃ s', programsStep ffi s c = some s' ∧ SocketsAgree ffi s c s') ↔ c.Fits := by
  cases c with
  | close n =>
    obtain ⟨s', hs', hin⟩ : ∃ s', programsStep ffi s (.close n) = some s' ∧ InStep s' := hs.close n
    exact iff_of_true ⟨s', hs', fun _ h => (by cases h), hin.same⟩ trivial
  | socket call =>
    obtain ⟨s', hs', ⟨results, f, made, g, hc, hf, hres, hcalls, hover⟩, hin⟩ := hs.socket call
    constructor
    · rintro ⟨t, -, hagree, -⟩
      obtain ⟨results', f', made', g', hc', -, -, -, hover'⟩ := hagree call rfl
      cases hc.symm.trans hc'
      rw [hover, Bool.not_eq_false'] at hover'
      exact hover'
    · intro hfits
      have hfits' : call.fits = true := hfits
      rw [hfits'] at hover
      refine ⟨s', hs', fun call' h => ?_, hin.same⟩
      obtain rfl := SocketCall.socket.inj h
      exact ⟨results, f, made, g, hc, hf, hres, hcalls, hover⟩

end Call

/-- **Sockets in both bindings.**  In every sequence of constructor calls, on arguments that both bindings take and
    with any calls of libzmq failing, and of closes: each constructor makes the same calls of libzmq in both
    and returns the same socket or the same error, and afterwards the same handles have been closed, iff the
    lists of strings fit the stacks of the C setters. -/
theorem sockets_agree_iff (ffi : FfiNew) (calls : List (SocketCall ffi)) :
    Keeps (programsStep ffi) (SocketsAgree ffi) .init calls ↔ ∀ c ∈ calls, c.Fits := by
  rw [← meets_iff_forall (programsStep ffi) (P := SocketCall.Fits) (fun _ c (hs : InStep _) => hs.step c) calls .init
    inStep_init]
  refine keeps_iff_meets (programsStep ffi) InStep (fun _ c hs => hs.agree_iff c) ?_ calls .init inStep_init
  intro s c s' hs hs' _
  obtain ⟨t, ht, hin⟩ := hs.step c
  obtain rfl := Option.some.inj (ht.symm.trans hs')
  exact hin

end Lzmq.Contexts
