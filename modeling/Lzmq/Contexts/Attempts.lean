/-
  What a context object of the FFI binding does with the handle of its context (`lzmq/ffi.lua`).

  The methods ignore what `zmq_ctx_shutdown` and `zmq_ctx_term` return, so the object's fields speak of what has
  been tried: they give the phase that the handle would be in if no call had failed.  `shutdown` and `destroy` first
  close the sockets of the context, and `destroy` then runs the `on_close` handler of the context, before it forgets
  the handle.  The handlers of either can make any calls on the same context, `destroy` among them; the outer call
  then finds the handle gone, and raises in `ffi.gc` or passes nil to libzmq: it does not terminate twice.

  `ffi_protocol`: in every run, with any handlers, the calls with the handle are in order, the termination is tried
  at most once, and the object is closed as soon as it has been.  A failed one is not repeated, and leaves a context
  that nobody will terminate.
-/
import Lzmq.Contexts.Handle

namespace Lzmq.Contexts

open Lzmq.Steps

/-! ## The binding -/

/-- `_private` of a context: whether there is a `ctx`, `owner`, `shutdown`, and whether there is an `on_close`. -/
structure Context where
  ctx : Bool
  owner : Bool
  shutdown : Bool
  onClose : Bool
deriving DecidableEq, Repr

structure FfiState where
  self : Context
  zmq : Zmq
deriving DecidableEq, Repr

/-- `Context:new`, with a pointer when `own` is false -/
def FfiState.init (own : Bool) (outcomes : List Int) : FfiState := ⟨⟨true, own, false, false⟩, ⟨[], outcomes⟩⟩

/-- A call of libzmq. -/
def ffiCall (c : Int → Call) : Lua FfiState Int := do
  let ret ← Lua.read fun s => s.zmq.next
  Lua.modify fun s => { s with zmq := s.zmq.log (c ret) }
  pure ret

/-- `check_context` -/
def checkContext : Lua FfiState Unit := do
  let self ← Lua.read FfiState.self
  if self.ctx = false then Lua.raise -- assert(not self:closed())
  else if self.shutdown then Lua.raise -- assert(not self:shutdowned())
  else pure ()

/-- `Context:socket` up to `zmq_socket` -/
def socket : Lua FfiState Reply := do
  checkContext
  let ret ← ffiCall .socket
  if ret = -1 then pure .fail else pure .socket

/-- `Context:get`, which hands on what libzmq returns -/
def get (option : Int) : Lua FfiState Reply := do
  checkContext
  let ret ← ffiCall (.get option)
  pure (.int ret)

/-- `Context:set` -/
def set (option value : Int) : Lua FfiState Reply := do
  checkContext
  let ret ← ffiCall (.set option value)
  if ret = -1 then pure .fail else pure .pass

/-- What `shutdown` does once the sockets are closed.  A handle that is gone is passed as a null pointer, which
    libzmq refuses. -/
def stop : Lua FfiState Reply := do
  let self ← Lua.read FfiState.self
  if self.owner && self.ctx then do
    let _ ← ffiCall .shutdown
    pure ()
  else pure ()
  Lua.modify fun s => { s with self := { s.self with shutdown := true } }
  pure .pass

/-- `Context:shutdown`; `closing` is `Context_cleanup`, as far as it concerns the context. -/
def shutdown (closing : Lua FfiState Unit) : Lua FfiState Reply := do
  checkContext
  closing
  stop

/-- `api.zmq_ctx_term` of the handle that there is. -/
def zmqCtxTerm : Lua FfiState Unit := do
  let self ← Lua.read FfiState.self
  if self.ctx = false then Lua.raise -- bad argument #1 to 'gc'
  else do
    let _ ← ffiCall .term
    pure ()

/-- `if self._private.on_close then pcall(self._private.on_close) end` -/
def runHandler (handler : Lua FfiState Unit) : Lua FfiState Unit := do
  let self ← Lua.read FfiState.self
  if self.onClose then do
    let _ ← Lua.pcall handler
    pure ()
  else pure ()

/-- What `destroy` does after the handler. -/
def terminate : Lua FfiState Reply := do
  let self ← Lua.read FfiState.self
  if self.owner then zmqCtxTerm else pure ()
  Lua.modify fun s => { s with self := { s.self with ctx := false } }
  pure .pass

/-- `Context:destroy`, also `__gc` and `term` -/
def destroy (closing handler : Lua FfiState Unit) : Lua FfiState Reply := do
  let self ← Lua.read FfiState.self
  if self.ctx = false then pure .pass
  else do
    closing
    runHandler handler
    terminate

/-- `Context:lightuserdata` -/
def lightuserdata : Lua FfiState Reply := do
  checkContext
  pure .pointer

/-- `Context:on_close` -/
def onClose (fn : Bool) : Lua FfiState Unit :=
  Lua.modify fun s => { s with self := { s.self with onClose := fn } }

def ffiRequest (closing handler : Lua FfiState Unit) : Request → Lua FfiState Reply
  | .socket => socket
  | .get option => get option
  | .set option value => set option value
  | .shutdown => shutdown closing
  | .destroy => destroy closing handler
  | .closed => Lua.read fun s => .bool !s.self.ctx
  | .shutdowned => Lua.read fun s => .bool s.self.shutdown
  | .lightuserdata => lightuserdata

/-- What handlers do with the context, each call under `pcall`: `closing` and `handler` are what those of the
    sockets and that of the context do inside a request.  Closing a socket can raise (`raise`). -/
inductive Script
  | done
  | raise
  | request (r : Request) (closing handler rest : Script)
  | onClose (fn : Bool) (rest : Script)
deriving DecidableEq, Repr

def Script.run : Script → Lua FfiState Unit
  | .done => pure ()
  | .raise => Lua.raise
  | .request r closing handler rest => do
    let _ ← Lua.pcall (do
      let _ ← ffiRequest closing.run handler.run r
      pure ())
    rest.run
  | .onClose fn rest => do
    Contexts.onClose fn
    rest.run

/-- A request with what runs in it, or `on_close`. -/
inductive Action
  | request (r : Request) (closing handler : Script)
  | onClose (fn : Bool)
deriving DecidableEq, Repr

def ffiStep (s : FfiState) : Action → Option FfiState
  | .request r closing handler => (answer (ffiRequest closing.run handler.run r) s).map Prod.snd
  | .onClose fn => Lua.after (Contexts.onClose fn) s

/-! ## What has been tried -/

/-- The call, as if it had succeeded. -/
def Call.tried : Call → Call
  | .shutdown _ => .shutdown 0
  | .term _ => .term 0
  | c => c

/-- The phase that the fields speak of. -/
def Context.phase (self : Context) : Phase :=
  if self.ctx = false then .gone else if self.shutdown then .down else .usable

/-- The fields are right about what has been tried on an owned handle; a borrowed one has only been used. -/
structure Tried (s : FfiState) : Prop where
  owned : s.self.owner = true → run Phase.step .usable (s.zmq.calls.map Call.tried) = some s.self.phase
  borrowed : s.self.owner = false → ∀ c ∈ s.zmq.calls, c.isUse = true

theorem tried_init (own : Bool) (outcomes : List Int) : Tried (.init own outcomes) where
  owned _ := rfl
  borrowed _ _ hc := absurd hc List.not_mem_nil

theorem run_tried {p q : Phase} {z : Zmq} {c : Call}
    (h : run Phase.step .usable (z.calls.map Call.tried) = some p) (hc : p.step c.tried = some q) :
    run Phase.step .usable ((z.log c).calls.map Call.tried) = some q := by
  rw [Zmq.log, List.map_append, run_append Phase.step _ _ h]
  exact run_cons_some Phase.step [] hc

theorem isUse_tried {c : Call} (h : c.isUse = true) : c.tried = c := by
  cases c with
  | socket ret => rfl
  | get option ret => rfl
  | set option value ret => rfl
  | shutdown ret => cases h
  | term ret => cases h

theorem run_checkContext (s : FfiState) : checkContext s =
    if s.self.phase = .usable then .ret () s else .raise s := by
  obtain ⟨⟨ctx, owner, shutdown, onClose⟩, z⟩ := s
  cases ctx <;> cases shutdown <;> simp [checkContext, Context.phase]

theorem phase_gone_iff (self : Context) : self.phase = .gone ↔ self.ctx = false := by
  obtain ⟨ctx, owner, shutdown, onClose⟩ := self
  cases ctx <;> cases shutdown <;> simp [Context.phase]

/-- How a method ends: with a reply or an error, and the fields right. -/
def Ends {α : Type} (x : Lua FfiState α) (s : FfiState) : Prop :=
  ∃ s', ((∃ a, x s = .ret a s') ∨ x s = .raise s') ∧ Tried s' ∧ s'.self.owner = s.self.owner

section Tried

variable {s : FfiState}

/-- A `pcall` always returns. -/
theorem Ends.pcall {x : Lua FfiState Unit} (h : Ends x s) :
    ∃ b s', Lua.pcall x s = .ret b s' ∧ Tried s' ∧ s'.self.owner = s.self.owner := by
  obtain ⟨s', h | h, hs', ho⟩ := h
  · obtain ⟨u, h⟩ := h
    exact ⟨true, s', Lua.run_pcall_ret h, hs', ho⟩
  · exact ⟨false, s', Lua.run_pcall_raise h, hs', ho⟩

/-- Closing the sockets, and then what comes after if that does not raise. -/
theorem Ends.bind {x : Lua FfiState Unit} {f : Lua FfiState Reply} (h : Ends x s)
    (hf : ∀ {m}, Tried m → Ends f m) : Ends (x >>= fun _ => f) s := by
  obtain ⟨m, h | h, hm, ho⟩ := h
  · obtain ⟨u, h⟩ := h
    obtain ⟨s', hend, hs', ho'⟩ := hf hm
    refine ⟨s', ?_, hs', ho'.trans ho⟩
    rw [Lua.run_bind, h, Lua.andThen_ret]
    exact hend
  · refine ⟨m, Or.inr ?_, hm, ho⟩
    rw [Lua.run_bind, h, Lua.andThen_raise]

variable (hs : Tried s)
include hs

/-- A use of a usable context. -/
theorem Tried.use (h : s.self.phase = .usable) {c : Call} (hc : c.isUse = true) :
    Tried { s with zmq := s.zmq.log c } where
  owned hown := by
    have hrun := hs.owned hown
    rw [h] at hrun
    show run _ _ _ = some s.self.phase
    rw [h]
    exact run_tried hrun (by rw [isUse_tried hc, step_use hc])
  borrowed hb := isUse_log (hs.borrowed hb) hc

/-- A method that checks the context, makes one call and returns. -/
theorem Tried.checked (c : Int → Call) (hc : ∀ ret, (c ret).isUse = true) (f : Int → Lua FfiState Reply)
    (hf : ∀ ret s, ∃ r, f ret s = .ret r s) : Ends (checkContext >>= fun _ => ffiCall c >>= f) s := by
  by_cases h : s.self.phase = .usable
  · obtain ⟨r, hr⟩ := hf s.zmq.next { s with zmq := s.zmq.log (c s.zmq.next) }
    refine ⟨_, Or.inl ⟨r, ?_⟩, hs.use h (hc s.zmq.next), rfl⟩
    simp [run_checkContext, h, ffiCall, hr]
  · refine ⟨s, Or.inr ?_, hs, rfl⟩
    simp [run_checkContext, h]

/-- Setting a field of a borrowed context. -/
theorem Tried.borrow {self : Context} (howner : s.self.owner = false) (ho : self.owner = s.self.owner) :
    Tried { s with self := self } where
  owned hown := by
    rw [show self.owner = true from hown, howner] at ho
    cases ho
  borrowed _ := hs.borrowed howner

/-- A call that has been tried, and the field that says so. -/
theorem Tried.attempt {self : Context} {c : Call} (howner : s.self.owner = true)
    (ho : self.owner = s.self.owner) (hc : s.self.phase.step c.tried = some self.phase) :
    Tried ⟨self, s.zmq.log c⟩ where
  owned _ := run_tried (hs.owned howner) hc
  borrowed hb := by
    rw [show self.owner = false from hb, howner] at ho
    cases ho

theorem Tried.stop : Ends Contexts.stop s := by
  cases howner : s.self.owner with
  | true =>
    cases hctx : s.self.ctx with
    | true =>
      refine ⟨⟨{ s.self with shutdown := true }, s.zmq.log (.shutdown s.zmq.next)⟩, Or.inl ⟨.pass, ?_⟩,
        hs.attempt howner rfl ?_, rfl⟩
      · simp [Contexts.stop, howner, hctx, ffiCall]
      · cases hshut : s.self.shutdown with
        | true => simp [Call.tried, Phase.step, Context.phase, hctx, hshut]
        | false => simp [Call.tried, Phase.step, Context.phase, hctx, hshut]
    | false =>
      -- a handler has destroyed the context
      refine ⟨{ s with self := { s.self with shutdown := true } }, Or.inl ⟨.pass, ?_⟩, ⟨fun _ => ?_, hs.borrowed⟩,
        rfl⟩
      · simp [Contexts.stop, howner, hctx]
      · rw [hs.owned howner]
        simp [Context.phase, hctx]
  | false =>
    refine ⟨{ s with self := { s.self with shutdown := true } }, Or.inl ⟨.pass, ?_⟩, hs.borrow howner rfl, rfl⟩
    simp [Contexts.stop, howner]

theorem Tried.terminate : Ends Contexts.terminate s := by
  cases howner : s.self.owner with
  | true =>
    cases hctx : s.self.ctx with
    | true =>
      refine ⟨⟨{ s.self with ctx := false }, s.zmq.log (.term s.zmq.next)⟩, Or.inl ⟨.pass, ?_⟩,
        hs.attempt howner rfl ?_, rfl⟩
      · simp [Contexts.terminate, howner, zmqCtxTerm, hctx, ffiCall]
      · cases hshut : s.self.shutdown with
        | true => simp [Call.tried, Phase.step, Context.phase, hctx, hshut]
        | false => simp [Call.tried, Phase.step, Context.phase, hctx, hshut]
    | false =>
      -- a `destroy` in the handler has been here before
      refine ⟨s, Or.inr ?_, hs, rfl⟩
      simp [Contexts.terminate, howner, zmqCtxTerm, hctx]
  | false =>
    refine ⟨{ s with self := { s.self with ctx := false } }, Or.inl ⟨.pass, ?_⟩, hs.borrow howner rfl, rfl⟩
    simp [Contexts.terminate, howner]

theorem Tried.runHandler {handler : Lua FfiState Unit} (hh : ∀ {s}, Tried s → Ends handler s) :
    ∃ m, Contexts.runHandler handler s = .ret () m ∧ Tried m ∧ m.self.owner = s.self.owner := by
  by_cases hon : s.self.onClose = true
  · obtain ⟨b, m, hm, hrest⟩ := (hh hs).pcall
    exact ⟨m, by simp [Contexts.runHandler, hon, hm], hrest⟩
  · exact ⟨s, by simp [Contexts.runHandler, hon], hs, rfl⟩

theorem Tried.shutdown {closing : Lua FfiState Unit} (hc : Ends closing s) : Ends (Contexts.shutdown closing) s := by
  by_cases h : s.self.phase = .usable
  · obtain ⟨s', hend, hs', ho⟩ := hc.bind fun hm => hm.stop
    refine ⟨s', ?_, hs', ho⟩
    have heq : Contexts.shutdown closing s = (closing >>= fun _ => Contexts.stop) s := by
      simp [Contexts.shutdown, run_checkContext, h]
    rw [heq]
    exact hend
  · refine ⟨s, Or.inr ?_, hs, rfl⟩
    simp [Contexts.shutdown, run_checkContext, h]

theorem Tried.destroy {closing handler : Lua FfiState Unit} (hc : Ends closing s)
    (hh : ∀ {s}, Tried s → Ends handler s) : Ends (Contexts.destroy closing handler) s := by
  cases hctx : s.self.ctx with
  | false =>
    refine ⟨s, Or.inl ⟨.pass, ?_⟩, hs, rfl⟩
    simp [Contexts.destroy, hctx]
  | true =>
    have hrest : ∀ {m}, Tried m → Ends (Contexts.runHandler handler >>= fun _ => Contexts.terminate) m := by
      intro m hm
      obtain ⟨t, ht, htried, ho⟩ := hm.runHandler hh
      obtain ⟨s', hend, hs', ho'⟩ := htried.terminate
      refine ⟨s', ?_, hs', ho'.trans ho⟩
      rw [Lua.run_bind, ht, Lua.andThen_ret]
      exact hend
    obtain ⟨s', hend, hs', ho⟩ := hc.bind hrest
    refine ⟨s', ?_, hs', ho⟩
    have heq : Contexts.destroy closing handler s =
        (closing >>= fun _ => Contexts.runHandler handler >>= fun _ => Contexts.terminate) s := by
      simp [Contexts.destroy, hctx]
    rw [heq]
    exact hend

/-- **One request**, with any handlers that keep the fields right. -/
theorem Tried.request {closing handler : Lua FfiState Unit} (hc : Ends closing s)
    (hh : ∀ {s}, Tried s → Ends handler s) (r : Request) : Ends (ffiRequest closing handler r) s := by
  have hite : ∀ (a b : Reply) (ret : Int) (s : FfiState),
      ∃ r, (if ret = -1 then pure a else pure b : Lua FfiState Reply) s = .ret r s := by
    intro a b ret s
    by_cases h : ret = -1
    · exact ⟨a, by rw [if_pos h]; rfl⟩
    · exact ⟨b, by rw [if_neg h]; rfl⟩
  cases r with
  | socket => exact hs.checked .socket (fun _ => rfl) _ (hite .fail .socket)
  | get option => exact hs.checked (.get option) (fun _ => rfl) _ fun ret _ => ⟨.int ret, rfl⟩
  | set option value => exact hs.checked (.set option value) (fun _ => rfl) _ (hite .fail .pass)
  | shutdown => exact hs.shutdown hc
  | destroy => exact hs.destroy hc hh
  | closed => exact ⟨s, Or.inl ⟨_, rfl⟩, hs, rfl⟩
  | shutdowned => exact ⟨s, Or.inl ⟨_, rfl⟩, hs, rfl⟩
  | lightuserdata =>
    by_cases h : s.self.phase = .usable
    · refine ⟨s, Or.inl ⟨.pointer, ?_⟩, hs, rfl⟩
      simp [ffiRequest, lightuserdata, run_checkContext, h]
    · refine ⟨s, Or.inr ?_, hs, rfl⟩
      simp [ffiRequest, lightuserdata, run_checkContext, h]

theorem Tried.onClose (fn : Bool) : Ends (Contexts.onClose fn) s := by
  refine ⟨{ s with self := { s.self with onClose := fn } }, Or.inl ⟨(), rfl⟩, ⟨fun hown => ?_, ?_⟩, rfl⟩
  · exact hs.owned hown
  · exact hs.borrowed

end Tried

/-- **Any handlers** keep the fields right: induction on what they call, and what the handlers inside call. -/
theorem ends_run (script : Script) : ∀ {s : FfiState}, Tried s → Ends script.run s := by
  induction script with
  | done => exact fun hs => ⟨_, Or.inl ⟨(), rfl⟩, hs, rfl⟩
  | raise => exact fun hs => ⟨_, Or.inr rfl, hs, rfl⟩
  | request r closing handler rest ihClosing ihHandler ihRest =>
    intro s hs
    have hcall : Ends (do
        let _ ← ffiRequest closing.run handler.run r
        pure () : Lua FfiState Unit) s := by
      obtain ⟨m, hm, htried, ho⟩ := hs.request (ihClosing hs) ihHandler r
      rcases hm with ⟨a, hm⟩ | hm
      · exact ⟨m, Or.inl ⟨(), by simp [hm]⟩, htried, ho⟩
      · exact ⟨m, Or.inr (by simp [hm]), htried, ho⟩
    obtain ⟨b, m, hm, htried, ho⟩ := hcall.pcall
    obtain ⟨s', hend, hs', ho'⟩ := ihRest htried
    refine ⟨s', ?_, hs', ho'.trans ho⟩
    rw [Script.run, Lua.run_bind, hm, Lua.andThen_ret]
    exact hend
  | onClose fn rest ih =>
    intro s hs
    obtain ⟨m, hm, htried, ho⟩ := hs.onClose fn
    obtain ⟨s', hend, hs', ho'⟩ := ih htried
    refine ⟨s', ?_, hs', ho'.trans ho⟩
    rcases hm with ⟨a, hm⟩ | hm
    · rw [Script.run, Lua.run_bind, hm, Lua.andThen_ret]
      exact hend
    · cases hm

/-! ## Calls that fail -/

/-- The phase of a handle some of whose calls failed, beside the phase it was meant to be in. -/
inductive Behind : Phase → Phase → Prop
  | same (p : Phase) : Behind p p
  | down : Behind .down .usable
  | gone (p : Phase) : Behind .gone p

theorem Behind.step {p q p' : Phase} {c : Call} (h : Behind p q) (hc : p.step c.tried = some p') :
    ∃ q', q.step c = some q' ∧ Behind p' q' := by
  cases h with
  | same =>
    by_cases huse : c.isUse = true
    · rw [isUse_tried huse] at hc
      exact ⟨p', hc, .same p'⟩
    · cases c with
      | shutdown ret =>
        cases p with
        | usable =>
          obtain rfl : Phase.down = p' := Option.some.inj hc
          refine ⟨if ret = -1 then .usable else .down, rfl, ?_⟩
          by_cases hret : ret = -1
          · rw [if_pos hret]
            exact .down
          · rw [if_neg hret]
            exact .same _
        | down =>
          obtain rfl : Phase.down = p' := Option.some.inj hc
          exact ⟨_, rfl, .same _⟩
        | gone => cases hc
      | term ret =>
        cases p with
        | usable =>
          obtain rfl : Phase.gone = p' := Option.some.inj hc
          exact ⟨_, rfl, .gone _⟩
        | down =>
          obtain rfl : Phase.gone = p' := Option.some.inj hc
          exact ⟨_, rfl, .gone _⟩
        | gone => cases hc
      | socket ret => exact absurd rfl huse
      | get option ret => exact absurd rfl huse
      | set option value ret => exact absurd rfl huse
  | down =>
    cases c with
    | term ret =>
      obtain rfl : Phase.gone = p' := Option.some.inj hc
      exact ⟨_, rfl, .gone _⟩
    | socket ret => cases hc
    | get option ret => cases hc
    | set option value ret => cases hc
    | shutdown ret =>
      obtain rfl : Phase.down = p' := Option.some.inj hc
      refine ⟨if ret = -1 then .usable else .down, rfl, ?_⟩
      by_cases hret : ret = -1
      · rw [if_pos hret]
        exact .down
      · rw [if_neg hret]
        exact .same _
  | gone => cases c <;> cases hc

/-- What is in order when every call succeeds is in order when some fail. -/
theorem Behind.run (calls : List Call) : ∀ {p q p' : Phase}, Behind p q →
    run Phase.step p (calls.map Call.tried) = some p' → ∃ q', run Phase.step q calls = some q' ∧ Behind p' q' := by
  intro p q p' h hrun
  have hstep : ∀ (q p : Phase) (c : Call) (p' : Phase), Behind p q → p.step c.tried = some p' →
      ∃ q', q.step c = some q' ∧ Behind p' q' := fun q p c p' h hc => h.step hc
  have hmap := run_of_simulates Phase.step (R := fun q p => Behind p q) (f := fun c => c) hstep calls q p p' h hrun
  rw [List.map_id'] at hmap
  exact hmap

theorem Behind.not_gone {p q : Phase} (h : Behind p q) (hp : p ≠ .gone) : q ≠ .gone := by
  cases h with
  | same => exact hp
  | down => exact Phase.noConfusion
  | gone => exact absurd rfl hp

/-- When a handle is terminated in the end: the termination has been tried and did not fail. -/
theorem Behind.gone_iff (calls : List Call) : ∀ {p q p' q' : Phase}, Behind p q → p ≠ .gone →
    Steps.run Phase.step p (calls.map Call.tried) = some p' → Steps.run Phase.step q calls = some q' →
      (q' = .gone ↔ p' = .gone ∧ .term (-1) ∉ calls) := by
  induction calls with
  | nil =>
    intro p q p' q' h hp hrun hrun'
    obtain rfl := Option.some.inj hrun
    obtain rfl := Option.some.inj hrun'
    exact ⟨fun hq => absurd hq (h.not_gone hp), fun hq => absurd hq.1 hp⟩
  | cons c calls ih =>
    intro p q p' q' h hp hrun hrun'
    obtain ⟨p₁, hc, hrest⟩ := run_cons_inv Phase.step hrun
    obtain ⟨q₁, hc', hrest'⟩ := run_cons_inv Phase.step hrun'
    by_cases hterm : ∃ ret, c = .term ret
    · -- nothing follows a termination
      obtain ⟨ret, rfl⟩ := hterm
      have hp₁ : p₁ = .gone := by
        cases p with
        | usable => exact (Option.some.inj hc).symm
        | down => exact (Option.some.inj hc).symm
        | gone => exact absurd rfl hp
      have hq₁ : q₁ = if ret = -1 then q else .gone := by
        have hq := h.not_gone hp
        cases q with
        | usable => exact (Option.some.inj hc').symm
        | down => exact (Option.some.inj hc').symm
        | gone => exact absurd rfl hq
      subst hp₁
      cases calls with
      | nil =>
        obtain rfl := Option.some.inj hrest
        obtain rfl := Option.some.inj hrest'
        rw [hq₁]
        by_cases hret : ret = -1
        · simp [hret, h.not_gone hp]
        · have hne : ¬ (-1 : Int) = ret := fun h => hret h.symm
          simp [hret, hne]
      | cons d calls =>
        obtain ⟨_, hd, -⟩ := run_cons_inv Phase.step hrest
        cases d <;> cases hd
    · obtain ⟨q₂, hq₂, hbehind⟩ := h.step hc
      obtain rfl := Option.some.inj (hq₂.symm.trans hc')
      have hp₁ : p₁ ≠ .gone := by
        rintro rfl
        cases c with
        | term ret => exact hterm ⟨ret, rfl⟩
        | socket ret => cases p <;> cases hc
        | get option ret => cases p <;> cases hc
        | set option value ret => cases p <;> cases hc
        | shutdown ret => cases p <;> cases hc
      have hnot : Call.term (-1) ≠ c := fun h => hterm ⟨-1, h.symm⟩
      rw [ih hbehind hp₁ hrest hrest', List.mem_cons, not_or]
      constructor
      · rintro ⟨hp', hmem⟩
        exact ⟨hp', hnot, hmem⟩
      · rintro ⟨hp', -, hmem⟩
        exact ⟨hp', hmem⟩

/-! ## Runs -/

/-- A step of a run. -/
theorem Tried.step {s : FfiState} (hs : Tried s) (a : Action) : ∃ s', ffiStep s a = some s' ∧ Tried s' ∧
    s'.self.owner = s.self.owner := by
  cases a with
  | request r closing handler =>
    obtain ⟨s', hend, hs', ho⟩ := hs.request (ends_run closing hs) (ends_run handler) r
    refine ⟨s', ?_, hs', ho⟩
    rcases hend with ⟨a, h⟩ | h
    · rw [ffiStep, answer_ret h]
      rfl
    · rw [ffiStep, answer_raise h]
      rfl
  | onClose fn =>
    exact ⟨{ s with self := { s.self with onClose := fn } }, rfl, ⟨hs.owned, hs.borrowed⟩, rfl⟩

/-- **The FFI binding and the handle of a context.**  Whatever is asked of a context object, by the program or inside
    its handlers, and with any calls of libzmq failing: its calls are in order, as if none had failed; and an owned
    handle is terminated in the end exactly when the object is closed and its one termination did not fail. -/
theorem ffi_protocol (own : Bool) (outcomes : List Int) (actions : List Action) :
    ∃ s, run ffiStep (.init own outcomes) actions = some s ∧ Tried s ∧
      (own = true → ∃ q, run Phase.step .usable s.zmq.calls = some q ∧
        (q = .gone ↔ s.self.ctx = false ∧ .term (-1) ∉ s.zmq.calls)) := by
  have hstep : ∀ s a, Tried s ∧ s.self.owner = own →
      ∃ s', ffiStep s a = some s' ∧ Tried s' ∧ s'.self.owner = own := by
    rintro s a ⟨hs, ho⟩
    obtain ⟨s', h, hs', ho'⟩ := hs.step a
    exact ⟨s', h, hs', ho'.trans ho⟩
  obtain ⟨s, hrun, hs, ho⟩ := exists_run_inv ffiStep hstep actions _ ⟨tried_init own outcomes, rfl⟩
  refine ⟨s, hrun, hs, fun hown => ?_⟩
  have htried := hs.owned (ho.trans hown)
  obtain ⟨q, hq, -⟩ := Behind.run s.zmq.calls (.same .usable) htried
  refine ⟨q, hq, ?_⟩
  have hgone := Behind.gone_iff s.zmq.calls (.same .usable) Phase.noConfusion htried hq
  rw [hgone, phase_gone_iff]

end Lzmq.Contexts
