/-
  What the handlers of the sockets can do to a context of the C binding that is closing them.

  `luazmq_ctx_shutdown` and `luazmq_ctx_destroy` close the sockets of the autoclose list; the `on_close` handler of
  such a socket may call the methods of the same context, and what it calls may close the sockets again.  Two
  things can go wrong.  The socket whose handler runs is not flagged as closed, so a closing inside its handler
  closes it as well; when the handler has returned, the outer close hands its handle to `zmq_close` a second time,
  and the assertion on the result ends the process.  A socket that only borrows its handle is spared that.  And
  the flags of the context are not tested after the closing: if a handler has destroyed the context, the outer call
  goes to a handle that is gone.

  `c_protocol_iff`: these are the only ways.  What a handler does is a `Handler`, a tree of the requests it makes;
  every request in it carries what the handlers do while it closes the sockets.  Handlers add no socket to the list:
  a key that is added to a table under `lua_next` may be visited or not.  Handlers that close sockets themselves, or
  end with a number that `luaL_optint` refuses, are in `CContext.Close`.
-/
import Lzmq.Contexts.Handle

namespace Lzmq.Contexts

open Lzmq.Steps

/-! ## Closing a socket, and the sockets of the list -/

/-- The sockets of the list, if there is one. -/
def CState.table (s : CState) : List Skt := s.skts.autocloseRef.getD []

def CState.setClosed (k : Skt) (s : CState) : CState :=
  { s with skts := { s.skts with closed := k :: s.skts.closed } }

def CState.setAutoclose (ref : Option (List Skt)) (s : CState) : CState :=
  { s with skts := { s.skts with autocloseRef := ref } }

/-- `zmq_close`: it fails on a handle that has been closed. -/
def zmqClose (k : Skt) : Lua CState Int := do
  let closes ← Lua.read fun s => s.skts.closes
  Lua.modify fun s => { s with skts := { s.skts with closes := k :: closes } }
  pure (if k ∈ closes then -1 else 0)

/-- `ret = zmq_close(skt->skt); assert(ret != -1);`, on a socket that owns its handle -/
def closeHandle (k : Skt) : Lua CState Unit :=
  if k.dontDestroy then pure ()
  else do
    let ret ← zmqClose k
    Lua.assert (ret ≠ -1)

/-- `luazmq_skt_destroy` without a linger; `handler` is what the `on_close` handler does, if there is one. -/
def luazmqSktDestroy (k : Skt) (handler : Lua CState Unit) : Lua CState Unit := do
  let closed ← Lua.read fun s => s.skts.closed
  if k ∈ closed then pure ()
  else do
    let _ ← Lua.pcall handler -- luazmq_skt_before_close
    closeHandle k
    Lua.modify (CState.setClosed k)

/-- The loop of `luazmq_ctx_close_sockets`, over the sockets that are left and the code of their handlers. -/
def closeEach : List Skt → List (Lua CState Unit) → Lua CState Unit
  | [], _ => pure ()
  | k :: ks, handlers => do
    let _ ← Lua.pcall (luazmqSktDestroy k (handlers.headD (pure ()))) -- call_socket_destroy
    closeEach ks handlers.tail

/-- `luazmq_ctx_close_sockets`: the list is dropped at the end, whether or not it is the one that was closed. -/
def luazmqCtxCloseSockets (handlers : List (Lua CState Unit)) : Lua CState Unit := do
  let ref ← Lua.read fun s => s.skts.autocloseRef
  match ref with
  | none => pure ()
  | some skts => do
    closeEach skts handlers
    Lua.modify (CState.setAutoclose none)

/-- `luazmq_ctx_autoclose` -/
def luazmqCtxAutoclose (k : Skt) : Lua CState Unit := do
  luazmqGetcontext
  let closed ← Lua.read fun s => s.skts.closed
  if k ∈ closed then Lua.raise -- socket is closed
  else Lua.modify fun s => s.setAutoclose (some (s.table.insert k))

/-! ## Handlers -/

mutual

/-- What an `on_close` handler asks of the context, each call under `pcall`. -/
inductive Handler
  | ends
  | ask (r : Request) (closing : Handlers) (rest : Handler)

/-- What the handlers do of the sockets that are closed, in their order. -/
inductive Handlers
  | silent
  | cons (first : Handler) (others : Handlers)

end

/-- A request, and the code that closes the sockets in it. -/
def ask (r : Request) (closing : Lua CState Unit) : Lua CState Unit := do
  let _ ← Lua.pcall (do
    let _ ← cRequest closing r
    pure ())
  pure ()

mutual

def Handler.run : Handler → Lua CState Unit
  | .ends => pure ()
  | .ask r closing rest => do
    Contexts.ask r (luazmqCtxCloseSockets closing.runs)
    rest.run

def Handlers.runs : Handlers → List (Lua CState Unit)
  | .silent => []
  | .cons first others => first.run :: others.runs

end

/-- What the program does: a request, `autoclose` with a socket, or closing a socket. -/
inductive Asked
  | request (r : Request) (closing : Handlers)
  | autoclose (k : Skt)
  | close (k : Skt) (handler : Handler)

def Asked.run : Asked → Lua CState Unit
  | .request r closing => Contexts.ask r (luazmqCtxCloseSockets closing.runs)
  | .autoclose k => luazmqCtxAutoclose k
  | .close k handler => luazmqSktDestroy k handler.run

def cStep (s : CState) (a : Asked) : Option CState := Lua.after a.run s

/-! ## The condition -/

/-- Code that leaves an owned context open. -/
def LeavesOpen (closing : Lua CState Unit) (s : CState) : Prop :=
  ∀ m, closing s = .ret () m → s.ctx.dontDestroy = false → m.ctx.closed = false

mutual

/-- The handler of `k` makes no request that closes the sockets while `k` is one of them, unless `k` only borrows
    its handle; and no handler inside its requests leaves an owned context closed. -/
def Handler.Calm : Handler → Skt → CState → Prop
  | .ends, _, _ => True
  | .ask r closing rest, k, s =>
    (r.closes s.ctx → (k.dontDestroy = false → k ∉ s.table) ∧ closing.Calm s.table s ∧
      LeavesOpen (luazmqCtxCloseSockets closing.runs) s) ∧
    ∀ t, Contexts.ask r (luazmqCtxCloseSockets closing.runs) s = .ret () t → rest.Calm k t

/-- The handlers of the sockets that are left. -/
def Handlers.Calm : Handlers → List Skt → CState → Prop
  | .silent, _, _ => True
  | .cons _ _, [], _ => True
  | .cons first others, k :: ks, s =>
    (k ∉ s.skts.closed → first.Calm k s) ∧
    ∀ t, luazmqSktDestroy k first.run s = .ret () t → others.Calm ks t

end

def Calm (s : CState) : Asked → Prop
  | .request r closing =>
    r.closes s.ctx → closing.Calm s.table s ∧ LeavesOpen (luazmqCtxCloseSockets closing.runs) s
  | .autoclose _ => True
  | .close k handler => k ∉ s.skts.closed → handler.Calm k s

/-! ## What code leaves -/

/-- `zmq_close` has got the handles of the sockets that own one and are flagged as closed, and no others. -/
def Released (s : CState) : Prop := ∀ k, k ∈ s.skts.closes ↔ k ∈ s.skts.closed ∧ k.dontDestroy = false

/-- What code does to the sockets: it closes some of the list and of `ks`, and opens none. -/
structure Closes (ks : List Skt) (s s' : CState) : Prop where
  closed : ∀ k ∈ s.skts.closed, k ∈ s'.skts.closed
  closes : ∀ k ∈ s.skts.closes, k ∈ s'.skts.closes
  within : ∀ k ∈ s'.skts.closed, k ∈ s.skts.closed ∨ k ∈ s.table ∨ k ∈ ks
  table : ∀ k ∈ s'.table, k ∈ s.table
  released : Released s → Released s'

theorem Closes.of_eq {ks : List Skt} {s s' : CState} (h : s'.skts = s.skts) : Closes ks s s' where
  closed k hk := h ▸ hk
  closes k hk := h ▸ hk
  within k hk := Or.inl (h ▸ hk)
  table k hk := by
    rw [CState.table, h] at hk
    exact hk
  released hs k := by
    rw [h]
    exact hs k

theorem Closes.trans {ks : List Skt} {s m s' : CState} (h : Closes ks s m) (h' : Closes ks m s') :
    Closes ks s s' where
  closed k hk := h'.closed k (h.closed k hk)
  closes k hk := h'.closes k (h.closes k hk)
  within k hk := by
    rcases h'.within k hk with hm | hm | hm
    · exact h.within k hm
    · exact Or.inr (Or.inl (h.table k hm))
    · exact Or.inr (Or.inr hm)
  table k hk := h.table k (h'.table k hk)
  released hs := h'.released (h.released hs)

theorem Closes.mono {ks ls : List Skt} {s s' : CState} (h : Closes ks s s') (hsub : ks ⊆ ls) : Closes ls s s' :=
  { h with within := fun k hk => (h.within k hk).imp_right (Or.imp_right (hsub ·)) }

/-- Code that does not raise, and leaves what it must. -/
def Runs (ks : List Skt) (x : Lua CState Unit) : Prop :=
  ∀ s, x s = .abort ∨ ∃ t, x s = .ret () t ∧ Grows s t ∧ Closes ks s t

theorem runs_pure (ks : List Skt) : Runs ks (pure ()) := fun s => Or.inr ⟨s, rfl, .refl s, .of_eq rfl⟩

theorem Runs.ret {ks : List Skt} {x : Lua CState Unit} (hx : Runs ks x) {s t : CState} (h : x s = .ret () t) :
    Grows s t ∧ Closes ks s t := by
  rcases hx s with habort | ⟨u, hu, hg⟩
  · rw [habort] at h
    cases h
  · obtain ⟨-, rfl⟩ := Ending.ret.inj (hu.symm.trans h)
    exact hg

theorem Runs.bind {ks : List Skt} {x y : Lua CState Unit} (hx : Runs ks x) (hy : Runs ks y) :
    Runs ks (x >>= fun _ => y) := by
  intro s
  rcases hx s with habort | ⟨m, hm, hg, hc⟩
  · exact Or.inl (by rw [Lua.run_bind, habort, Lua.andThen_abort])
  · rw [Lua.run_bind, hm, Lua.andThen_ret]
    rcases hy m with habort | ⟨t, ht, hg', hc'⟩
    · exact Or.inl habort
    · exact Or.inr ⟨t, ht, hg.trans hg', hc.trans hc'⟩

/-- Code that does not raise needs no `pcall`. -/
theorem Runs.pcall_bind {ks : List Skt} {x : Lua CState Unit} (hx : Runs ks x) (y : Lua CState Unit) :
    (Lua.pcall x >>= fun _ => y) = (x >>= fun _ => y) := by
  funext s
  rcases hx s with habort | ⟨m, hm, -⟩
  · rw [Lua.run_bind, Lua.run_bind, Lua.run_pcall_abort habort, habort]
    rfl
  · rw [Lua.run_bind, Lua.run_bind, Lua.run_pcall_ret hm, hm]
    rfl

theorem Runs.mono {ks ls : List Skt} {x : Lua CState Unit} (hx : Runs ks x) (h : ks ⊆ ls) : Runs ls x := fun s =>
  (hx s).imp_right fun ⟨t, ht, hg, hc⟩ => ⟨t, ht, hg, hc.mono h⟩

/-! ## Closing -/

/-- The socket is closed. -/
def CState.release (k : Skt) (s : CState) : CState :=
  { s with
    skts := { s.skts with
      closed := k :: s.skts.closed
      closes := if k.dontDestroy then s.skts.closes else k :: s.skts.closes } }

section Destroy

variable {k : Skt} {handler : Lua CState Unit} {s t : CState}

theorem destroy_closed (h : k ∈ s.skts.closed) : luazmqSktDestroy k handler s = .ret () s := by
  simp [luazmqSktDestroy, h]

variable (h : k ∉ s.skts.closed)
include h

theorem destroy_abort (ht : handler s = .abort) : luazmqSktDestroy k handler s = .abort := by
  simp [luazmqSktDestroy, h, Lua.run_pcall_abort ht]

/-- After the handler the socket is closed, if its handle has not been. -/
theorem destroy_fresh (ht : handler s = .ret () t) (hk : k.dontDestroy = false → k ∉ t.skts.closes) :
    luazmqSktDestroy k handler s = .ret () (t.release k) := by
  cases hdont : k.dontDestroy with
  | true => simp [luazmqSktDestroy, h, Lua.run_pcall_ret ht, closeHandle, hdont, CState.release, CState.setClosed]
  | false =>
    simp [luazmqSktDestroy, h, Lua.run_pcall_ret ht, closeHandle, zmqClose, hdont, hk hdont, CState.release,
      CState.setClosed]

theorem destroy_twice (ht : handler s = .ret () t) (howns : k.dontDestroy = false) (hk : k ∈ t.skts.closes) :
    luazmqSktDestroy k handler s = .abort := by
  simp [luazmqSktDestroy, h, Lua.run_pcall_ret ht, closeHandle, zmqClose, howns, hk, Lua.run_assert_of_not]

end Destroy

theorem closes_release {ks : List Skt} {k : Skt} {s : CState} (hk : k ∈ ks) : Closes ks s (s.release k) where
  closed l hl := List.mem_cons_of_mem k hl
  closes l hl := by
    show l ∈ if k.dontDestroy then s.skts.closes else k :: s.skts.closes
    by_cases hdont : k.dontDestroy = true
    · rw [if_pos hdont]
      exact hl
    · rw [if_neg hdont]
      exact List.mem_cons_of_mem k hl
  within l hl := by
    rcases List.mem_cons.mp hl with rfl | hl
    · exact Or.inr (Or.inr hk)
    · exact Or.inl hl
  table l hl := hl
  released hs l := by
    show (l ∈ if k.dontDestroy then s.skts.closes else k :: s.skts.closes) ↔
      l ∈ k :: s.skts.closed ∧ l.dontDestroy = false
    by_cases hdont : k.dontDestroy = true
    · rw [if_pos hdont, hs l, List.mem_cons]
      refine and_congr_left fun howns => ⟨Or.inr, Or.rec (fun heq => ?_) id⟩
      rw [heq, hdont] at howns
      cases howns
    · rw [if_neg hdont, List.mem_cons, hs l, List.mem_cons]
      constructor
      · rintro (rfl | ⟨hl, howns⟩)
        · exact ⟨Or.inl rfl, Bool.not_eq_true _ ▸ hdont⟩
        · exact ⟨Or.inr hl, howns⟩
      · rintro ⟨heq | hl, howns⟩
        · exact Or.inl heq
        · exact Or.inr ⟨hl, howns⟩

/-- Closing a socket, with a handler that leaves what it must. -/
theorem destroy_runs {ks : List Skt} {k : Skt} {handler : Lua CState Unit} (hx : Runs ks handler) (hk : k ∈ ks) :
    Runs ks (luazmqSktDestroy k handler) := by
  intro s
  by_cases hclosed : k ∈ s.skts.closed
  · exact Or.inr ⟨s, destroy_closed hclosed, .refl s, .of_eq rfl⟩
  · rcases hx s with habort | ⟨t, ht, hg, hc⟩
    · exact Or.inl (destroy_abort hclosed habort)
    · by_cases hfresh : k.dontDestroy = false → k ∉ t.skts.closes
      · exact Or.inr ⟨_, destroy_fresh hclosed ht hfresh, hg.trans ⟨rfl, List.prefix_rfl⟩,
          hc.trans (closes_release hk)⟩
      · obtain ⟨howns, hmem⟩ := Classical.not_imp.mp hfresh
        exact Or.inl (destroy_twice hclosed ht howns (not_not.mp hmem))

/-- A close that returns has closed the socket. -/
theorem destroy_closes {k : Skt} {handler : Lua CState Unit} {ks : List Skt} (hx : Runs ks handler) {s t : CState}
    (ht : luazmqSktDestroy k handler s = .ret () t) : k ∈ t.skts.closed := by
  by_cases hclosed : k ∈ s.skts.closed
  · rw [destroy_closed hclosed] at ht
    obtain ⟨-, rfl⟩ := Ending.ret.inj ht
    exact hclosed
  · rcases hx s with habort | ⟨m, hm, -⟩
    · rw [destroy_abort hclosed habort] at ht
      cases ht
    · by_cases hfresh : k.dontDestroy = false → k ∉ m.skts.closes
      · rw [destroy_fresh hclosed hm hfresh] at ht
        obtain ⟨-, rfl⟩ := Ending.ret.inj ht
        exact List.mem_cons_self
      · obtain ⟨howns, hmem⟩ := Classical.not_imp.mp hfresh
        rw [destroy_twice hclosed hm howns (not_not.mp hmem)] at ht
        cases ht

theorem closeSockets_cases (handlers : List (Lua CState Unit)) (s : CState) :
    (s.table = [] ∧ luazmqCtxCloseSockets handlers s = .ret () s) ∨
    luazmqCtxCloseSockets handlers s =
      (closeEach s.table handlers >>= fun _ => Lua.modify (CState.setAutoclose none)) s := by
  cases href : s.skts.autocloseRef with
  | none => exact Or.inl ⟨by rw [CState.table, href]; rfl, by simp [luazmqCtxCloseSockets, href]⟩
  | some skts =>
    refine Or.inr ?_
    rw [show s.table = skts from by rw [CState.table, href]; rfl]
    simp [luazmqCtxCloseSockets, href]

section Loop

variable {handlers : List (Lua CState Unit)} (hx : ∀ x ∈ handlers, Runs [] x)
include hx

theorem runs_headD : Runs [] (handlers.headD (pure ())) := by
  cases handlers with
  | nil => exact runs_pure []
  | cons x xs => exact hx x List.mem_cons_self

theorem closeEach_cons (k : Skt) (ks : List Skt) : closeEach (k :: ks) handlers =
    (luazmqSktDestroy k (handlers.headD (pure ())) >>= fun _ => closeEach ks handlers.tail) :=
  (destroy_runs ((runs_headD hx).mono (List.nil_subset [k])) List.mem_cons_self).pcall_bind _

theorem closeEach_runs (ks : List Skt) : Runs ks (closeEach ks handlers) := by
  induction ks generalizing handlers with
  | nil => exact runs_pure []
  | cons k ks ih =>
    rw [closeEach_cons hx]
    refine (destroy_runs ((runs_headD hx).mono (List.nil_subset _)) List.mem_cons_self).bind ?_
    exact (ih fun x hmem => hx x (List.mem_of_mem_tail hmem)).mono (List.subset_cons_self k ks)

/-- The loop leaves no socket open. -/
theorem closeEach_closes {ks : List Skt} {s t : CState} (ht : closeEach ks handlers s = .ret () t) :
    ∀ k ∈ ks, k ∈ t.skts.closed := by
  induction ks generalizing handlers s with
  | nil => exact fun k hk => absurd hk List.not_mem_nil
  | cons k ks ih =>
    rw [closeEach_cons hx] at ht
    obtain ⟨_, m, hm, hrest⟩ := Lua.of_bind_ret ht
    have htail : ∀ x ∈ handlers.tail, Runs [] x := fun x hmem => hx x (List.mem_of_mem_tail hmem)
    intro l hl
    rcases List.mem_cons.mp hl with rfl | hl
    · exact ((closeEach_runs htail ks).ret hrest).2.closed l (destroy_closes (runs_headD hx) hm)
    · exact ih htail hrest l hl

theorem closeSockets_runs : Runs [] (luazmqCtxCloseSockets handlers) := by
  intro s
  rcases closeSockets_cases handlers s with ⟨-, h⟩ | h
  · exact Or.inr ⟨s, h, .refl s, .of_eq rfl⟩
  · rw [h, Lua.run_bind]
    rcases closeEach_runs hx s.table s with habort | ⟨t, ht, hg, hc⟩
    · exact Or.inl (by rw [habort, Lua.andThen_abort])
    · refine Or.inr ⟨t.setAutoclose none, by rw [ht, Lua.andThen_ret, Lua.run_modify], ?_, ?_⟩
      · exact hg.trans ⟨rfl, List.prefix_rfl⟩
      · exact ⟨hc.closed, hc.closes, fun k hk => (hc.within k hk).imp_right (Or.elim · Or.inl Or.inl),
          fun k hk => absurd hk List.not_mem_nil, hc.released⟩

theorem closeSockets_closes {s t : CState} (ht : luazmqCtxCloseSockets handlers s = .ret () t) :
    ∀ k ∈ s.table, k ∈ t.skts.closed := by
  rcases closeSockets_cases handlers s with ⟨hnil, -⟩ | h
  · rw [hnil]
    exact fun k hk => absurd hk List.not_mem_nil
  · rw [h] at ht
    obtain ⟨_, m, hm, hmod⟩ := Lua.of_bind_ret ht
    obtain ⟨-, rfl⟩ := Ending.ret.inj hmod
    have hclosed : ∀ k ∈ s.table, k ∈ m.skts.closed := closeEach_closes hx hm
    exact hclosed

end Loop

/-! ## Requests -/

section Ask

variable {r : Request} {closing : Lua CState Unit} {s : CState}

theorem ask_answer {a : Reply} {t : CState} (h : answer (cRequest closing r) s = some (a, t)) :
    Contexts.ask r closing s = .ret () t := by
  rw [answer] at h
  cases hx : cRequest closing r s with
  | ret b u =>
    rw [hx] at h
    obtain ⟨-, rfl⟩ := Prod.mk.inj (Option.some.inj h)
    simp [Contexts.ask, Lua.pcall, hx]
  | raise u =>
    rw [hx] at h
    obtain ⟨-, rfl⟩ := Prod.mk.inj (Option.some.inj h)
    simp [Contexts.ask, Lua.pcall, hx]
  | abort =>
    rw [hx] at h
    cases h

theorem ask_abort (h : answer (cRequest closing r) s = none) : Contexts.ask r closing s = .abort := by
  rw [answer] at h
  cases hx : cRequest closing r s with
  | ret b u =>
    rw [hx] at h
    cases h
  | raise u =>
    rw [hx] at h
    cases h
  | abort => simp [Contexts.ask, Lua.pcall, hx]

theorem ask_runs {ks : List Skt} (hc : Runs ks closing) (r : Request) : Runs ks (Contexts.ask r closing) := by
  intro s
  cases does s closing r with
  | nothing hr a h => exact Or.inr ⟨s, ask_answer h, .refl s, .of_eq rfl⟩
  | use hr hs c hcall a h => exact Or.inr ⟨_, ask_answer h, ⟨rfl, List.prefix_append _ _⟩, .of_eq rfl⟩
  | closes hr c mark hf h habort =>
    rcases hc s with hab | ⟨m, hm, hg, hcl⟩
    · exact Or.inl (ask_abort (habort hab))
    · obtain ⟨a, t, ht, hg', hskts⟩ := finish_grows m hf
      exact Or.inr ⟨t, ask_answer ((h m hm).trans (answer_ret ht)), hg.trans hg', hcl.trans (.of_eq hskts)⟩

end Ask

mutual

theorem Handler.run_runs : ∀ h : Handler, Runs [] h.run
  | .ends => runs_pure []
  | .ask r closing rest => (ask_runs (closeSockets_runs closing.runs_runs) r).bind rest.run_runs

theorem Handlers.runs_runs : ∀ (hs : Handlers), ∀ x ∈ hs.runs, Runs [] x
  | .silent => fun _ hx => absurd hx List.not_mem_nil
  | .cons first others => List.forall_mem_cons.mpr ⟨first.run_runs, others.runs_runs⟩

end

/-! ## Sound and ruined -/

/-- Everything is in order, and the sockets `ks`, whose handlers are running, have not been closed. -/
structure Sound (ks : List Skt) (s : CState) : Prop where
  refines : Refines s
  released : Released s
  fresh : ∀ k ∈ ks, k ∉ s.skts.closes

/-- The handle of the context has been called out of order, or that of a socket of `ks` has been closed. -/
def Ruined (ks : List Skt) (s : CState) : Prop := Broken s ∨ ∃ k ∈ ks, k ∈ s.skts.closes

theorem Ruined.grows {ks ls : List Skt} {s s' : CState} (h : Ruined ks s) (hg : Grows s s') (hc : Closes ls s s') :
    Ruined ks s' := by
  rcases h with hb | ⟨k, hk, hmem⟩
  · exact Or.inl (hb.grows hg)
  · exact Or.inr ⟨k, hk, hc.closes k hmem⟩

/-- Code from a sound state: if `P` it returns to one, else to a ruined one, if at all. -/
structure Decided (ks : List Skt) (P : Prop) (x : Lua CState Unit) (s : CState) : Prop where
  sound : P → ∃ t, x s = .ret () t ∧ Sound ks t
  ruined : ¬ P → ∀ t, x s = .ret () t → Ruined ks t

theorem Decided.congr {ks : List Skt} {P Q : Prop} {x : Lua CState Unit} {s : CState} (h : Decided ks P x s)
    (hPQ : Q ↔ P) : Decided ks Q x s :=
  ⟨fun hQ => h.sound (hPQ.mp hQ), fun hQ => h.ruined fun hP => hQ (hPQ.mpr hP)⟩

theorem decided_pure {ks : List Skt} {s : CState} (hs : Sound ks s) : Decided ks True (pure ()) s :=
  ⟨fun _ => ⟨s, rfl, hs⟩, fun h => absurd trivial h⟩

/-- Code in two parts. -/
theorem Decided.bind {ks ls : List Skt} {P : Prop} {Q : CState → Prop} {x y : Lua CState Unit} {s : CState}
    (h : Decided ks P x s) (hy : Runs ls y)
    (h' : ∀ t, x s = .ret () t → Sound ks t → Decided ks (Q t) y t) :
    Decided ks (P ∧ ∀ t, x s = .ret () t → Q t) (x >>= fun _ => y) s where
  sound hPQ := by
    obtain ⟨t, ht, hsound⟩ := h.sound hPQ.1
    rw [Lua.run_bind, ht, Lua.andThen_ret]
    exact (h' t ht hsound).sound (hPQ.2 t ht)
  ruined hnot u hu := by
    obtain ⟨⟨⟩, t, ht, hrest⟩ := Lua.of_bind_ret hu
    by_cases hP : P
    · obtain ⟨t', ht', hsound⟩ := h.sound hP
      obtain ⟨-, rfl⟩ := Ending.ret.inj (ht'.symm.trans ht)
      refine (h' t' ht hsound).ruined (fun hQ => hnot ⟨hP, fun v hv => ?_⟩) u hrest
      obtain ⟨-, rfl⟩ := Ending.ret.inj (ht.symm.trans hv)
      exact hQ
    · obtain ⟨hg, hc⟩ := hy.ret hrest
      exact (h.ruined hP t ht).grows hg hc

/-- **Closing a socket** whose handler is decided. -/
theorem destroy_decided {k : Skt} {P : Prop} {handler : Lua CState Unit} {s : CState} (hs : Sound [] s)
    (hx : Runs [] handler) (h : k ∉ s.skts.closed → Sound [k] s → Decided [k] P handler s) :
    Decided [] (k ∉ s.skts.closed → P) (luazmqSktDestroy k handler) s := by
  by_cases hclosed : k ∈ s.skts.closed
  · exact ⟨fun _ => ⟨s, destroy_closed hclosed, hs⟩, fun hnot => absurd hclosed (Classical.not_imp.mp hnot).1⟩
  · have hfresh : k ∉ s.skts.closes := fun hmem => hclosed ((hs.released k).mp hmem).1
    have hd := h hclosed ⟨hs.refines, hs.released, List.forall_mem_singleton.mpr hfresh⟩
    constructor
    · intro hP
      obtain ⟨t, ht, hsound⟩ := hd.sound (hP hclosed)
      refine ⟨_, destroy_fresh hclosed ht fun _ => hsound.fresh k List.mem_cons_self, ?_⟩
      have hreleased := (closes_release (List.mem_singleton_self k)).released hsound.released
      exact ⟨⟨hsound.refines.owned, hsound.refines.borrowed⟩, hreleased, List.forall_mem_nil _⟩
    · intro hnot u hu
      rcases hx s with habort | ⟨t, ht, -, hc⟩
      · rw [destroy_abort hclosed habort] at hu
        cases hu
      · rcases hd.ruined (fun hP => hnot fun _ => hP) t ht with hb | ⟨l, hl, hmem⟩
        · have hown : k.dontDestroy = false → k ∉ t.skts.closes := fun howns hmem => by
            rw [destroy_twice hclosed ht howns hmem] at hu
            cases hu
          obtain ⟨-, rfl⟩ := Ending.ret.inj ((destroy_fresh hclosed ht hown).symm.trans hu)
          exact Or.inl hb
        · -- the handle has been closed: the assertion fails
          obtain rfl := List.mem_singleton.mp hl
          rw [destroy_twice hclosed ht ((hc.released hs.released l).mp hmem).2 hmem] at hu
          cases hu

/-- The loop with handlers that do nothing. -/
theorem closeEach_silent : ∀ (ks : List Skt) {s : CState}, Sound [] s → Decided [] True (closeEach ks []) s
  | [], _, hs => decided_pure hs
  | k :: ks, s, hs => by
    have hnil : ∀ x ∈ ([] : List (Lua CState Unit)), Runs [] x := fun x hx => absurd hx List.not_mem_nil
    rw [closeEach_cons hnil]
    have hk : Decided [] (k ∉ s.skts.closed → True) (luazmqSktDestroy k (pure ())) s :=
      destroy_decided hs (runs_pure []) fun _ => decided_pure
    refine (hk.bind (Q := fun _ => True) (closeEach_runs hnil ks) fun t _ ht => closeEach_silent ks ht).congr ?_
    exact iff_of_true trivial ⟨fun _ => trivial, fun _ _ => trivial⟩

section Decide

variable {s : CState}

/-- The closing leaves the sockets open whose handlers run, iff none that owns its handle is in the list. -/
theorem closeSockets_fresh {ks : List Skt} (hs : Sound ks s) {handlers : List (Lua CState Unit)}
    (hx : ∀ x ∈ handlers, Runs [] x) {m : CState} (hm : luazmqCtxCloseSockets handlers s = .ret () m) :
    (∀ k ∈ ks, k ∉ m.skts.closes) ↔ ∀ k ∈ ks, k.dontDestroy = false → k ∉ s.table := by
  have hc := ((closeSockets_runs hx).ret hm).2
  have hreleased := hc.released hs.released
  refine forall_congr' fun k => forall_congr' fun hk => ?_
  constructor
  · exact fun hfresh howns hin => hfresh ((hreleased k).mpr ⟨closeSockets_closes hx hm k hin, howns⟩)
  · intro hlist hmem
    obtain ⟨hclosed, howns⟩ := (hreleased k).mp hmem
    rcases hc.within k hclosed with hin | hin | hin
    · exact hs.fresh k hk ((hs.released k).mpr ⟨hin, howns⟩)
    · exact hlist howns hin
    · cases hin

theorem leavesOpen_iff {closing : Lua CState Unit} {m : CState} (hm : closing s = .ret () m) (hg : Grows s m) :
    LeavesOpen closing s ↔ (m.ctx.dontDestroy = false → m.ctx.closed = false) := by
  rw [hg.dontDestroy]
  constructor
  · exact fun h => h m hm
  · intro h m' hm'
    obtain ⟨-, rfl⟩ := Ending.ret.inj (hm.symm.trans hm')
    exact h

/-- The call after the closing. -/
theorem finish_sound {ks : List Skt} {c : Int → Call} {mark : ZContext → ZContext} (hf : Follows c mark)
    {m t : CState} {a : Reply} (hm : Sound [] m) (ht : finish c mark m = .ret a t) (hskts : t.skts = m.skts)
    (hopen : m.ctx.dontDestroy = false → m.ctx.closed = false) (hfresh : ∀ k ∈ ks, k ∉ m.skts.closes) :
    Sound ks t := by
  have hcloses : Closes ks m t := .of_eq hskts
  refine ⟨finish_refines hf hm.refines hopen ht, hcloses.released hm.released, ?_⟩
  rw [hskts]
  exact hfresh

/-- **One request** while the handlers of `ks` run. -/
theorem ask_decided {ks : List Skt} (hs : Sound ks s) {handlers : List (Lua CState Unit)}
    (hx : ∀ x ∈ handlers, Runs [] x) {P : Prop} (hd : Decided [] P (luazmqCtxCloseSockets handlers) s)
    (r : Request) : Decided ks (r.closes s.ctx → (∀ k ∈ ks, k.dontDestroy = false → k ∉ s.table) ∧ P ∧
      LeavesOpen (luazmqCtxCloseSockets handlers) s) (Contexts.ask r (luazmqCtxCloseSockets handlers)) s := by
  cases does s (luazmqCtxCloseSockets handlers) r with
  | nothing hr a h =>
    exact ⟨fun _ => ⟨s, ask_answer h, hs⟩, fun hnot => absurd (Classical.not_imp.mp hnot).1 hr⟩
  | use hr husable c hc a h =>
    refine ⟨fun _ => ⟨_, ask_answer h, ?_⟩, fun hnot => absurd (Classical.not_imp.mp hnot).1 hr⟩
    exact ⟨hs.refines.use husable hc, hs.released, hs.fresh⟩
  | closes hr c mark hf h habort =>
    rcases closeSockets_runs hx s with hab | ⟨m, hm, hg, hc⟩
    · -- the closing aborts, so its handlers are not calm
      refine ⟨fun hP => ?_, fun _ t ht => ?_⟩
      · obtain ⟨m, hm, -⟩ := hd.sound (hP hr).2.1
        rw [hab] at hm
        cases hm
      · rw [ask_abort (habort hab)] at ht
        cases ht
    · obtain ⟨a, t, ht, hg', hskts⟩ := finish_grows m hf
      have hask := ask_answer ((h m hm).trans (answer_ret ht))
      rw [leavesOpen_iff hm hg, ← closeSockets_fresh hs hx hm]
      constructor
      · intro hP
        obtain ⟨hfresh, hcalm, hopen⟩ := hP hr
        obtain ⟨m', hm', hsound⟩ := hd.sound hcalm
        obtain ⟨-, rfl⟩ := Ending.ret.inj (hm'.symm.trans hm)
        exact ⟨t, hask, finish_sound hf hsound ht hskts hopen hfresh⟩
      · intro hnot t' ht'
        obtain ⟨-, rfl⟩ := Ending.ret.inj (hask.symm.trans ht')
        obtain ⟨-, hnot⟩ := Classical.not_imp.mp hnot
        by_cases hfresh : ∀ k ∈ ks, k ∉ m.skts.closes
        · by_cases hcalm : P
          · obtain ⟨m', hm', hsound⟩ := hd.sound hcalm
            obtain ⟨-, rfl⟩ := Ending.ret.inj (hm'.symm.trans hm)
            obtain ⟨hown, hclosed⟩ := Classical.not_imp.mp fun hopen => hnot ⟨hfresh, hcalm, hopen⟩
            exact Or.inl (finish_broken hf hsound.refines hown (Bool.not_eq_false _ ▸ hclosed) ht)
          · rcases hd.ruined hcalm m hm with hb | ⟨k, hk, -⟩
            · exact Or.inl (hb.grows hg')
            · cases hk
        · -- the closing has closed a socket whose handler runs
          obtain ⟨k, hk⟩ := not_forall.mp hfresh
          obtain ⟨hk, hmem⟩ := Classical.not_imp.mp hk
          refine Or.inr ⟨k, hk, ?_⟩
          rw [hskts]
          exact not_not.mp hmem

theorem closeSockets_decided {handlers : List (Lua CState Unit)} {P : Prop}
    (h : Decided [] P (closeEach s.table handlers) s) : Decided [] P (luazmqCtxCloseSockets handlers) s := by
  rcases closeSockets_cases handlers s with ⟨hnil, heq⟩ | heq
  · rw [hnil] at h
    exact ⟨fun hP => heq ▸ h.sound hP, fun hnot t ht => h.ruined hnot t (heq.symm.trans ht)⟩
  · constructor
    · intro hP
      obtain ⟨t, ht, hsound⟩ := h.sound hP
      refine ⟨t.setAutoclose none, by rw [heq, Lua.run_bind, ht, Lua.andThen_ret, Lua.run_modify], ?_⟩
      exact ⟨⟨hsound.refines.owned, hsound.refines.borrowed⟩, hsound.released, hsound.fresh⟩
    · intro hnot u hu
      rw [heq] at hu
      obtain ⟨⟨⟩, t, ht, hmod⟩ := Lua.of_bind_ret hu
      obtain ⟨-, rfl⟩ := Ending.ret.inj hmod
      exact h.ruined hnot t ht

mutual

/-- **The handler of a socket**: induction on what it asks, and on what the handlers do inside. -/
theorem Handler.decided : ∀ (h : Handler) {k : Skt} {s : CState}, Sound [k] s → Decided [k] (h.Calm k s) h.run s
  | .ends, _, _, hs => decided_pure hs
  | .ask r closing rest, k, s, hs => by
    have hinside := closing.decided s.table ⟨hs.refines, hs.released, List.forall_mem_nil _⟩
    have hask := ask_decided hs closing.runs_runs (closeSockets_decided hinside) r
    rw [List.forall_mem_singleton] at hask
    exact hask.bind rest.run_runs fun t _ ht => rest.decided ht

/-- **The handlers of the sockets that are left.** -/
theorem Handlers.decided : ∀ (hs : Handlers) (ks : List Skt) {s : CState}, Sound [] s →
    Decided [] (hs.Calm ks s) (closeEach ks hs.runs) s
  | .silent, ks, _, hs => by
    have hsilent := closeEach_silent ks hs
    exact hsilent
  | .cons _ _, [], _, hs => decided_pure hs
  | .cons first others, k :: ks, s, hs => by
    have hx := (Handlers.cons first others).runs_runs
    rw [closeEach_cons hx]
    have hfirst := destroy_decided (k := k) hs first.run_runs fun _ => first.decided
    exact hfirst.bind (closeEach_runs others.runs_runs ks) fun t _ ht => others.decided ks ht

end

end Decide

/-! ## Runs -/

/-- `autoclose` puts a socket into the list, or raises. -/
theorem autoclose_cases (k : Skt) (s : CState) : luazmqCtxAutoclose k s = .raise s ∨
    luazmqCtxAutoclose k s = .ret () (s.setAutoclose (some (s.table.insert k))) := by
  by_cases husable : s.ctx.phase = .usable
  · by_cases hclosed : k ∈ s.skts.closed
    · exact Or.inl (by simp [luazmqCtxAutoclose, run_getcontext, husable, hclosed])
    · exact Or.inr (by simp [luazmqCtxAutoclose, run_getcontext, husable, hclosed])
  · exact Or.inl (by simp [luazmqCtxAutoclose, run_getcontext, husable])

theorem step_autoclose {s : CState} (hs : Sound [] s) (k : Skt) :
    ∃ s', cStep s (.autoclose k) = some s' ∧ Sound [] s' := by
  rcases autoclose_cases k s with h | h
  · exact ⟨s, Lua.after_of (Or.inr h), hs⟩
  · exact ⟨_, Lua.after_of (Or.inl ⟨(), h⟩), ⟨hs.refines.owned, hs.refines.borrowed⟩, hs.released, hs.fresh⟩

/-- The steps that close sockets, from what is decided of their code. -/
theorem step_decided {s : CState} {a : Asked} {ks : List Skt} {P : Prop} (hx : Runs ks a.run)
    (hd : Decided [] P a.run s) : (∃ s', cStep s a = some s' ∧ Refines s') ↔ P := by
  constructor
  · rintro ⟨s', hs', hrefines⟩
    rcases hx s with habort | ⟨t, ht, -⟩
    · rw [cStep, Lua.after_abort habort] at hs'
      cases hs'
    · obtain rfl := Option.some.inj ((Lua.after_of (Or.inl ⟨(), ht⟩)).symm.trans hs')
      refine Classical.byContradiction fun hnot => ?_
      rcases hd.ruined hnot t ht with hb | ⟨k, hk, -⟩
      · exact hb.not_refines hrefines
      · cases hk
  · intro hP
    obtain ⟨t, ht, hsound⟩ := hd.sound hP
    exact ⟨t, Lua.after_of (Or.inl ⟨(), ht⟩), hsound.refines⟩

theorem runs_of_asked : ∀ a : Asked, (∃ k, a = .autoclose k) ∨ ∃ ks, Runs ks a.run
  | .request r closing => Or.inr ⟨[], ask_runs (closeSockets_runs closing.runs_runs) r⟩
  | .autoclose k => Or.inl ⟨k, rfl⟩
  | .close k handler =>
    Or.inr ⟨[k], destroy_runs (handler.run_runs.mono (List.nil_subset [k])) (List.mem_singleton_self k)⟩

/-- **One step.** -/
theorem step_iff {s : CState} (hs : Sound [] s) : ∀ a, (∃ s', cStep s a = some s' ∧ Refines s') ↔ Calm s a
  | .request r closing => by
    have hask := ask_decided hs closing.runs_runs (closeSockets_decided (closing.decided s.table hs)) r
    refine (step_decided (ask_runs (closeSockets_runs closing.runs_runs) r) hask).trans ?_
    exact forall_congr' fun _ => and_iff_right fun k hk => absurd hk List.not_mem_nil
  | .autoclose k => by
    obtain ⟨s', hs', hsound⟩ := step_autoclose hs k
    exact iff_of_true ⟨s', hs', hsound.refines⟩ trivial
  | .close k handler =>
    step_decided (destroy_runs (handler.run_runs.mono (List.nil_subset [k])) List.mem_cons_self)
      (destroy_decided hs handler.run_runs fun _ => handler.decided)

theorem step_sound {s s' : CState} {a : Asked} (hs : Sound [] s) (h : cStep s a = some s')
    (hrefines : Refines s') : Sound [] s' := by
  rcases runs_of_asked a with ⟨k, rfl⟩ | ⟨ks, hx⟩
  · obtain ⟨t, ht, hsound⟩ := step_autoclose hs k
    exact Option.some.inj (ht.symm.trans h) ▸ hsound
  · rcases hx s with habort | ⟨t, ht, -, hc⟩
    · rw [cStep, Lua.after_abort habort] at h
      cases h
    · obtain rfl := Option.some.inj ((Lua.after_of (Or.inl ⟨(), ht⟩)).symm.trans h)
      exact ⟨hrefines, hc.released hs.released, List.forall_mem_nil _⟩

/-- **The C binding and the handle of a context.**  Whatever is asked of a context object, by the program or by the
    handlers of its sockets, in any order and with any calls of libzmq failing: every step of the run returns, the
    calls are in order in every state, the object is closed exactly when the handle has been terminated and a
    borrowed handle is only used, iff no handler makes the context close its own socket, unless the socket borrows
    its handle, and no handler that runs inside a shutdown or a destroy leaves an owned context closed. -/
theorem c_protocol_iff (own : Bool) (outcomes : List Int) (as : List Asked) :
    Keeps cStep (fun _ _ s' => Refines s') (.init own outcomes) as ↔ Meets cStep Calm (.init own outcomes) as := by
  refine keeps_iff_meets cStep (Sound []) (fun s a hs => step_iff hs a) (fun s a s' => step_sound) as _ ?_
  exact ⟨refines_init own outcomes, fun k => by simp [CState.init], List.forall_mem_nil _⟩

/-- A handler that destroys the context: the handle of its socket is closed twice; if the socket borrows it, that of
    the context is terminated twice. -/
example : (run cStep (.init true []) [.autoclose ⟨0, false⟩,
    .request .destroy (.cons (.ask .destroy .silent .ends) .silent)]).isNone = true := by decide

example : (run cStep (.init true []) [.autoclose ⟨0, true⟩,
    .request .destroy (.cons (.ask .destroy .silent .ends) .silent)]).map (fun s => s.zmq.calls) =
      some [.term 0, .term 0] := by decide

end Lzmq.Contexts
