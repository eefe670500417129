/-
  Destroying a context of the C binding: what is still open when `zmq_ctx_term` is called.

  `ctx:destroy` closes the sockets in the autoclose set and then terminates the context, which blocks while
  a socket is open.  A socket joins the set at the very end of its constructor.  On a failure that is
  returned the constructor has closed the handle before; on a Lua error, which a value of the wrong type
  raises in the middle of it, it has not: the object is on no list and in no variable, and its handle stays
  open.

  A program (`Prog`) can only name the objects it was given.  `Inv` says what the world looks like between
  two calls, `Leaked` that a socket has been lost; a call loses one exactly when `leaks` says so, and what
  is lost stays lost.
-/
import Lzmq.CContext.Atomic
import Lzmq.Lib.Ledger
import Lzmq.Lib.Steps

namespace Lzmq.CContext

/-! ## A program and its context -/

/-- A context, and the socket objects that the program has been given. -/
structure Prog where
  world : World
  held : List Nat
deriving DecidableEq, Repr

def Prog.init : Prog := ⟨.init, []⟩

/-- A call: `ctx:socket(…)`, `skt:close()` and `ctx:autoclose(skt)` with the n-th socket of the program. -/
inductive Call
  | socket (env : Env) (args : List Val)
  | close (n : Nat)
  | autoclose (n : Nat)

/-- The objects among the results of a call. -/
def sockets (results : List Val) : List Nat :=
  results.filterMap fun v =>
    match v with
    | .skt i => some i
    | _ => none

/-- A method of one of the program's sockets. -/
def Prog.method (p : Prog) (n : Nat) (x : Nat → Lua World Unit) : Option Prog :=
  match p.held[n]? with
  | none => some p
  | some i =>
    match x i p.world with
    | .ret _ w => some { p with world := w }
    | .raise w => some { p with world := w }
    | .abort => none

/-- A call, made under `pcall`; `none` when the process aborts. -/
def Prog.call (p : Prog) : Call → Option Prog
  | .socket env args =>
    match ctxSocket env p.world args with
    | .ret results f => some ⟨f.world, p.held ++ sockets results⟩
    | .raise f => some { p with world := f.world }
    | .abort => none
  | .close n => p.method n luazmqSktClose
  | .autoclose n => p.method n luazmqCtxAutoclose

/-- `call_socket_destroy` -/
def callSocketDestroy (i : Nat) : Lua World Unit := do
  let _ ← Lua.pcall (luazmqSktClose i)
  pure ()

/-- `luazmq_ctx_close_sockets`; `lua_next` goes through the autoclose set in the order `order`. -/
def luazmqCtxCloseSockets (order : List Nat) : Lua World Unit := do
  let autocloseRef ← Lua.read World.autocloseRef
  match autocloseRef with
  | none => pure ()
  | some _ => do
    forM order callSocketDestroy
    Lua.modify fun w => { w with autocloseRef := none }

/-- `luazmq_ctx_destroy` up to `zmq_ctx_term`: whether it gets there. -/
def luazmqCtxDestroy (order : List Nat) : Lua World Bool := do
  let closed ← Lua.read World.closed
  if closed then pure false
  else do
    luazmqCtxCloseSockets order
    pure true

/-! ## The world between two calls -/

/-- The object of the handle `i`. -/
def World.object (w : World) (i : Nat) : ZSocket := ⟨i, decide (i ∈ w.closes), false, true, .noref⟩

/-- What holds between two calls: the handle of an object is its number, an object is closed when its handle
    is, and the count is that of the open ones. -/
structure World.Inv (w : World) : Prop where
  opened : w.closed = false
  handles : w.nextHandle = w.objs.length
  obj : ∀ i < w.objs.length, w.objs[i]? = some (w.object i)
  closes : ∀ h ∈ w.closes, h < w.objs.length
  auto : ∀ i ∈ w.autocloseRef.getD [], i < w.objs.length
  count : Ledger.Balanced ZSocket.counted w.objs w.socketCount

/-- The objects that the program has are in the autoclose set. -/
structure Prog.Inv (p : Prog) : Prop where
  world : p.world.Inv
  held : ∀ i ∈ p.held, i ∈ p.world.autocloseRef.getD []

/-- A socket that nobody will close. -/
def Leaked (w : World) : Prop := ∃ h < w.nextHandle, h ∉ w.closes ∧ h ∉ w.autocloseRef.getD []

theorem Prog.inv_init : Prog.init.Inv where
  world := ⟨rfl, rfl, fun i hi => absurd hi (Nat.not_lt_zero i), fun _ hh => absurd hh List.not_mem_nil,
    fun _ hh => absurd hh List.not_mem_nil, rfl⟩
  held _ hi := absurd hi List.not_mem_nil

section Inv

variable {w : World} (hw : w.Inv)
include hw

theorem World.Inv.fresh : w.nextHandle ∉ w.closes := by
  intro h
  have hlt := hw.closes _ h
  rw [hw.handles] at hlt
  exact absurd hlt (Nat.lt_irrefl _)

theorem World.Inv.fresh_auto : w.nextHandle ∉ w.autocloseRef.getD [] := by
  intro h
  have hlt := hw.auto _ h
  rw [hw.handles] at hlt
  exact absurd hlt (Nat.lt_irrefl _)

theorem World.Inv.newSocket : w.newSocket.Inv where
  opened := hw.opened
  handles := by simp [World.newSocket, hw.handles]
  obj i hi := by
    have hfresh := hw.fresh
    rw [hw.handles] at hfresh
    rcases Nat.lt_or_ge i w.objs.length with hlt | hge
    · rw [World.newSocket, List.getElem?_append_left hlt]
      exact hw.obj i hlt
    · obtain rfl : i = w.objs.length := by
        simp [World.newSocket] at hi
        omega
      simp [World.newSocket, World.object, hw.handles, hfresh]
  closes h hh := by
    have hlt := hw.closes h hh
    simp [World.newSocket]
    omega
  auto i hi := by
    have hlt := hw.auto i hi
    simp [World.newSocket]
    omega
  count := hw.count.append _

/-- Closing an open socket of the context. -/
theorem World.Inv.closedAt {i : Nat} (hi : i < w.objs.length) (hopen : i ∉ w.closes) :
    (w.closedAt i (w.object i)).Inv where
  opened := hw.opened
  handles := by simp [World.closedAt, hw.handles]
  obj j hj := by
    have hj' : j < w.objs.length := by simpa [World.closedAt] using hj
    rw [World.closedAt, List.getElem?_set]
    by_cases hij : i = j
    · subst hij
      simp [World.object, hj']
    · have hji : j ≠ i := fun h => hij h.symm
      rw [if_neg hij, hw.obj j hj']
      simp [World.object, hji]
  closes h hh := by
    have hlt : h < w.objs.length := by
      rcases List.mem_cons.mp hh with rfl | hh
      · exact hi
      · exact hw.closes h hh
    simpa [World.closedAt] using hlt
  auto j hj := by
    have hlt := hw.auto j hj
    simpa [World.closedAt] using hlt
  count := hw.count.set_dead (hw.obj i hi) (by simp [ZSocket.counted, World.object, hopen]) rfl

/-- A socket put into the autoclose set. -/
theorem World.Inv.registered {i : Nat} (hi : i < w.objs.length) : (w.registered i).Inv where
  opened := hw.opened
  handles := hw.handles
  obj := hw.obj
  closes := hw.closes
  auto j hj := by
    rcases List.mem_insert_iff.mp hj with rfl | hj
    · exact hi
    · exact hw.auto j hj
  count := hw.count

/-! ## The calls -/

/-- **`close`** closes the handle, if it is open, and nothing else. -/
theorem luazmqSktClose_inv {i : Nat} (hi : i < w.objs.length) :
    ∃ w', luazmqSktClose i w = .ret () w' ∧ w'.Inv ∧ w'.nextHandle = w.nextHandle ∧
      w'.autocloseRef = w.autocloseRef ∧ ∀ h, h ∈ w'.closes ↔ h = i ∨ h ∈ w.closes := by
  by_cases hin : i ∈ w.closes
  · refine ⟨w, luazmqSktClose_closed (hw.obj i hi) (by simp [World.object, hin]), hw, rfl, rfl, fun h => ?_⟩
    exact ⟨Or.inr, fun hh => hh.elim (fun hhi => hhi ▸ hin) fun hh => hh⟩
  · have hopen : (w.object i).closed = false := by simp [World.object, hin]
    have hcount : 1 ≤ w.socketCount :=
      hw.count.pos (List.mem_of_getElem? (hw.obj i hi)) (by simp [ZSocket.counted, World.object, hin])
    refine ⟨_, luazmqSktClose_open (hw.obj i hi) hopen rfl rfl rfl hin hcount, hw.closedAt hi hin, rfl,
      rfl, ?_⟩
    exact fun h => List.mem_cons

/-- **`ctx:autoclose`** of a socket that is in the set already. -/
theorem luazmqCtxAutoclose_inv {i : Nat} (hauto : i ∈ w.autocloseRef.getD []) : ∃ w',
    (luazmqCtxAutoclose i w = .ret () w' ∨ luazmqCtxAutoclose i w = .raise w') ∧ w'.Inv ∧
      w'.nextHandle = w.nextHandle ∧ w'.closes = w.closes ∧
      ∀ j, j ∈ w'.autocloseRef.getD [] ↔ j ∈ w.autocloseRef.getD [] := by
  have hi := hw.auto i hauto
  by_cases hin : i ∈ w.closes
  · refine ⟨w, Or.inr ?_, hw, rfl, rfl, fun j => Iff.rfl⟩
    simp [luazmqCtxAutoclose, hw.obj i hi, World.object, hin]
  · refine ⟨w.registered i, Or.inl ?_, hw.registered hi, rfl, rfl, fun j => ?_⟩
    · simp [luazmqCtxAutoclose, hw.obj i hi, World.object, hin, hw.opened, World.registered]
    · show j ∈ (w.autocloseRef.getD []).insert i ↔ _
      rw [List.mem_insert_iff]
      exact ⟨fun hj => hj.elim (fun hji => hji ▸ hauto) fun hj => hj, Or.inr⟩

/-- What a constructor leaves: the world as it was, up to a new handle that is closed, registered or lost. -/
theorem ctxSocket_inv (env : Env) (args : List Val) :
    (opensHandle env args = false ∧ ∃ f : Frame, f.world = w ∧
      (ctxSocket env w args = .raise f ∨ ∃ e, ctxSocket env w args = .ret [.nil, .err e] f)) ∨
    (opensHandle env args = true ∧ Constructed env w (optEntries args) (ctxSocket env w args)) := by
  by_cases hopens : opensHandle env args = true
  · refine Or.inr ⟨hopens, ?_⟩
    obtain ⟨hself, htype, hsocket⟩ := opensHandle_iff.mp hopens
    exact ctxSocket_constructed hw.opened hw.count.nonneg hw.fresh hself htype hsocket
  · have hrefused := Bool.eq_false_iff.mpr hopens
    exact Or.inl ⟨hrefused, ctxSocket_refused hw.opened hrefused⟩

end Inv

/-- A call that raises an error after it has opened a handle: it comes to a value of the wrong type before a
    call of libzmq fails. -/
def Call.leaks : Call → Bool
  | .socket env args =>
    opensHandle env args && !wellTyped env (optEntries args) &&
      (List.range (configCalls env 0 (optEntries args)).length).all fun j => (env.fails (1 + j)).isNone
  | _ => false

/-- The calls of libzmq that a constructor makes all succeed. -/
theorem follow_none_iff (env : Env) (skt : Nat) (entries : Entries) :
    (follow env.fails [.socket] (socketPlan env skt entries).steps).2 = none ↔
      ((List.range (configCalls env 0 entries).length).all fun j => (env.fails (1 + j)).isNone) = true := by
  have hlen : (configCalls env 0 entries).length = (socketPlan env skt entries).steps.length := by
    rw [configCalls, List.length_map, (socketPlan_alike 0 skt entries).1]
  rw [hlen, List.all_eq_true]
  rcases follow_cases env.fails (socketPlan env skt entries).steps [.socket] with
    ⟨k, s, e, hk, he, -, hrun⟩ | ⟨hall, hrun⟩
  · rw [hrun]
    constructor
    · intro h
      cases h
    · intro h
      have hnone := h k (List.mem_range.mpr (List.getElem?_eq_some_iff.mp hk).1)
      rw [show env.fails (1 + k) = some e from he] at hnone
      cases hnone
  · rw [hrun]
    refine ⟨fun _ j hj => ?_, fun _ => rfl⟩
    exact Option.isNone_iff_eq_none.mpr (hall j (List.mem_range.mp hj))

/-- Registered sockets are not lost; closing and registering others does not find a lost one. -/
theorem leaked_congr {w w' : World} (hn : w'.nextHandle = w.nextHandle)
    (h : ∀ i < w.nextHandle, (i ∈ w'.closes ∨ i ∈ w'.autocloseRef.getD []) ↔
      (i ∈ w.closes ∨ i ∈ w.autocloseRef.getD [])) : Leaked w' ↔ Leaked w := by
  rw [Leaked, Leaked, hn]
  refine exists_congr fun i => and_congr_right fun hi => ?_
  rw [← not_or, ← not_or, h i hi]

/-- A new handle that is closed or registered is not lost. -/
theorem leaked_new {w w' : World} (hn : w'.nextHandle = w.nextHandle + 1)
    (hnew : w.nextHandle ∈ w'.closes ∨ w.nextHandle ∈ w'.autocloseRef.getD [])
    (h : ∀ i < w.nextHandle, (i ∈ w'.closes ∨ i ∈ w'.autocloseRef.getD []) ↔
      (i ∈ w.closes ∨ i ∈ w.autocloseRef.getD [])) : Leaked w' ↔ Leaked w := by
  constructor
  · rintro ⟨i, hi, hlost⟩
    have hlt : i < w.nextHandle := by
      rcases Nat.lt_or_ge i w.nextHandle with hlt | hge
      · exact hlt
      · obtain rfl : i = w.nextHandle := by omega
        exact absurd hnew (not_or.mpr hlost)
    exact ⟨i, hlt, not_or.mp fun hin => not_or.mpr hlost ((h i hlt).mpr hin)⟩
  · rintro ⟨i, hi, hlost⟩
    exact ⟨i, by omega, not_or.mp fun hin => not_or.mpr hlost ((h i hi).mp hin)⟩

/-- A failure returns no socket. -/
theorem sockets_extra {env : Env} {skt : Nat} {entries : Entries} {calls : List ZmqCall} {e : Nat}
    {extra : List Val}
    (hf : follow env.fails [.socket] (socketPlan env skt entries).steps = (calls, some (e, extra))) :
    sockets extra = [] := by
  have haddress : ∀ v a, sockets [listAddress v a] = [] := by
    intro v a
    cases v with
    | none => rfl
    | some v =>
      cases v with
      | list l => rfl
      | _ => rfl
  rcases follow_cases env.fails (socketPlan env skt entries).steps [.socket] with
    ⟨k, s, e', hk, -, -, hrun⟩ | ⟨-, hrun⟩
  · rw [hf] at hrun
    obtain rfl : extra = s.extra := by
      cases congrArg Prod.snd hrun
      rfl
    rw [socketPlan_extra (List.mem_of_getElem? hk)]
    cases s.call with
    | socket => rfl
    | setsockopt skt name v => rfl
    | bind skt a => exact haddress _ a
    | connect skt a => exact haddress _ a
  · rw [hf] at hrun
    cases congrArg Prod.snd hrun

section Calls

variable {p : Prog} (hp : p.Inv)
include hp

theorem Prog.Inv.lt {n i : Nat} (hi : p.held[n]? = some i) : i < p.world.objs.length :=
  hp.world.auto i (hp.held i (List.mem_of_getElem? hi))

/-- The object of a constructor that goes on to its failure. -/
theorem Prog.Inv.dropped : (p.world.newSocket.dropped p.world.objs.length p.world.nextHandle).Inv := by
  have hfresh := hp.world.fresh
  have hobject : p.world.newSocket.object p.world.objs.length =
      ⟨p.world.nextHandle, false, false, true, .noref⟩ := by
    rw [hp.world.handles] at hfresh ⊢
    simp [World.object, World.newSocket, hfresh]
  have hlt : p.world.objs.length < p.world.newSocket.objs.length := by simp [World.newSocket]
  rw [World.dropped, ← hobject]
  apply hp.world.newSocket.closedAt hlt
  rwa [hp.world.handles] at hfresh

/-- `close` loses nothing: the socket it closes is registered. -/
theorem Prog.Inv.close (n : Nat) :
    ∃ p', p.call (.close n) = some p' ∧ p'.Inv ∧ (Leaked p'.world ↔ Leaked p.world) := by
  cases hn : p.held[n]? with
  | none => exact ⟨p, by simp [Prog.call, Prog.method, hn], hp, Iff.rfl⟩
  | some i =>
    obtain ⟨w', hrun, hw', hnext, hauto, hcloses⟩ := luazmqSktClose_inv hp.world (hp.lt hn)
    refine ⟨{ p with world := w' }, by simp [Prog.call, Prog.method, hn, hrun], ⟨hw', ?_⟩, ?_⟩
    · intro j hj
      rw [hauto]
      exact hp.held j hj
    · have hin := hp.held i (List.mem_of_getElem? hn)
      refine leaked_congr hnext fun j _ => ?_
      rw [hauto, hcloses]
      constructor
      · rintro ((rfl | hj) | hj)
        · exact Or.inr hin
        · exact Or.inl hj
        · exact Or.inr hj
      · exact fun hj => hj.imp_left Or.inr

/-- Nor does `autoclose`, whose socket is in the set already. -/
theorem Prog.Inv.autoclose (n : Nat) :
    ∃ p', p.call (.autoclose n) = some p' ∧ p'.Inv ∧ (Leaked p'.world ↔ Leaked p.world) := by
  cases hn : p.held[n]? with
  | none => exact ⟨p, by simp [Prog.call, Prog.method, hn], hp, Iff.rfl⟩
  | some i =>
    obtain ⟨w', hrun, hw', hnext, hcloses, hauto⟩ :=
      luazmqCtxAutoclose_inv hp.world (hp.held i (List.mem_of_getElem? hn))
    refine ⟨{ p with world := w' }, ?_, ⟨hw', fun j hj => (hauto j).mpr (hp.held j hj)⟩, ?_⟩
    · rcases hrun with hrun | hrun
      · simp [Prog.call, Prog.method, hn, hrun]
      · simp [Prog.call, Prog.method, hn, hrun]
    · exact leaked_congr hnext fun j _ => by rw [hcloses, hauto]

/-- A constructor that raised an error over its new handle has lost it, -/
theorem Prog.Inv.raised : Prog.Inv { p with world := p.world.newSocket } ∧ Leaked p.world.newSocket :=
  ⟨⟨hp.world.newSocket, hp.held⟩, p.world.nextHandle, Nat.lt_succ_self _, hp.world.fresh, hp.world.fresh_auto⟩

/-- one that failed has closed it, -/
theorem Prog.Inv.failed :
    Prog.Inv { p with world := p.world.newSocket.dropped p.world.objs.length p.world.nextHandle } ∧
      (Leaked (p.world.newSocket.dropped p.world.objs.length p.world.nextHandle) ↔ Leaked p.world) := by
  refine ⟨⟨hp.dropped, hp.held⟩, leaked_new rfl (Or.inl List.mem_cons_self) fun i hi => ?_⟩
  show (i ∈ p.world.nextHandle :: p.world.closes ∨ _) ↔ _
  rw [List.mem_cons, or_iff_right (Nat.ne_of_lt hi)]
  rfl

/-- and one that is done has registered it. -/
theorem Prog.Inv.done :
    Prog.Inv ⟨p.world.newSocket.registered p.world.objs.length, p.held ++ [p.world.objs.length]⟩ ∧
      (Leaked (p.world.newSocket.registered p.world.objs.length) ↔ Leaked p.world) := by
  have hauto : ∀ i, i ∈ (p.world.newSocket.registered p.world.objs.length).autocloseRef.getD [] ↔
      i = p.world.nextHandle ∨ i ∈ p.world.autocloseRef.getD [] := by
    intro i
    rw [hp.world.handles]
    exact List.mem_insert_iff
  refine ⟨⟨hp.world.newSocket.registered (by simp [World.newSocket]), fun i hi => (hauto i).mpr ?_⟩,
    leaked_new rfl (Or.inr ((hauto _).mpr (Or.inl rfl))) fun i hi => ?_⟩
  · rcases List.mem_append.mp hi with hi | hi
    · exact Or.inr (hp.held i hi)
    · exact Or.inl ((List.mem_singleton.mp hi).trans hp.world.handles.symm)
  · rw [hauto, or_iff_right (Nat.ne_of_lt hi)]
    rfl

/-- A constructor loses a socket exactly when it raises an error over an open handle. -/
theorem Prog.Inv.socket (env : Env) (args : List Val) : ∃ p', p.call (.socket env args) = some p' ∧ p'.Inv ∧
    (Leaked p'.world ↔ Leaked p.world ∨ Call.leaks (.socket env args) = true) := by
  rcases ctxSocket_inv hp.world env args with ⟨hrefused, f, hf, hrun⟩ | ⟨hopens, hrun⟩
  · have hcall : p.call (.socket env args) = some p := by
      rcases hrun with hrun | ⟨e, hrun⟩
      · simp [Prog.call, hrun, hf]
      · simp [Prog.call, hrun, hf, sockets]
    exact ⟨p, hcall, hp, by simp [Call.leaks, hrefused]⟩
  · have hfollow := follow_none_iff env p.world.nextHandle (optEntries args)
    have hraises := socketPlan_raises env p.world.nextHandle (optEntries args)
    rw [Prog.call]
    revert hrun
    generalize ctxSocket env p.world args = r
    intro hrun
    -- one case for each way in which the configuration ends
    cases hrun with
    | raised f hf hr hw =>
      have hleaks : Call.leaks (.socket env args) = true := by
        rw [hr] at hraises
        rw [hf] at hfollow
        simp [Call.leaks, hopens, hfollow.mp rfl, hraises]
      obtain ⟨hinv, hlost⟩ := hp.raised
      rw [← hw] at hinv hlost
      exact ⟨_, rfl, hinv, fun _ => Or.inr hleaks, fun _ => hlost⟩
    | failed f e extra hf hw =>
      have hkeeps : Call.leaks (.socket env args) = false := by
        rw [hf] at hfollow
        simp [Call.leaks, Bool.eq_false_iff.mpr fun h => absurd (hfollow.mpr h) nofun]
      obtain ⟨hinv, hleaked⟩ := hp.failed
      rw [← hw] at hinv hleaked
      refine ⟨⟨f.world, p.held⟩, ?_, hinv, by rw [hkeeps, hleaked]; simp⟩
      show some (Prog.mk f.world (p.held ++ sockets extra)) = _
      rw [sockets_extra hf, List.append_nil]
    | done f hf hr hw =>
      have hkeeps : Call.leaks (.socket env args) = false := by
        rw [Call.leaks, ← hraises, hr, Bool.and_false, Bool.false_and]
      obtain ⟨hinv, hleaked⟩ := hp.done
      rw [← hw] at hinv hleaked
      exact ⟨⟨f.world, p.held ++ [p.world.objs.length]⟩, rfl, hinv, by rw [hkeeps, hleaked]; simp⟩

/-- **One call**: the invariant holds on, and a socket is lost when one was, or when this call loses it. -/
theorem Prog.Inv.call (c : Call) : ∃ p', p.call c = some p' ∧ p'.Inv ∧
    (Leaked p'.world ↔ Leaked p.world ∨ c.leaks = true) := by
  cases c with
  | socket env args => exact hp.socket env args
  | close n =>
    obtain ⟨p', hcall, hinv, hleaked⟩ := hp.close n
    exact ⟨p', hcall, hinv, by simp [hleaked, Call.leaks]⟩
  | autoclose n =>
    obtain ⟨p', hcall, hinv, hleaked⟩ := hp.autoclose n
    exact ⟨p', hcall, hinv, by simp [hleaked, Call.leaks]⟩

end Calls

/-! ## Runs -/

/-- **Every run** goes through, and loses a socket exactly when one of its calls does. -/
theorem run_leaked (calls : List Call) : ∀ {p : Prog}, p.Inv →
    ∃ p', Steps.run Prog.call p calls = some p' ∧ p'.Inv ∧
      (Leaked p'.world ↔ Leaked p.world ∨ ∃ c ∈ calls, c.leaks = true) := by
  induction calls with
  | nil => exact fun {p} hp => ⟨p, rfl, hp, by simp⟩
  | cons c calls ih =>
    intro p hp
    obtain ⟨m, hm, hminv, hmleaked⟩ := hp.call c
    obtain ⟨p', hp', hinv, hleaked⟩ := ih hminv
    refine ⟨p', by rw [Steps.run_cons_some Prog.call calls hm, hp'], hinv, ?_⟩
    rw [hleaked, hmleaked, List.exists_mem_cons_iff, or_assoc]

/-- The sockets of a list, closed one after the other. -/
theorem closeEach (order : List Nat) : ∀ {w : World}, w.Inv → (∀ i ∈ order, i < w.objs.length) →
    ∃ w', forM order callSocketDestroy w = .ret () w' ∧ w'.nextHandle = w.nextHandle ∧ w'.Inv ∧
      ∀ h, h ∈ w'.closes ↔ h ∈ order ∨ h ∈ w.closes := by
  induction order with
  | nil => exact fun {w} hw _ => ⟨w, rfl, rfl, hw, by simp⟩
  | cons i order ih =>
    intro w hw hlt
    obtain ⟨m, hm, hminv, hnext, -, hmcloses⟩ := luazmqSktClose_inv hw (hlt i List.mem_cons_self)
    have hlen : m.objs.length = w.objs.length := by rw [← hminv.handles, hnext, hw.handles]
    obtain ⟨w', hw', hnext', hinv, hcloses⟩ := ih hminv fun j hj => by
      rw [hlen]
      exact hlt j (List.mem_cons_of_mem i hj)
    refine ⟨w', ?_, hnext'.trans hnext, hinv, fun h => ?_⟩
    · simp [callSocketDestroy, Lua.run_pcall_ret hm, hw']
    · rw [hcloses, hmcloses, List.mem_cons]
      tauto

/-- **What `zmq_ctx_term` finds**: it blocks for the sockets that have been lost, and for no other. -/
theorem luazmqCtxDestroy_inv {w : World} (hw : w.Inv) {order : List Nat}
    (horder : order.Perm (w.autocloseRef.getD [])) :
    ∃ w', luazmqCtxDestroy order w = .ret true w' ∧ w'.nextHandle = w.nextHandle ∧
      ((∀ h < w'.nextHandle, h ∈ w'.closes) ↔ ¬ Leaked w) := by
  obtain ⟨w', hrun, hnext, -, hcloses⟩ := closeEach order hw fun i hi => hw.auto i (horder.mem_iff.mp hi)
  have hleaked : (∀ h < w.nextHandle, h ∈ order ∨ h ∈ w.closes) ↔ ¬ Leaked w := by
    rw [Leaked]
    push Not
    refine forall₂_congr fun h _ => ?_
    rw [horder.mem_iff]
    tauto
  cases href : w.autocloseRef with
  | none =>
    have hnil : order = [] := by
      rw [href] at horder
      exact horder.eq_nil
    subst hnil
    refine ⟨w, by simp [luazmqCtxDestroy, luazmqCtxCloseSockets, hw.opened, href], rfl, ?_⟩
    rw [← hleaked]
    simp
  | some auto =>
    refine ⟨{ w' with autocloseRef := none }, ?_, hnext, ?_⟩
    · simp [luazmqCtxDestroy, luazmqCtxCloseSockets, hw.opened, href, hrun]
    · rw [← hleaked, ← hnext]
      exact forall₂_congr fun h _ => hcloses h

/-- **No socket is open** when the context is terminated, exactly when no constructor has raised an error
    over an open handle. -/
theorem destroy_closes_iff (calls : List Call) : ∃ p, Steps.run Prog.call .init calls = some p ∧
    ∀ order : List Nat, order.Perm (p.world.autocloseRef.getD []) →
      ∃ w, luazmqCtxDestroy order p.world = .ret true w ∧ w.nextHandle = p.world.nextHandle ∧
        ((∀ h < w.nextHandle, h ∈ w.closes) ↔ ∀ c ∈ calls, c.leaks = false) := by
  obtain ⟨p, hrun, hinv, hleaked⟩ := run_leaked calls Prog.inv_init
  refine ⟨p, hrun, fun order horder => ?_⟩
  obtain ⟨w, hw, hnext, hcloses⟩ := luazmqCtxDestroy_inv hinv.world horder
  refine ⟨w, hw, hnext, ?_⟩
  have hinit : ¬ Leaked Prog.init.world := fun ⟨h, hlt, _⟩ => absurd hlt (Nat.not_lt_zero h)
  rw [hcloses, hleaked]
  simp [hinit]

/-- The world after `ctx:socket("REP", {linger = true})`: the setter of an integer option raises. -/
def lostWorld : World := ⟨[⟨0, false, false, true, .noref⟩], false, 1, none, 1, []⟩

/-- A handle that is still open when the context is terminated. -/
theorem not_destroy_closes :
    Steps.run Prog.call .init
        [.socket (failingAt 2 98) [.ctx, .lua (.str "REP"), .table [(.str "linger", .bool true)]]] =
      some ⟨lostWorld, []⟩ ∧
    luazmqCtxDestroy [] lostWorld = .ret true lostWorld ∧
    ¬ ∀ h < lostWorld.nextHandle, h ∈ lostWorld.closes :=
  ⟨by decide +kernel, rfl, by decide⟩

end Lzmq.CContext
