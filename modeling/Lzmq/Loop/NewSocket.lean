/-
  New sockets of a loop: `add_new_socket` and the four functions built on it (`impl/loop.lua`), in the C
  binding.

  A new socket goes through three places that can fail: the constructor of the context, which returns nil or
  raises; `add_socket`, which asserts that it has a callback; and the poller, which asks for a number as the
  mask.  `add_new_socket` closes the socket when `add_socket` returns nil.  But `add_socket` never does: it
  returns the socket or raises, and an error goes past the close.  So a failure is clean iff it is a failed
  call of libzmq (or there is no handle yet), and dirty iff it is a wrong value (`addNew_atomic_iff`).
-/
import Lzmq.Loop.Ownership
import Lzmq.CContext.Count

namespace Lzmq.Loop

open Lzmq.CPoller (Outcome PollKey)
open Lzmq.CContext (World Env OptVal Val Counted Constructed configCalls ctxSocket optEntries opensHandle wellTyped)

variable {F : Type}

/-! ## The code -/

/-- A Lua value that is passed to `add_socket`. -/
inductive Arg (F : Type)
  | nil
  | fn (f : F)
  | val (v : OptVal)
deriving DecidableEq, Repr

/-- What `if` takes for true. -/
def Arg.truthy : Arg F → Bool
  | .nil => false
  | .val (.bool b) => b
  | _ => true

/-- `type(x) == 'number'` -/
def Arg.isNumber : Arg F → Bool
  | .val (.num _) => true
  | _ => false

/-- `luaL_checkinteger` -/
def Arg.checkInteger (env : Env) : Arg F → Option Int
  | .val v =>
    match CContext.checkNumber env v with
    | some (.num n) => some n
    | _ => none
  | _ => none

/-- A loop with its context: `private_.context`, and the owner's `private_.poller` and `private_.sockets`.
The callbacks are any values but nil. -/
structure ZmqLoop (F : Type) where
  context : World
  owner : Owner (LuaPoller (Arg F)) PollKey

namespace ZmqLoop

variable (env : Env)

/-- `poller:add(skt, events, function … end)`: the closure is not nil; the C method checks the mask before
the socket. -/
def pollerAdd (i : Nat) (events cb : Arg F) : Lua (ZmqLoop F) PollKey := fun s =>
  match events.checkInteger env with
  | none => .raise s
  | some n =>
    match s.context.objs[i]? with
    | none => .raise s
    | some z =>
      if z.closed then .raise s -- luazmq_getsocket_at
      else
        match s.owner.poller.add (.socket z.skt) n cb with
        | .ret p => .ret (.socket z.skt) { s with owner := { s.owner with poller := p } }
        | .raise p => .raise { s with owner := { s.owner with poller := p } }
        | .crash _ => .abort

/-- `private_.sockets[skt] = true` -/
def remember (skt : PollKey) : Lua (ZmqLoop F) Unit :=
  Lua.modify fun s => { s with owner := { s.owner with sockets := s.owner.sockets.insert skt } }

/-- `zmq_loop:add_socket`; the result is the socket, never nil. -/
def addSocket (i : Nat) (fnOrFlags fn : Arg F) : Lua (ZmqLoop F) (Option Nat) := do
  let (fn, fnOrFlags) ←
    match fn with
    | .nil =>
      if fnOrFlags.truthy && !fnOrFlags.isNumber then pure (fnOrFlags, .nil)
      else Lua.raise -- function expected
    | fn => pure (fn, fnOrFlags)
  let zmqFlag := if fnOrFlags.truthy then fnOrFlags else .val (.num pollin)
  let skt ← pollerAdd env i zmqFlag fn
  remember skt
  pure (some i)

/-- `zmq_loop:create_socket`: a socket, or nil and the error. -/
def createSocket (opt : Val) : Lua (ZmqLoop F) (Except Val Nat) := fun s =>
  match ctxSocket env s.context [.ctx, opt] with
  | .abort => .abort
  | .raise f => .raise { s with context := f.world }
  | .ret results f =>
    match results with
    | .skt i :: _ => .ret (.ok i) { s with context := f.world }
    | .nil :: err :: _ => .ret (.error err) { s with context := f.world }
    | skt :: _ => .ret (.error skt) { s with context := f.world }
    | [] => .ret (.error .nil) { s with context := f.world }

/-- `skt:close()` -/
def closeSocket (i : Nat) : Lua (ZmqLoop F) Unit := fun s =>
  match CContext.luazmqSktClose i s.context with
  | .ret _ w => .ret () { s with context := w }
  | .raise w => .raise { s with context := w }
  | .abort => .abort

/-- `zmq_loop:add_new_socket` -/
def addNewSocket (opt : Val) (fnOrFlags fn : Arg F) : Lua (ZmqLoop F) (Except Val Nat) := do
  match ← createSocket env opt with
  | .error err => pure (.error err)
  | .ok skt =>
    match ← addSocket env skt fnOrFlags fn with
    | none => do
      closeSocket skt
      pure (.error .nil)
    | some skt => pure (.ok skt)

end ZmqLoop

/-- `{sock_type, field = value, …}`; a field with the value nil is not there. -/
def optTable (sockType : Option OptVal) (fields : List (String × Option OptVal)) : Val :=
  .table ((sockType.map fun t => (.num 1, t)).toList ++
    fields.filterMap fun f => f.2.map fun v => (.str f.1, v))

/-- `zmq.SUB` -/
def zmqSub : OptVal := .num 2

/-- The functions that add a new socket, with their arguments before the variable ones. -/
inductive AddNew
  | socket (opt : Val)
  | bind (sockType addr : Option OptVal)
  | connect (sockType addr : Option OptVal)
  | subConnect (addr subs : Option OptVal)
  | subBind (addr subs : Option OptVal)
deriving DecidableEq, Repr

/-- What they call `add_new_socket` with. -/
def AddNew.opt : AddNew → Val
  | .socket opt => opt
  | .bind sockType addr => optTable sockType [("bind", addr)]
  | .connect sockType addr => optTable sockType [("connect", addr)]
  | .subConnect addr subs => optTable (some zmqSub) [("connect", addr), ("subscribe", subs)]
  | .subBind addr subs => optTable (some zmqSub) [("bind", addr), ("subscribe", subs)]

/-- `loop:add_new_socket(…)`, `loop:add_new_bind(…)`, … -/
def AddNew.run (env : Env) (c : AddNew) (fnOrFlags fn : Arg F) : Lua (ZmqLoop F) (Except Val Nat) :=
  ZmqLoop.addNewSocket env c.opt fnOrFlags fn

/-! ## Atomic -/

/-- What a failed call has to leave: no handle that it opened, and the loop as it was. -/
structure Unharmed (before after : ZmqLoop F) : Prop where
  handles : ∀ h, before.context.nextHandle ≤ h → h < after.context.nextHandle → h ∈ after.context.closes
  sockets : after.owner.sockets = before.owner.sockets
  poller : after.owner.poller = before.owner.poller

/-- A call is atomic when it succeeds, or fails, by a result or an error, and leaves the loop unharmed. -/
def Atomic (before : ZmqLoop F) : Ending (ZmqLoop F) (Except Val Nat) → Prop
  | .ret (.ok _) _ => True
  | .ret (.error _) after => Unharmed before after
  | .raise after => Unharmed before after
  | .abort => False

/-- The arguments that `add_socket` takes: a callback, and a mask that is missing or a number. -/
def addable (env : Env) (fnOrFlags fn : Arg F) : Bool :=
  match fn with
  | .nil => fnOrFlags.truthy && !fnOrFlags.isNumber
  | _ => !fnOrFlags.truthy || (fnOrFlags.checkInteger env).isSome

/-- libzmq fails one of the calls that the option table asks for (up to a value of the wrong type). -/
def SettingFails (env : Env) (opt : Val) : Prop :=
  ∃ k < (configCalls env 0 (optEntries [.ctx, opt])).length, env.fails (1 + k) ≠ none

/-- The condition: once there is a handle, a call of libzmq fails, or all values are right. -/
def AtomicWhen (env : Env) (opt : Val) (fnOrFlags fn : Arg F) (s : ZmqLoop F) : Prop :=
  s.context.closed = false → opensHandle env [.ctx, opt] = true →
    SettingFails env opt ∨
      (wellTyped env (optEntries [.ctx, opt]) = true ∧ addable env fnOrFlags fn = true)

/-- A loop in order: a context whose counter is not negative and whose next handle is new, and a poller with
its callbacks. -/
structure InOrder (s : ZmqLoop F) : Prop where
  count : 0 ≤ s.context.socketCount
  fresh : s.context.nextHandle ∉ s.context.closes
  poller : s.owner.poller.Good

theorem Unharmed.refl (s : ZmqLoop F) : Unharmed s s where
  handles _ hle hlt := absurd hlt (Nat.not_lt.mpr hle)
  sockets := rfl
  poller := rfl

/-! ## `add_socket` -/

section AddSocket

variable {env : Env} {s : ZmqLoop F}

theorem pollerAdd_raises {i : Nat} {events cb : Arg F} (h : events.checkInteger env = none) :
    ZmqLoop.pollerAdd env i events cb s = .raise s := by
  rw [ZmqLoop.pollerAdd, h]

theorem pollerAdd_open (hgood : s.owner.poller.Good) {i : Nat} {z : CContext.ZSocket}
    (hz : s.context.objs[i]? = some z) (hopen : z.closed = false) {events : Arg F} (cb : Arg F) {n : Int}
    (h : events.checkInteger env = some n) :
    ∃ p, s.owner.poller.add (.socket z.skt) n cb = .ret p ∧ ZmqLoop.pollerAdd env i events cb s =
      .ret (.socket z.skt) { s with owner := { s.owner with poller := p } } := by
  obtain ⟨p, hp, -, -⟩ := LuaPoller.add_spec hgood (.socket z.skt) n cb
  refine ⟨p, hp, ?_⟩
  rw [ZmqLoop.pollerAdd, h]
  simp only [hz, hopen, hp, Bool.false_eq_true, if_false]

theorem checkInteger_pollin : (Arg.val (.num pollin) : Arg F).checkInteger env = some pollin := rfl

/-- `add_socket` with a callback. -/
theorem addSocket_fn {i : Nat} {fnOrFlags fn : Arg F} (hfn : fn ≠ .nil) :
    ZmqLoop.addSocket env i fnOrFlags fn s =
      Lua.andThen (ZmqLoop.pollerAdd env i (if fnOrFlags.truthy then fnOrFlags else .val (.num pollin)) fn s)
        fun skt => ZmqLoop.remember skt >>= fun _ => pure (some i) := by
  cases fn with
  | nil => exact absurd rfl hfn
  | fn f => rfl
  | val v => rfl

theorem addSocket_nil {i : Nat} {fnOrFlags : Arg F} :
    ZmqLoop.addSocket env i fnOrFlags .nil s =
      if fnOrFlags.truthy && !fnOrFlags.isNumber then ZmqLoop.addSocket env i .nil fnOrFlags s
      else .raise s := by
  by_cases h : (fnOrFlags.truthy && !fnOrFlags.isNumber) = true
  · have hne : fnOrFlags ≠ .nil := by
      rintro rfl
      cases h
    rw [if_pos h, addSocket_fn hne, ZmqLoop.addSocket]
    simp only [h, if_true]
    rfl
  · rw [if_neg h, ZmqLoop.addSocket]
    simp only [h]
    rfl

/-- **`add_socket`** of an open socket registers it, or raises before anything has changed. -/
theorem addSocket_spec (env : Env) (hgood : s.owner.poller.Good) {i : Nat} {z : CContext.ZSocket}
    (hz : s.context.objs[i]? = some z) (hopen : z.closed = false) (fnOrFlags fn : Arg F) :
    (addable env fnOrFlags fn = true ∧ ∃ s', ZmqLoop.addSocket env i fnOrFlags fn s = .ret (some i) s') ∨
      (addable env fnOrFlags fn = false ∧ ZmqLoop.addSocket env i fnOrFlags fn s = .raise s) := by
  have hadd : ∀ flags cb : Arg F, cb ≠ .nil → (flags.truthy = false ∨ ∃ n, flags.checkInteger env = some n) →
      ∃ s', ZmqLoop.addSocket env i flags cb s = .ret (some i) s' := by
    intro flags cb hcb hflags
    obtain ⟨n, hn⟩ : ∃ n, (if flags.truthy then flags else .val (.num pollin)).checkInteger env = some n := by
      by_cases ht : flags.truthy = true
      · rcases hflags with hf | hn
        · rw [hf] at ht
          cases ht
        · rw [if_pos ht]
          exact hn
      · rw [if_neg ht]
        exact ⟨pollin, checkInteger_pollin⟩
    obtain ⟨p, -, hp⟩ := pollerAdd_open hgood hz hopen cb hn
    rw [addSocket_fn hcb, hp]
    exact ⟨_, rfl⟩
  by_cases hfn : fn = .nil
  · rw [hfn, addSocket_nil]
    by_cases h : (fnOrFlags.truthy && !fnOrFlags.isNumber) = true
    · rw [if_pos h]
      refine Or.inl ⟨h, hadd .nil fnOrFlags ?_ (Or.inl rfl)⟩
      rintro rfl
      cases h
    · rw [if_neg h]
      exact Or.inr ⟨Bool.eq_false_iff.mpr h, rfl⟩
  · have haddable : addable env fnOrFlags fn = (!fnOrFlags.truthy || (fnOrFlags.checkInteger env).isSome) := by
      cases fn with
      | nil => exact absurd rfl hfn
      | fn f => rfl
      | val v => rfl
    rw [haddable]
    by_cases ht : fnOrFlags.truthy = true
    · cases hn : fnOrFlags.checkInteger env with
      | none =>
        refine Or.inr ⟨by rw [ht]; rfl, ?_⟩
        rw [addSocket_fn hfn, if_pos ht, pollerAdd_raises hn]
        rfl
      | some n => exact Or.inl ⟨Bool.or_true _, hadd fnOrFlags fn hfn (Or.inr ⟨n, hn⟩)⟩
    · have hf := Bool.eq_false_iff.mpr ht
      exact Or.inl ⟨by rw [hf]; rfl, hadd fnOrFlags fn hfn (Or.inl hf)⟩

/-- The second argument of `add_socket`, among all values. -/
def FnOrFlags.arg : FnOrFlags F → Arg F
  | .nil => .nil
  | .flags n => .val (.num n)
  | .fn f => .fn f

def FnOrFlags.callback : FnOrFlags F → FnOrFlags (Arg F)
  | .nil => .nil
  | .flags n => .flags n
  | .fn f => .fn (.fn f)

def optArg : Option F → Arg F
  | none => .nil
  | some f => .fn f

/-- On functions and numbers `add_socket` is the one that runs of calls are analysed with, which does not tell
an error from a return. -/
theorem addSocket_owner (env : Env) (hgood : s.owner.poller.Good) {i : Nat} {z : CContext.ZSocket}
    (hz : s.context.objs[i]? = some z) (hopen : z.closed = false) (fnOrFlags : FnOrFlags F) (fn : Option F) :
    ∃ s', Lua.after (ZmqLoop.addSocket env i fnOrFlags.arg (optArg fn)) s = some s' ∧
      s.owner.addSocket LuaPoller.api (.socket z.skt) fnOrFlags.callback (fn.map .fn) = some s'.owner := by
  have hraise : ∀ x : Lua (ZmqLoop F) (Option Nat), x s = .raise s →
      ∃ s', Lua.after x s = some s' ∧ some s.owner = some s'.owner :=
    fun x hx => ⟨s, Lua.after_of (Or.inr hx), rfl⟩
  have hadd : ∀ (flags : Arg F) (f : F) (n : Int),
      (if flags.truthy then flags else .val (.num pollin)).checkInteger env = some n →
      ∃ s', Lua.after (ZmqLoop.addSocket env i flags (.fn f)) s = some s' ∧
        s.owner.register LuaPoller.api (.socket z.skt) n (.fn f) = some s'.owner := by
    intro flags f n hn
    obtain ⟨p, hp, hpoller⟩ := pollerAdd_open hgood hz hopen (.fn f) hn
    refine ⟨{ s with owner := ⟨p, s.owner.sockets.insert (.socket z.skt)⟩ },
      Lua.after_of (Or.inl ⟨some i, ?_⟩), ?_⟩
    · rw [addSocket_fn (by simp), hpoller]
      rfl
    · rw [Owner.register]
      show ((s.owner.poller.add (.socket z.skt) n (.fn f)).returned).map _ = _
      rw [hp]
      rfl
  cases fn with
  | none =>
    cases fnOrFlags with
    | nil => exact hraise _ addSocket_nil
    | flags n => exact hraise _ addSocket_nil
    | fn f =>
      obtain ⟨s', hs', hreg⟩ := hadd .nil f pollin rfl
      refine ⟨s', ?_, hreg⟩
      rw [Lua.after] at hs' ⊢
      exact Eq.trans (by rw [FnOrFlags.arg, optArg, addSocket_nil]; rfl) hs'
  | some f =>
    cases fnOrFlags with
    | nil => exact hadd .nil f pollin rfl
    | flags n => exact hadd (.val (.num n)) f n rfl
    | fn g =>
      refine hraise _ ?_
      show ZmqLoop.addSocket env i (.fn g) (.fn f) s = .raise s
      rw [addSocket_fn (by simp)]
      rfl

end AddSocket

/-! ## `add_new_socket` -/

section AddNewSocket

variable {env : Env} {s : ZmqLoop F} {opt : Val}

/-- A closed context opens nothing. -/
theorem ctxSocket_closed {w : World} (args : List Val) (hclosed : w.closed = true) :
    ctxSocket env w args = .raise ⟨args.reverse, w, ⟨[], false⟩, 0⟩ := by
  simp [ctxSocket, CContext.luazmqCtxSocket, CContext.luazmqGetcontext, hclosed]

/-- A failed setting, as the constructor meets it. -/
theorem settingFails_iff (skt : Nat) :
    SettingFails env opt ↔
      (CContext.follow env.fails [.socket]
        (CContext.socketPlan env skt (optEntries [.ctx, opt])).steps).2 ≠ none := by
  have hlen : (configCalls env 0 (optEntries [.ctx, opt])).length =
      (CContext.socketPlan env skt (optEntries [.ctx, opt])).steps.length := by
    rw [configCalls, List.length_map]
    exact (CContext.socketPlan_alike 0 skt _).1
  rw [SettingFails, hlen]
  rcases CContext.follow_cases env.fails (CContext.socketPlan env skt (optEntries [.ctx, opt])).steps
    [.socket] with ⟨k, st, e, hk, he, -, hrun⟩ | ⟨hall, hrun⟩
  · rw [hrun]
    obtain ⟨hlt, -⟩ := List.getElem?_eq_some_iff.mp hk
    exact iff_of_true ⟨k, hlt, fun hnone => by rw [List.length_singleton, hnone] at he; cases he⟩
      (fun hnone => by cases hnone)
  · rw [hrun]
    refine iff_of_false ?_ (fun hne => hne rfl)
    rintro ⟨k, hlt, hne⟩
    exact hne (hall k hlt)

/-- No handle, no harm. -/
theorem addNewSocket_refused (h : s.context.closed = false → opensHandle env [.ctx, opt] = false)
    (fnOrFlags fn : Arg F) : Atomic s (ZmqLoop.addNewSocket env opt fnOrFlags fn s) := by
  have hcreate : ZmqLoop.createSocket env opt s = .raise s ∨
      ∃ err, ZmqLoop.createSocket env opt s = .ret (.error err) s := by
    cases hclosed : s.context.closed with
    | true =>
      rw [ZmqLoop.createSocket, ctxSocket_closed _ hclosed]
      exact Or.inl rfl
    | false =>
      obtain ⟨f, hf, hraise | ⟨e, hret⟩⟩ := CContext.ctxSocket_refused hclosed (h hclosed)
      · rw [ZmqLoop.createSocket, hraise]
        exact Or.inl (congrArg (fun w => Ending.raise { s with context := w }) hf)
      · rw [ZmqLoop.createSocket, hret]
        refine Or.inr ⟨.err e, ?_⟩
        show Ending.ret (Except.error (Val.err e)) { s with context := f.world } = _
        rw [hf]
  rw [ZmqLoop.addNewSocket, Lua.run_bind]
  rcases hcreate with hcreate | ⟨err, hcreate⟩
  · rw [hcreate]
    exact Unharmed.refl s
  · rw [hcreate]
    exact Unharmed.refl s

/-- The loop with the world that a constructor has left. -/
def ZmqLoop.inWorld (s : ZmqLoop F) (w : World) : ZmqLoop F := { s with context := w }

/-- A handle that is open in the end is harm. -/
theorem not_unharmed_of_open {w : World} (hnext : s.context.nextHandle < w.nextHandle)
    (hopen : s.context.nextHandle ∉ w.closes) : ¬ Unharmed s (s.inWorld w) :=
  fun h => hopen (h.handles _ (Nat.le_refl _) hnext)

/-- **A call that opens a handle** is atomic iff a setting fails, or all values are right. -/
theorem addNewSocket_opens (hs : InOrder s) (hclosed : s.context.closed = false)
    (hopens : opensHandle env [.ctx, opt] = true) (fnOrFlags fn : Arg F) :
    Atomic s (ZmqLoop.addNewSocket env opt fnOrFlags fn s) ↔
      (SettingFails env opt ∨
        (wellTyped env (optEntries [.ctx, opt]) = true ∧ addable env fnOrFlags fn = true)) := by
  obtain ⟨hself, htype, hsocket⟩ := CContext.opensHandle_iff.mp hopens
  have hrun := CContext.ctxSocket_constructed hclosed hs.count hs.fresh hself htype hsocket
  have hlive := CContext.live_newSocket hs.count hs.fresh
  have htyped := CContext.socketPlan_raises env s.context.nextHandle (optEntries [.ctx, opt])
  rw [settingFails_iff s.context.nextHandle, ZmqLoop.addNewSocket, Lua.run_bind, ZmqLoop.createSocket]
  generalize ctxSocket env s.context [.ctx, opt] = r at hrun ⊢
  cases hrun with
  | raised f hf hr hw =>
    -- a value of the wrong type: the error leaves the handle behind
    rw [hr] at htyped
    have hwrong : wellTyped env (optEntries [.ctx, opt]) = false := by simpa using htyped
    refine iff_of_false ?_ ?_
    · show ¬ Unharmed s (s.inWorld f.world)
      rw [hw]
      exact not_unharmed_of_open (Nat.lt_succ_self _) hs.fresh
    · rw [hf, hwrong]
      rintro (hne | ⟨h, -⟩)
      · exact hne rfl
      · cases h
  | failed f e extra hf hw =>
    refine iff_of_true ?_ (Or.inl (by rw [hf]; exact fun h => by cases h))
    show Unharmed s (s.inWorld f.world)
    rw [hw]
    refine ⟨fun h hle hlt => ?_, rfl, rfl⟩
    have heq : h = s.context.nextHandle := Nat.le_antisymm (Nat.lt_succ_iff.mp hlt) hle
    rw [heq]
    exact List.mem_cons_self
  | done f hf hr hw =>
    rw [hr] at htyped
    have hright : wellTyped env (optEntries [.ctx, opt]) = true := by simpa using htyped
    have hobj : (s.inWorld f.world).context.objs[s.context.objs.length]? =
        some ⟨s.context.nextHandle, false, false, true, .noref⟩ := by
      show f.world.objs[s.context.objs.length]? = _
      rw [hw]
      exact hlive.obj
    rw [hf, hright]
    have hpoller : (s.inWorld f.world).owner.poller.Good := hs.poller
    rcases addSocket_spec env hpoller hobj rfl fnOrFlags fn with
      ⟨hadd, s', hret⟩ | ⟨hadd, hraise⟩
    · refine iff_of_true ?_ (Or.inr ⟨rfl, hadd⟩)
      show Atomic s (Lua.andThen (ZmqLoop.addSocket env _ fnOrFlags fn (s.inWorld f.world)) _)
      rw [hret]
      trivial
    · -- `add_socket` raises: the close behind it is not reached
      refine iff_of_false ?_ ?_
      · show ¬ Atomic s (Lua.andThen (ZmqLoop.addSocket env _ fnOrFlags fn (s.inWorld f.world)) _)
        rw [hraise]
        show ¬ Unharmed s (s.inWorld f.world)
        rw [hw]
        exact not_unharmed_of_open (Nat.lt_succ_self _) hs.fresh
      · rw [hadd]
        rintro (hne | ⟨-, h⟩)
        · exact hne rfl
        · cases h

end AddNewSocket

/-- **Adding a new socket is atomic**, in every loop that is in order, iff libzmq stops it or all its values are
right. -/
theorem addNew_atomic_iff {s : ZmqLoop F} (hs : InOrder s) (env : Env) (c : AddNew) (fnOrFlags fn : Arg F) :
    Atomic s (c.run env fnOrFlags fn s) ↔ AtomicWhen env c.opt fnOrFlags fn s := by
  rw [AddNew.run]
  by_cases hopens : s.context.closed = false ∧ opensHandle env [.ctx, c.opt] = true
  · rw [addNewSocket_opens hs hopens.1 hopens.2, AtomicWhen]
    exact ⟨fun h _ _ => h, fun h => h hopens.1 hopens.2⟩
  · refine iff_of_true (addNewSocket_refused (fun hclosed => ?_) fnOrFlags fn)
      fun hclosed hopen => absurd ⟨hclosed, hopen⟩ hopens
    exact Bool.eq_false_iff.mpr fun hopen => hopens ⟨hclosed, hopen⟩

/-- A loop with a new context and a new poller. -/
def ZmqLoop.new (n : Nat) : ZmqLoop F := ⟨World.init, cInit n⟩

theorem inOrder_new (n : Nat) : InOrder (ZmqLoop.new n : ZmqLoop F) where
  count := Int.le_refl 0
  fresh := List.not_mem_nil
  poller := LuaPoller.good_new n

/-- What stays true of a loop through all calls; with it a loop is in order. -/
structure Kept (s : ZmqLoop F) : Prop where
  context : Counted s.context
  poller : s.owner.poller.Good

theorem Kept.inOrder {s : ZmqLoop F} (h : Kept s) : InOrder s where
  count := h.context.count.nonneg
  fresh := h.context.fresh
  poller := h.poller

theorem kept_new (n : Nat) : Kept (ZmqLoop.new n : ZmqLoop F) :=
  ⟨CContext.counted_init, LuaPoller.good_new n⟩

theorem createSocket_kept {env : Env} {s : ZmqLoop F} (hs : Kept s) (opt : Val) :
    Lua.Leaves Kept (ZmqLoop.createSocket env opt s) := by
  obtain ⟨w, hw, hcounted⟩ := hs.context.socket env [.ctx, opt]
  rw [World.use] at hw
  rw [ZmqLoop.createSocket]
  cases hrun : ctxSocket env s.context [.ctx, opt] with
  | abort => trivial
  | raise f =>
    rw [hrun] at hw
    cases hw
    exact ⟨hcounted, hs.poller⟩
  | ret results f =>
    rw [hrun] at hw
    cases hw
    have hkept : Kept { s with context := f.world } := ⟨hcounted, hs.poller⟩
    dsimp only
    split
    · exact hkept
    · exact hkept
    · exact hkept
    · exact hkept

theorem pollerAdd_kept {env : Env} {s : ZmqLoop F} (hs : Kept s) (i : Nat) (events cb : Arg F) :
    Lua.Leaves Kept (ZmqLoop.pollerAdd env i events cb s) := by
  cases hn : events.checkInteger env with
  | none =>
    rw [pollerAdd_raises hn]
    exact hs
  | some n =>
    rw [ZmqLoop.pollerAdd, hn]
    cases hz : s.context.objs[i]? with
    | none => exact hs
    | some z =>
      by_cases hclosed : z.closed = true
      · simp only [hclosed, if_true]
        exact hs
      · obtain ⟨p, hp, hgood, -⟩ := LuaPoller.add_spec hs.poller (.socket z.skt) n cb
        simp only [hclosed, hp]
        exact ⟨hs.context, hgood⟩

theorem addSocket_kept {env : Env} {s : ZmqLoop F} (hs : Kept s) (i : Nat) (fnOrFlags fn : Arg F) :
    Lua.Leaves Kept (ZmqLoop.addSocket env i fnOrFlags fn s) := by
  have hadd : ∀ flags cb : Arg F, cb ≠ .nil → Lua.Leaves Kept (ZmqLoop.addSocket env i flags cb s) := by
    intro flags cb hcb
    rw [addSocket_fn hcb]
    exact Lua.leaves_andThen (pollerAdd_kept hs i _ cb) fun _ t ht => ⟨ht.context, ht.poller⟩
  by_cases hfn : fn = .nil
  · rw [hfn, addSocket_nil]
    by_cases h : (fnOrFlags.truthy && !fnOrFlags.isNumber) = true
    · rw [if_pos h]
      exact hadd .nil fnOrFlags fun hnil => by rw [hnil] at h; cases h
    · rw [if_neg h]
      exact hs
  · exact hadd fnOrFlags fn hfn

theorem closeSocket_kept {s : ZmqLoop F} (hs : Kept s) (i : Nat) :
    Lua.Leaves Kept (ZmqLoop.closeSocket i s) := by
  have huse := hs.context.use (.close i)
  rw [World.use, Lua.after] at huse
  rw [ZmqLoop.closeSocket]
  cases hrun : CContext.luazmqSktClose i s.context with
  | abort => trivial
  | ret a w =>
    rw [hrun] at huse
    rcases huse with ⟨w', hw', hcounted⟩ | ⟨hnone, -⟩
    · cases hw'
      exact ⟨hcounted, hs.poller⟩
    · cases hnone
  | raise w =>
    rw [hrun] at huse
    rcases huse with ⟨w', hw', hcounted⟩ | ⟨hnone, -⟩
    · cases hw'
      exact ⟨hcounted, hs.poller⟩
    · cases hnone

/-- **Every call keeps the loop in order**, also one that fails. -/
theorem addNew_kept {s : ZmqLoop F} (hs : Kept s) (env : Env) (c : AddNew) (fnOrFlags fn : Arg F) :
    Lua.Leaves Kept (c.run env fnOrFlags fn s) := by
  refine Lua.leaves_andThen (createSocket_kept hs c.opt) fun r t ht => ?_
  cases r with
  | error err => exact ht
  | ok skt =>
    refine Lua.leaves_andThen (addSocket_kept ht skt fnOrFlags fn) fun ok u hu => ?_
    cases ok with
    | some skt => exact hu
    | none => exact Lua.leaves_andThen (closeSocket_kept hu skt) fun _ _ h => h

/-- `loop:add_new_bind("REP", {"inproc://a", "inproc://b"}, fn)`, where the second address is in use. -/
theorem addNew_atomic_bind :
    Atomic (ZmqLoop.new 10 : ZmqLoop Unit)
      ((AddNew.bind (some (.str "REP")) (some (.list [.str "inproc://a", .str "inproc://b"]))).run
        (CContext.failingAt 2 98) (.fn ()) .nil (ZmqLoop.new 10)) :=
  (addNew_atomic_iff (inOrder_new 10) _ _ _ _).mpr fun _ _ => Or.inl ⟨1, by decide +kernel, by decide⟩

/-- libzmq built with every option, and no call of it fails. -/
def neverFails : Env := { fails := fun _ => none, toNumber := fun _ => none, defined := fun _ => true }

/-- **Handles that stay open**: without a callback, with a mask that is no number, and with an address that is no
string. -/
theorem addNew_leaks :
    let rep := fun (addr : OptVal) => (AddNew.bind (some (.str "REP")) (some addr)).run neverFails
    ¬ Atomic (ZmqLoop.new 10 : ZmqLoop Unit) (rep (.str "inproc://a") .nil .nil (ZmqLoop.new 10)) ∧
    ¬ Atomic (ZmqLoop.new 10 : ZmqLoop Unit)
      (rep (.str "inproc://a") (.val (.str "in")) (.fn ()) (ZmqLoop.new 10)) ∧
    ¬ Atomic (ZmqLoop.new 10 : ZmqLoop Unit) (rep (.bool true) (.fn ()) .nil (ZmqLoop.new 10)) := by
  have hdirty : ∀ (opt : Val) (fnOrFlags fn : Arg Unit), opensHandle neverFails [.ctx, opt] = true →
      (wellTyped neverFails (optEntries [.ctx, opt]) && addable neverFails fnOrFlags fn) = false →
      ¬ Atomic (ZmqLoop.new 10) (ZmqLoop.addNewSocket neverFails opt fnOrFlags fn (ZmqLoop.new 10)) := by
    intro opt fnOrFlags fn hopens hwrong hatomic
    rcases (addNewSocket_opens (inOrder_new 10) rfl hopens fnOrFlags fn).mp hatomic with ⟨k, -, hk⟩ | ⟨ht, ha⟩
    · exact hk rfl
    · rw [ht, ha] at hwrong
      cases hwrong
  exact ⟨hdirty _ _ _ (by decide +kernel) (by decide +kernel),
    hdirty _ _ _ (by decide +kernel) (by decide +kernel),
    hdirty _ _ _ (by decide +kernel) (by decide +kernel)⟩

end Lzmq.Loop
