/-
  The constructor of sockets is atomic on failures that it returns.

  `Constructed` says how a call of `ctx:socket` that opens a handle ends: it follows the plan of its option
  table.  A plan that fails leaves the context as it was, up to a handle opened and closed
  again; a plan that goes through ends with an open socket that is counted and in the autoclose set; a value
  of the wrong type ends it with an error and an open handle.

  The rest says the same without plans: which values are well typed (`wellTyped`), which call is the first
  one to fail (`follow_cases`), and what comes back with it (`extraResults`).
-/
import Lzmq.CContext.Phases

namespace Lzmq.CContext

open Lzmq.LuaStack (Idx)

variable {env : Env}

/-! ## How the constructor ends -/

/-- The option table of a call: the second argument, else the third. -/
def optEntries (args : List Val) : Entries :=
  if (tableOf args[1]?).isSome then (tableOf args[1]?).getD [] else (tableOf args[2]?).getD []

/-- A socket in the autoclose set. -/
def World.registered (w : World) (i : Nat) : World :=
  { w with autocloseRef := some ((w.autocloseRef.getD []).insert i) }

/-- The constructor after it has opened a handle in the world `w`. -/
inductive Constructed (env : Env) (w : World) (entries : Entries) : Ending Frame (List Val) → Prop
  | done (f : Frame)
      (hf : follow env.fails [.socket] (socketPlan env w.nextHandle entries).steps = (f.calls, none))
      (hr : (socketPlan env w.nextHandle entries).raises = false)
      (hw : f.world = w.newSocket.registered w.objs.length)
      (ho : f.overran = overruns env.fails 1 (socketPlan env w.nextHandle entries).steps) :
      Constructed env w entries (.ret [.skt w.objs.length] f)
  | failed (f : Frame) (e : Nat) (extra : List Val)
      (hf : follow env.fails [.socket] (socketPlan env w.nextHandle entries).steps = (f.calls, some (e, extra)))
      (hw : f.world = w.newSocket.dropped w.objs.length w.nextHandle)
      (ho : f.overran = overruns env.fails 1 (socketPlan env w.nextHandle entries).steps) :
      Constructed env w entries (.ret (.nil :: .err e :: extra) f)
  | raised (f : Frame)
      (hf : follow env.fails [.socket] (socketPlan env w.nextHandle entries).steps = (f.calls, none))
      (hr : (socketPlan env w.nextHandle entries).raises = true) (hw : f.world = w.newSocket) :
      Constructed env w entries (.raise f)

/-- A constructor that has opened a handle returns or raises, in one of three worlds. -/
theorem Constructed.world {w : World} {entries : Entries} {r : Ending Frame (List Val)}
    (h : Constructed env w entries r) : ∃ f : Frame, ((∃ results, r = .ret results f) ∨ r = .raise f) ∧
      (f.world = w.newSocket.registered w.objs.length ∨
        f.world = w.newSocket.dropped w.objs.length w.nextHandle ∨ f.world = w.newSocket) := by
  cases h with
  | done f hf hr hworld => exact ⟨f, Or.inl ⟨_, rfl⟩, Or.inl hworld⟩
  | failed f e extra hf hworld => exact ⟨f, Or.inl ⟨_, rfl⟩, Or.inr (Or.inl hworld)⟩
  | raised f hf hr hworld => exact ⟨f, Or.inr rfl, Or.inr (Or.inr hworld)⟩

theorem live_newSocket {w : World} (hcount : 0 ≤ w.socketCount) (hfresh : w.nextHandle ∉ w.closes) :
    Live w.newSocket w.objs.length w.nextHandle where
  obj := by simp [World.newSocket]
  fresh := hfresh
  count := by
    show 1 ≤ w.socketCount + 1
    omega

/-- The registration of an open object on top of the arguments. -/
theorem registerSocket_eq (env : Env) (rest : List Val) {f : Frame} {i skt : Nat}
    (hst : f.stack = .skt i :: (rest ++ [.ctx])) (hlive : Live f.world i skt) (hopen : f.world.closed = false) :
    registerSocket env f = .ret 1 { f with world := f.world.registered i } := by
  have hself : LuaStack.get f.stack (.abs 1) = some .ctx := by
    rw [hst, ← List.cons_append]
    exact LuaStack.get_abs .ctx [] (.skt i :: rest) rfl
  have hobj : LuaStack.get (Val.ctx :: Val.skt i :: (rest ++ [Val.ctx])) (.abs (rest.length + 1 + 1)) =
      some (.skt i) := LuaStack.get_abs (Val.skt i) (rest ++ [Val.ctx]) [Val.ctx] (by simp)
  have hauto : luazmqCtxAutoclose i f.world = .ret () (f.world.registered i) := by
    simp [luazmqCtxAutoclose, hlive.obj, hopen, World.registered]
  have hcall : luaCall env 2 0
      { f with stack := .skt i :: .ctx :: .method .autoclose :: .skt i :: (rest ++ [.ctx]) } =
      .ret () { f with stack := .skt i :: (rest ++ [.ctx]), world := f.world.registered i } := by
    rw [luaCall_two env 0 rfl]
    simp [callMethod, inWorld, hauto, LuaStack.adjust, LuaStack.pushResults]
  have hfield : field env (some .ctx) "autoclose" = .method .autoclose := rfl
  have hpush := run_pushvalue { f with stack := .ctx :: .skt i :: (rest ++ [.ctx]) } hobj
  simp [registerSocket, run_pushvalue f hself]
  simp [hst, hpush, luazmqPcallMethod, hfield, luaPcall, Lua.run_pcall_ret hcall]

/-- The returns of the constructor one after the other, and the returns of its parts. -/
theorem configure_then (opt : Nat) (x : Lua Frame Nat) (f : Frame) :
    (do
      let n ← applyOptions env opt
      if n ≠ 0 then pure n
      else do
        let n ← applyBindConnect env opt "bind"
        if n ≠ 0 then pure n
        else do
          let n ← applyBindConnect env opt "connect"
          if n ≠ 0 then pure n else x : Lua Frame Nat) f =
      Lua.andThen (configure env opt f) fun n => if n ≠ 0 then pure n else x := by
  rw [configure, Lua.run_bind, Lua.run_bind]
  cases applyOptions env opt f with
  | abort => rfl
  | raise g => rfl
  | ret n g =>
    rw [Lua.andThen_ret, Lua.andThen_ret]
    by_cases hn : n = 0
    · rw [if_neg (not_not.mpr hn), if_neg (not_not.mpr hn), Lua.run_bind, Lua.run_bind]
      cases applyBindConnect env opt "bind" g with
      | abort => rfl
      | raise g => rfl
      | ret m g =>
        rw [Lua.andThen_ret, Lua.andThen_ret]
        by_cases hm : m = 0
        · rw [if_neg (not_not.mpr hm), if_neg (not_not.mpr hm), Lua.run_bind]
        · rw [if_pos hm, if_pos hm, Lua.run_pure, Lua.andThen_ret, if_pos hm, Lua.run_pure]
    · rw [if_pos hn, if_pos hn, Lua.run_pure, Lua.andThen_ret, if_pos hn, Lua.run_pure]

/-- The stack slot of the option table, under the new object: where the third argument is missing, the object
    is in its slot. -/
theorem optEntries_slot (args : List Val) (i : Nat) (h2 : 2 ≤ args.length) :
    (tableOf (LuaStack.get (.skt i :: args.reverse)
      (.abs (if (tableOf args[1]?).isSome then 2 else 3)))).getD [] = optEntries args := by
  have hslot : ∀ n < args.length, LuaStack.get (.skt i :: args.reverse) (.abs (n + 1)) = args[n]? := by
    intro n hn
    have hle : n + 1 ≤ args.reverse.length := by rw [List.length_reverse]; omega
    have happ := LuaStack.get_abs_append args.reverse [Val.skt i] hle
    rw [List.singleton_append] at happ
    rw [happ, LuaStack.get_reverse]
  rw [optEntries]
  by_cases htable : (tableOf args[1]?).isSome
  · rw [if_pos htable, if_pos htable, hslot 1 (by omega)]
  · rw [if_neg htable, if_neg htable]
    by_cases h3 : 2 < args.length
    · rw [hslot 2 h3]
    · have hlen : 3 = args.reverse.length + 1 := by rw [List.length_reverse]; omega
      have hobj := LuaStack.get_abs (Val.skt i) args.reverse [] hlen
      rw [List.nil_append] at hobj
      rw [hobj, List.getElem?_eq_none (by omega)]
      rfl

/-- The constructor up to the new object. -/
theorem ctxSocket_opens {w : World} {args : List Val} (hopen : w.closed = false) (hcount : 0 ≤ w.socketCount)
    (hself : args[0]? = some .ctx) (htype : socketType env args[1]? = true) (hsocket : env.fails 0 = none) :
    luazmqCtxSocket env ⟨args.reverse, w, ⟨[], false⟩, 0⟩ =
      Lua.andThen (configure env (if (tableOf args[1]?).isSome then 2 else 3)
        ⟨.skt w.objs.length :: args.reverse, w.newSocket, ⟨[.socket], false⟩, 0⟩)
        fun n => if n ≠ 0 then pure n else registerSocket env := by
  have h1 : LuaStack.get args.reverse (.abs 1) = some .ctx := (LuaStack.get_reverse args 0).trans hself
  have h2 : LuaStack.get args.reverse (.abs 2) = args[1]? := LuaStack.get_reverse args 1
  have hpos : 0 < w.newSocket.socketCount := by
    show 0 < w.socketCount + 1
    omega
  rw [← configure_then]
  simp [luazmqCtxSocket, luazmqGetcontext, h1, h2, hopen, htype, zmq, hsocket, newSocket, inWorld, hpos, Log.add]

/-- **A call that opens a handle.** -/
theorem ctxSocket_constructed {w : World} {args : List Val} (hopen : w.closed = false)
    (hcount : 0 ≤ w.socketCount) (hfresh : w.nextHandle ∉ w.closes) (hself : args[0]? = some .ctx)
    (htype : socketType env args[1]? = true) (hsocket : env.fails 0 = none) :
    Constructed env w (optEntries args) (ctxSocket env w args) := by
  obtain ⟨rest, rfl⟩ : ∃ rest, args = .ctx :: rest := by
    cases args with
    | nil => cases hself
    | cons a rest => cases hself; exact ⟨rest, rfl⟩
  have h2 : 2 ≤ (Val.ctx :: rest).length := by
    cases rest with
    | nil => cases htype
    | cons a rest => simp
  have hlive := live_newSocket hcount hfresh
  have hphase := phase_configure env (if (tableOf (Val.ctx :: rest)[1]?).isSome then 2 else 3)
    (f := ⟨.skt w.objs.length :: (Val.ctx :: rest).reverse, w.newSocket, ⟨[.socket], false⟩, 0⟩) rfl hlive
  rw [optEntries_slot _ _ h2] at hphase
  have hopens := ctxSocket_opens hopen hcount hself htype hsocket
  revert hphase
  rw [ctxSocket, Lua.run_bind, hopens]
  generalize configure env _ _ = r
  intro hphase
  have hlog : ∀ {log : Log} {r}, followed env.fails ⟨[.socket], false⟩
      (socketPlan env w.nextHandle (optEntries (.ctx :: rest))).steps = (log, r) →
      follow env.fails [.socket] (socketPlan env w.nextHandle (optEntries (.ctx :: rest))).steps = (log.calls, r) ∧
        log.overran = overruns env.fails 1 (socketPlan env w.nextHandle (optEntries (.ctx :: rest))).steps := by
    intro log r hf
    rw [followed_eq] at hf
    cases hf
    exact ⟨rfl, Bool.false_or _⟩
  cases hphase with
  | raised log st' hf hr =>
    exact .raised _ (hlog hf).1 hr rfl
  | failed log e extra st' n hf hn hres =>
    rw [Lua.andThen_ret, if_pos hn, Lua.run_pure, Lua.andThen_ret, Lua.run_read, hres]
    exact .failed _ e extra (hlog hf).1 rfl (hlog hf).2
  | done log hf hr =>
    have hreg := registerSocket_eq env rest.reverse
      (f := ⟨.skt w.objs.length :: (Val.ctx :: rest).reverse, w.newSocket, log, 0⟩)
      (by rw [List.reverse_cons]) hlive hopen
    rw [Lua.andThen_ret, if_neg (fun h => h rfl), hreg, Lua.andThen_ret, Lua.run_read]
    exact .done _ (hlog hf).1 hr rfl (hlog hf).2

/-- A call that `zmq_socket` is made by, and succeeds in. -/
def opensHandle (env : Env) (args : List Val) : Bool :=
  args[0]? == some .ctx && socketType env args[1]? && (env.fails 0).isNone

theorem opensHandle_iff {args : List Val} : opensHandle env args = true ↔
    args[0]? = some .ctx ∧ socketType env args[1]? = true ∧ env.fails 0 = none := by
  simp [opensHandle, and_assoc]

/-- A call that opens no handle leaves the world alone. -/
theorem ctxSocket_refused {w : World} {args : List Val} (hopen : w.closed = false)
    (h : opensHandle env args = false) : ∃ f : Frame, f.world = w ∧
      (ctxSocket env w args = .raise f ∨ ∃ e, ctxSocket env w args = .ret [.nil, .err e] f) := by
  have h1 : LuaStack.get args.reverse (.abs 1) = args[0]? := LuaStack.get_reverse args 0
  have h2 : LuaStack.get args.reverse (.abs 2) = args[1]? := LuaStack.get_reverse args 1
  by_cases hself : args[0]? = some .ctx
  · by_cases htype : socketType env args[1]? = true
    · cases hsocket : env.fails 0 with
      | none => simp [opensHandle, hself, htype, hsocket] at h
      | some e =>
        refine ⟨⟨LuaStack.pushResults [.nil, .err e] args.reverse, w, ⟨[.socket], false⟩, e⟩, rfl, Or.inr ⟨e, ?_⟩⟩
        simp [ctxSocket, luazmqCtxSocket, luazmqGetcontext, h1, h2, hself, hopen, htype, zmq, hsocket,
          Log.add, luazmqFail, LuaStack.results, LuaStack.pushResults]
    · refine ⟨⟨args.reverse, w, ⟨[], false⟩, 0⟩, rfl, Or.inl ?_⟩
      simp [ctxSocket, luazmqCtxSocket, luazmqGetcontext, h1, h2, hself, hopen, htype]
  · refine ⟨⟨args.reverse, w, ⟨[], false⟩, 0⟩, rfl, Or.inl ?_⟩
    simp [ctxSocket, luazmqCtxSocket, luazmqGetcontext, h1, hself]

/-! ## Well-typed values -/

/-- `lua_type` of the value of a setter, or of each element of its list. -/
def OptType.accepts (env : Env) (type : OptType) (v : OptVal) : Bool :=
  match type, v with
  | .strArr, .list l => l.all fun e => (checkString e.val).isSome
  | type, v => (type.check env v).isSome

/-- An address, or a list of addresses. -/
def isAddress : OptVal → Bool
  | .list l => l.all fun e => (checkString e.val).isSome
  | v => (checkString v).isSome

/-- The values that the constructor passes to methods have the types these check. -/
def wellTyped (env : Env) (entries : Entries) : Bool :=
  (entries.all fun entry =>
    match entry.1 with
    | .str name =>
      match sktMethod env ("set_" ++ name) with
      | some (.option _ type) => type.accepts env entry.2
      | _ => true
    | _ => true) &&
  (lookup entries "bind").all isAddress && (lookup entries "connect").all isAddress

theorem append_raises (p q : Plan) : (p.append q).raises = (p.raises || q.raises) := by
  rw [Plan.append]
  by_cases hr : p.raises = true
  · rw [if_pos hr, hr, Bool.true_or]
  · rw [if_neg hr, Bool.eq_false_iff.mpr hr, Bool.false_or]

theorem strArrPlan_raises (name : String) (skt : Nat) (l : List Elem) : ∀ i,
    (strArrPlan name skt i l).raises = !l.all fun e => (checkString e.val).isSome := by
  induction l with
  | nil => intro i; rfl
  | cons e l ih =>
    intro i
    rw [strArrPlan, List.all_cons]
    cases checkString e.val with
    | none => rfl
    | some s => exact ih (i + 1)

theorem setPlan_raises (check : OptVal → Option OptVal) (name : String) (skt : Nat) (v : OptVal) :
    (setPlan check name skt v).raises = !(check v).isSome := by
  rw [setPlan]
  cases check v with
  | none => rfl
  | some v => rfl

theorem optionPlan_raises (type : OptType) (name : String) (skt : Nat) (v : OptVal) :
    (optionPlan env type name skt v).raises = !type.accepts env v := by
  cases type with
  | strArr =>
    cases v with
    | list l => exact strArrPlan_raises name skt l 1
    | bool b => rfl
    | num n => rfl
    | str s => rfl
    | other => rfl
  | _ => exact setPlan_raises _ name skt v

theorem listPlan_raises (call : String → ZmqCall) (l : List Elem) :
    (listPlan call l).raises = !l.all fun e => (checkString e.val).isSome := by
  induction l with
  | nil => rfl
  | cons e l ih =>
    rw [listPlan, List.all_cons]
    cases checkString e.val with
    | none => rfl
    | some s => exact ih

theorem bindPlan_raises (call : String → ZmqCall) (v : Option OptVal) :
    (bindPlan call v).raises = !v.all isAddress := by
  cases v with
  | none => rfl
  | some v =>
    cases v with
    | list l => exact listPlan_raises call l
    | bool b => rfl
    | num n => rfl
    | str s => rfl
    | other => rfl

/-- **The plan raises on values of the wrong type.** -/
theorem socketPlan_raises (env : Env) (skt : Nat) (entries : Entries) :
    (socketPlan env skt entries).raises = !wellTyped env entries := by
  have hoptions : (optionsPlan env skt entries).raises = !entries.all fun entry =>
      match entry.1 with
      | .str name =>
        match sktMethod env ("set_" ++ name) with
        | some (.option _ type) => type.accepts env entry.2
        | _ => true
      | _ => true := by
    induction entries with
    | nil => rfl
    | cons entry rest ih =>
      obtain ⟨k, v⟩ := entry
      rw [optionsPlan, append_raises, ih, List.all_cons, Bool.not_and]
      congr 1
      cases k with
      | str name =>
        rcases sktMethod_set env name with hm | ⟨opt, type, hm⟩
        · simp only [entryPlan, hm]
          rfl
        · simp only [entryPlan, hm]
          exact optionPlan_raises type opt skt v
      | _ => rfl
  rw [socketPlan, append_raises, append_raises, hoptions, bindPlan_raises, bindPlan_raises, wellTyped,
    Bool.not_and, Bool.not_and, Bool.or_assoc]

/-! ## The number of calls -/

/-- Plans with the same number of calls, and the same end. -/
def Plan.Alike (p q : Plan) : Prop := p.steps.length = q.steps.length ∧ p.raises = q.raises

section Alike

variable {p q p' q' : Plan}

theorem Plan.Alike.refl (p : Plan) : p.Alike p := ⟨rfl, rfl⟩

theorem Plan.Alike.cons {s s' : Step} (h : p.Alike q) : (Plan.cons s p).Alike (Plan.cons s' q) :=
  ⟨congrArg (· + 1) h.1, h.2⟩

theorem Plan.Alike.returning (extra : List Val → List Val) (h : p.Alike q) :
    (p.returning extra).Alike (q.returning extra) := by
  refine ⟨?_, h.2⟩
  rw [Plan.returning, Plan.returning, List.length_map, List.length_map, h.1]

theorem Plan.Alike.append (h : p.Alike q) (h' : p'.Alike q') : (p.append p').Alike (q.append q') := by
  rw [Plan.append, Plan.append, h.2]
  by_cases hr : q.raises = true
  · rw [if_pos hr, if_pos hr]
    exact h
  · rw [if_neg hr, if_neg hr]
    exact ⟨by rw [List.length_append, List.length_append, h.1, h'.1], h'.2⟩

end Alike

section Alike

variable (skt skt' : Nat)

theorem strArrPlan_alike (name : String) (l : List Elem) : ∀ i,
    (strArrPlan name skt i l).Alike (strArrPlan name skt' i l) := by
  induction l with
  | nil => exact fun i => Plan.Alike.refl _
  | cons e l ih =>
    intro i
    rw [strArrPlan, strArrPlan]
    cases checkString e.val with
    | none => exact Plan.Alike.refl _
    | some s => exact (ih (i + 1)).cons

theorem setPlan_alike (check : OptVal → Option OptVal) (name : String) (v : OptVal) :
    (setPlan check name skt v).Alike (setPlan check name skt' v) := by
  rw [setPlan, setPlan]
  cases check v with
  | none => exact Plan.Alike.refl _
  | some v => exact (Plan.Alike.refl _).cons

theorem optionPlan_alike (type : OptType) (name : String) (v : OptVal) :
    (optionPlan env type name skt v).Alike (optionPlan env type name skt' v) := by
  cases type with
  | strArr =>
    cases v with
    | list l => exact strArrPlan_alike skt skt' name l 1
    | bool b => exact setPlan_alike skt skt' _ name _
    | num n => exact setPlan_alike skt skt' _ name _
    | str s => exact setPlan_alike skt skt' _ name _
    | other => exact setPlan_alike skt skt' _ name _
  | _ => exact setPlan_alike skt skt' _ name v

theorem optionsPlan_alike (entries : Entries) :
    (optionsPlan env skt entries).Alike (optionsPlan env skt' entries) := by
  induction entries with
  | nil => exact Plan.Alike.refl _
  | cons entry rest ih =>
    obtain ⟨k, v⟩ := entry
    refine Plan.Alike.append ?_ ih
    cases k with
    | str name =>
      rcases sktMethod_set env name with hm | ⟨opt, type, hm⟩
      · simp only [entryPlan, hm]
        exact Plan.Alike.refl _
      · simp only [entryPlan, hm]
        exact (optionPlan_alike skt skt' type opt v).returning _
    | _ => exact Plan.Alike.refl _

theorem listPlan_alike (call call' : String → ZmqCall) (l : List Elem) :
    (listPlan call l).Alike (listPlan call' l) := by
  induction l with
  | nil => exact Plan.Alike.refl _
  | cons e l ih =>
    rw [listPlan, listPlan]
    cases checkString e.val with
    | none => exact Plan.Alike.refl _
    | some a => exact ih.cons

theorem bindPlan_alike (call call' : String → ZmqCall) (v : Option OptVal) :
    (bindPlan call v).Alike (bindPlan call' v) := by
  cases v with
  | none => exact Plan.Alike.refl _
  | some v =>
    apply Plan.Alike.returning _
    cases v with
    | list l => exact listPlan_alike call call' l
    | bool b => exact Plan.Alike.refl _
    | num n => exact (Plan.Alike.refl _).cons
    | str s => exact (Plan.Alike.refl _).cons
    | other => exact Plan.Alike.refl _

/-- The handle does not matter to how many calls there are. -/
theorem socketPlan_alike (entries : Entries) :
    (socketPlan env skt entries).Alike (socketPlan env skt' entries) :=
  (optionsPlan_alike skt skt' entries).append ((bindPlan_alike _ _ _).append (bindPlan_alike _ _ _))

end Alike

/-! ## The first call that fails -/

/-- The libzmq calls of the constructor on its new handle, up to a value of the wrong type. -/
def configCalls (env : Env) (skt : Nat) (entries : Entries) : List ZmqCall :=
  (socketPlan env skt entries).steps.map Step.call

/-- The address of a failed call, if it came from a list. -/
def listAddress (v : Option OptVal) (a : String) : Val :=
  match v with
  | some (.list _) => .lua (.str a)
  | _ => .nil

/-- What comes back behind nil and the error: nothing from an option, a third value from `bind` and
    `connect`. -/
def extraResults (entries : Entries) : ZmqCall → List Val
  | .bind _ a => [listAddress (lookup entries "bind") a]
  | .connect _ a => [listAddress (lookup entries "connect") a]
  | _ => []

/-- The first failure among the calls of a plan, made after `calls`. -/
theorem follow_cases (fails : Nat → Option Nat) (steps : List Step) : ∀ calls : List ZmqCall,
    (∃ k s e, steps[k]? = some s ∧ fails (calls.length + k) = some e ∧
      (∀ j < k, fails (calls.length + j) = none) ∧
      follow fails calls steps = (calls ++ (steps.take (k + 1)).map Step.call, some (e, s.extra))) ∨
    ((∀ j < steps.length, fails (calls.length + j) = none) ∧
      follow fails calls steps = (calls ++ steps.map Step.call, none)) := by
  induction steps with
  | nil => exact fun calls => Or.inr ⟨fun j hj => absurd hj (Nat.not_lt_zero j), by simp [follow]⟩
  | cons s steps ih =>
    intro calls
    rw [follow]
    cases hf : fails calls.length with
    | some e =>
      exact Or.inl ⟨0, s, e, rfl, hf, fun j hj => absurd hj (Nat.not_lt_zero j), by simp⟩
    | none =>
      have hlater : ∀ k, (∀ j < k, fails ((calls ++ [s.call]).length + j) = none) →
          ∀ j < k + 1, fails (calls.length + j) = none := by
        intro k h j hj
        cases j with
        | zero => exact hf
        | succ j =>
          have hj' := h j (by omega)
          rw [List.length_append] at hj'
          rwa [Nat.add_right_comm] at hj'
      rcases ih (calls ++ [s.call]) with ⟨k, t, e, hk, he, hbefore, hrun⟩ | ⟨hall, hrun⟩
      · refine Or.inl ⟨k + 1, t, e, hk, ?_, hlater k hbefore, ?_⟩
        · rw [List.length_append] at he
          rwa [Nat.add_right_comm] at he
        · rw [hrun, List.append_assoc]
          rfl
      · refine Or.inr ⟨hlater steps.length hall, ?_⟩
        rw [hrun, List.append_assoc]
        rfl

theorem append_steps {p q : Plan} {s : Step} (h : s ∈ (p.append q).steps) : s ∈ p.steps ∨ s ∈ q.steps := by
  rw [Plan.append] at h
  by_cases hr : p.raises = true
  · rw [if_pos hr] at h
    exact Or.inl h
  · rw [if_neg hr] at h
    exact List.mem_append.mp h

theorem strArrPlan_steps (name : String) (skt : Nat) (l : List Elem) : ∀ i,
    ∀ s ∈ (strArrPlan name skt i l).steps, ∃ v, s.call = .setsockopt skt name v := by
  induction l with
  | nil => exact fun i s hs => absurd hs List.not_mem_nil
  | cons e l ih =>
    intro i s hs
    rw [strArrPlan] at hs
    cases hstr : checkString e.val with
    | none =>
      rw [hstr] at hs
      exact absurd hs List.not_mem_nil
    | some a =>
      rw [hstr] at hs
      rcases List.mem_cons.mp hs with rfl | hs
      · exact ⟨_, rfl⟩
      · exact ih (i + 1) s hs

theorem setPlan_steps (check : OptVal → Option OptVal) (name : String) (skt : Nat) (v : OptVal) :
    ∀ s ∈ (setPlan check name skt v).steps, ∃ v, s.call = .setsockopt skt name v := by
  intro s hs
  rw [setPlan] at hs
  cases hc : check v with
  | none =>
    rw [hc] at hs
    exact absurd hs List.not_mem_nil
  | some v' =>
    rw [hc] at hs
    rcases List.mem_singleton.mp hs with rfl
    exact ⟨v', rfl⟩

theorem optionPlan_steps (type : OptType) (name : String) (skt : Nat) (v : OptVal) :
    ∀ s ∈ (optionPlan env type name skt v).steps, ∃ v, s.call = .setsockopt skt name v := by
  cases type with
  | strArr =>
    cases v with
    | list l => exact strArrPlan_steps name skt l 1
    | bool b => exact setPlan_steps _ name skt _
    | num n => exact setPlan_steps _ name skt _
    | str s => exact setPlan_steps _ name skt _
    | other => exact setPlan_steps _ name skt _
  | _ => exact setPlan_steps _ name skt v

theorem optionsPlan_steps (skt : Nat) (entries : Entries) :
    ∀ s ∈ (optionsPlan env skt entries).steps, ∃ name v, s.call = .setsockopt skt name v ∧ s.extra = [] := by
  induction entries with
  | nil => exact fun s hs => absurd hs List.not_mem_nil
  | cons entry rest ih =>
    intro s hs
    rw [optionsPlan] at hs
    rcases append_steps hs with hs | hs
    · obtain ⟨k, v⟩ := entry
      cases k with
      | str name =>
        rcases sktMethod_set env name with hm | ⟨opt, type, hm⟩
        · simp only [entryPlan, hm] at hs
          exact absurd hs List.not_mem_nil
        · simp only [entryPlan, hm] at hs
          obtain ⟨t, ht, rfl⟩ := List.mem_map.mp hs
          obtain ⟨v', hv'⟩ := optionPlan_steps type opt skt v t ht
          exact ⟨opt, v', hv', rfl⟩
      | _ => exact absurd hs List.not_mem_nil
    · exact ih s hs

theorem listPlan_steps (call : String → ZmqCall) (l : List Elem) :
    ∀ s ∈ (listPlan call l).steps, ∃ a, s = ⟨call a, [.lua (.str a)], 0⟩ := by
  induction l with
  | nil => exact fun s hs => absurd hs List.not_mem_nil
  | cons e l ih =>
    intro s hs
    rw [listPlan] at hs
    cases hstr : checkString e.val with
    | none =>
      rw [hstr] at hs
      exact absurd hs List.not_mem_nil
    | some a =>
      rw [hstr] at hs
      rcases List.mem_cons.mp hs with rfl | hs
      · exact ⟨a, rfl⟩
      · exact ih s hs

theorem bindPlan_steps (call : String → ZmqCall) (v : Option OptVal) :
    ∀ s ∈ (bindPlan call v).steps, ∃ a, s = ⟨call a, [listAddress v a], 0⟩ := by
  have hscalar : ∀ a : String,
      ∀ s ∈ (Plan.returning (LuaStack.adjust .nil 1) (.cons ⟨call a, [], 0⟩ .done)).steps,
      s = ⟨call a, [.nil], 0⟩ := fun a s hs => List.mem_singleton.mp hs
  intro s hs
  cases v with
  | none => exact absurd hs List.not_mem_nil
  | some v =>
    cases v with
    | list l =>
      obtain ⟨t, ht, rfl⟩ := List.mem_map.mp hs
      obtain ⟨a, rfl⟩ := listPlan_steps call l t ht
      exact ⟨a, rfl⟩
    | str a => exact ⟨a, hscalar a s hs⟩
    | num n => exact ⟨toString n, hscalar _ s hs⟩
    | bool b => exact absurd hs List.not_mem_nil
    | other => exact absurd hs List.not_mem_nil

/-- What a failure of each call returns besides nil and the error. -/
theorem socketPlan_extra {skt : Nat} {entries : Entries} {s : Step}
    (h : s ∈ (socketPlan env skt entries).steps) : s.extra = extraResults entries s.call := by
  rw [socketPlan] at h
  rcases append_steps h with h | h
  · obtain ⟨name, v, hcall, hextra⟩ := optionsPlan_steps skt entries s h
    rw [hcall, hextra]
    rfl
  · rcases append_steps h with h | h
    · obtain ⟨a, rfl⟩ := bindPlan_steps _ _ s h
      rfl
    · obtain ⟨a, rfl⟩ := bindPlan_steps _ _ s h
      rfl

/-! ## Atomic -/

/-- A constructor that succeeded: the open socket, counted and in the autoclose set. -/
structure Opened (w : World) (results : List Val) (f : Frame) : Prop where
  results : results = [.skt w.objs.length]
  object : ∃ z, f.world.objs[w.objs.length]? = some z ∧ z.skt = w.nextHandle ∧ z.closed = false
  opened : w.nextHandle ∉ f.world.closes
  count : f.world.socketCount = w.socketCount + 1
  autoclose : w.objs.length ∈ f.world.autocloseRef.getD []

theorem opened {w : World} (hlive : Live w.newSocket w.objs.length w.nextHandle) {f : Frame}
    (hw : f.world = w.newSocket.registered w.objs.length) : Opened w [.skt w.objs.length] f where
  results := rfl
  object := by
    rw [hw]
    exact ⟨_, hlive.obj, rfl, rfl⟩
  opened := by
    rw [hw]
    exact hlive.fresh
  count := by rw [hw]; rfl
  autoclose := by
    rw [hw]
    exact List.mem_insert_self

/-- Every option is there, and the n-th call of libzmq fails. -/
def failingAt (n errno : Nat) : Env :=
  { fails := fun k => if k = n then some errno else none
    toNumber := fun _ => none
    defined := fun _ => true }

end Lzmq.CContext
