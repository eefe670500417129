/-
  What the constructor of sockets asks libzmq for: its plan.

  The option table and the values of `bind` and `connect` determine a list of libzmq calls, up to a value of
  the wrong type (`raises`).  The constructor makes them in order until one fails: `follow`.  A step of a
  plan carries what a failure of its call returns besides nil and the error.

  The methods called by the constructor follow their plans: `callMethod_option`, `callMethod_bind`,
  `callMethod_connect`.
-/
import Lzmq.CContext.Create

namespace Lzmq.CContext

open Lzmq.LuaStack (Idx)
open Lzmq.CFunction (luaMinstack)

/-! ## Plans -/

/-- A libzmq call, the values that a failure returns behind nil and the error, and the values that the method has
    pushed before the call. -/
structure Step where
  call : ZmqCall
  extra : List Val
  height : Nat

/-- Calls to make one after the other, and whether a Lua error comes after the last one. -/
structure Plan where
  steps : List Step
  raises : Bool

def Plan.done : Plan := ⟨[], false⟩

def Plan.error : Plan := ⟨[], true⟩

def Plan.cons (s : Step) (p : Plan) : Plan := ⟨s :: p.steps, p.raises⟩

def Plan.append (p q : Plan) : Plan := if p.raises then p else ⟨p.steps ++ q.steps, q.raises⟩

/-- The plan, with other values to return. -/
def Plan.returning (extra : List Val → List Val) (p : Plan) : Plan :=
  ⟨p.steps.map fun s => { s with extra := extra s.extra }, p.raises⟩

/-- The calls made after `calls`, up to the first that fails: its errno and its values. -/
def follow (fails : Nat → Option Nat) : List ZmqCall → List Step → List ZmqCall × Option (Nat × List Val)
  | calls, [] => (calls, none)
  | calls, s :: steps =>
    match fails calls.length with
    | some e => (calls ++ [s.call], some (e, s.extra))
    | none => follow fails (calls ++ [s.call]) steps

/-- The log of that: a method that goes on pushes one value more, one that fails three. -/
def followed (fails : Nat → Option Nat) : Log → List Step → Log × Option (Nat × List Val)
  | log, [] => (log, none)
  | log, s :: steps =>
    match fails log.calls.length with
    | some e => ((log.add s.call).reach (s.height + 3), some (e, s.extra))
    | none => followed fails ((log.add s.call).reach (s.height + 1)) steps

/-- Whether a stack overruns on the way, from the n-th call on. -/
def overruns (fails : Nat → Option Nat) : Nat → List Step → Bool
  | _, [] => false
  | n, s :: steps =>
    match fails n with
    | some _ => decide (luaMinstack < s.height + 3)
    | none => decide (luaMinstack < s.height + 1) || overruns fails (n + 1) steps

theorem followed_eq (fails : Nat → Option Nat) : ∀ (steps : List Step) (log : Log), followed fails log steps =
    (⟨(follow fails log.calls steps).1, log.overran || overruns fails log.calls.length steps⟩,
      (follow fails log.calls steps).2) := by
  intro steps
  induction steps with
  | nil =>
    intro log
    rw [followed, follow, overruns, Bool.or_false]
  | cons s steps ih =>
    intro log
    rw [followed, follow, overruns]
    cases hf : fails log.calls.length with
    | some e => rfl
    | none =>
      have hlen : ((log.add s.call).reach (s.height + 1)).calls.length = log.calls.length + 1 := by
        simp [Log.reach, Log.add]
      simp only [ih, hlen]
      simp [Log.reach, Log.add, Bool.or_assoc]

theorem follow_append (fails : Nat → Option Nat) : ∀ (a b : List Step) (calls : List ZmqCall),
    follow fails calls (a ++ b) =
      match follow fails calls a with
      | (calls, some r) => (calls, some r)
      | (calls, none) => follow fails calls b := by
  intro a b
  induction a with
  | nil => intro calls; rfl
  | cons s a ih =>
    intro calls
    rw [List.cons_append, follow, follow]
    cases hf : fails calls.length with
    | some e => rfl
    | none => exact ih (calls ++ [s.call])

theorem followed_append (fails : Nat → Option Nat) : ∀ (a b : List Step) (log : Log),
    followed fails log (a ++ b) =
      match followed fails log a with
      | (log, some r) => (log, some r)
      | (log, none) => followed fails log b := by
  intro a b
  induction a with
  | nil => intro log; rfl
  | cons s a ih =>
    intro log
    rw [List.cons_append, followed, followed]
    cases hf : fails log.calls.length with
    | some e => rfl
    | none => exact ih _

theorem followed_map (fails : Nat → Option Nat) (extra : List Val → List Val) :
    ∀ (a : List Step) (log : Log), followed fails log (a.map fun s => { s with extra := extra s.extra }) =
      ((followed fails log a).1, (followed fails log a).2.map fun r => (r.1, extra r.2)) := by
  intro a
  induction a with
  | nil => intro log; rfl
  | cons s a ih =>
    intro log
    rw [List.map_cons, followed, followed]
    cases hf : fails log.calls.length with
    | some e => rfl
    | none => exact ih _

section Methods

variable (env : Env)

/-- What a method does that follows a plan. -/
def replay (p : Plan) (f : Frame) : Ending Frame (List Val) :=
  match followed env.fails f.log p.steps with
  | (log, some r) => .ret (.nil :: .err r.1 :: r.2) { f with log := log, errno := r.1 }
  | (log, none) =>
    if p.raises then .raise { f with log := log } else .ret [.lua (.bool true)] { f with log := log }

/-- The first call of a plan. -/
theorem replay_cons (s : Step) (p : Plan) (f : Frame) : replay env (p.cons s) f =
    match env.fails f.log.calls.length with
    | some e => .ret (.nil :: .err e :: s.extra)
      { f with log := (f.log.add s.call).reach (s.height + 3), errno := e }
    | none => replay env p { f with log := (f.log.add s.call).reach (s.height + 1) } := by
  rw [replay, Plan.cons, followed]
  cases hf : env.fails f.log.calls.length with
  | some e => rfl
  | none => rfl

/-! ## The plans of the methods -/

def setPlan (check : OptVal → Option OptVal) (name : String) (skt : Nat) (v : OptVal) : Plan :=
  match check v with
  | none => .error
  | some v => .cons ⟨.setsockopt skt name v, [], 0⟩ .done

def strArrPlan (name : String) (skt : Nat) : Nat → List Elem → Plan
  | _, [] => .done
  | i, e :: l =>
    match checkString e.val with
    | none => .error
    | some s => .cons ⟨.setsockopt skt name (.str s), [.lua (.num i)], i⟩ (strArrPlan name skt (i + 1) l)

def optionPlan (type : OptType) (name : String) (skt : Nat) (v : OptVal) : Plan :=
  match type, v with
  | .strArr, .list l => strArrPlan name skt 1 l
  | type, v => setPlan (type.check env) name skt v

def listPlan (call : String → ZmqCall) : List Elem → Plan
  | [] => .done
  | e :: l =>
    match checkString e.val with
    | none => .error
    | some a => .cons ⟨call a, [.lua (.str a)], 0⟩ (listPlan call l)

def addressPlan (call : String → ZmqCall) (v : OptVal) : Plan :=
  match v with
  | .list l => listPlan call l
  | v =>
    match checkString v with
    | none => .error
    | some a => .cons ⟨call a, [], 0⟩ .done

/-! ## The methods follow their plans -/

theorem Frame.reached_small {n : Nat} (h : n ≤ luaMinstack) (f : Frame) : f.reached n = f := by
  rw [reached, Log.reach, decide_eq_false (Nat.not_lt.mpr h), Bool.or_false]

/-- One libzmq call, and what comes after it when it succeeds. -/
theorem zmq_then (s : Step) {p : Plan} {next fail : Lua Frame (List Val)} {f : Frame}
    (hnext : ∀ g, next g = replay env p (g.reached (s.height + 1)))
    (hfail : ∀ g, fail g = .ret (.nil :: .err g.errno :: s.extra) (g.reached (s.height + 3))) :
    (do if ← zmq env s.call then next else fail : Lua Frame (List Val)) f = replay env (p.cons s) f := by
  rw [replay_cons, Lua.run_bind, zmq]
  cases hf : env.fails f.log.calls.length with
  | none => exact hnext _
  | some e => exact hfail _

/-- The call of a method that keeps nothing on its stack. -/
theorem zmq_plain (c : ZmqCall) (extra : List Val) {p : Plan} {next fail : Lua Frame (List Val)} {f : Frame}
    (hnext : ∀ g, next g = replay env p g) (hfail : ∀ g, fail g = .ret (.nil :: .err g.errno :: extra) g) :
    (do if ← zmq env c then next else fail : Lua Frame (List Val)) f = replay env (p.cons ⟨c, extra, 0⟩) f :=
  zmq_then env ⟨c, extra, 0⟩ (fun g => by rw [hnext, g.reached_small (show 0 + 1 ≤ luaMinstack by decide)])
    fun g => by rw [hfail, g.reached_small (show 0 + 3 ≤ luaMinstack by decide)]

theorem luazmqPass_eq (f : Frame) : luazmqPass f = replay env .done f := rfl

theorem luazmqSktSet_eq (check : OptVal → Option OptVal) (name : String) (skt : Nat) (v : OptVal)
    (f : Frame) :
    luazmqSktSet env check name skt v f = replay env (setPlan check name skt v) f := by
  rw [luazmqSktSet, setPlan]
  cases check v with
  | none => rfl
  | some v => exact zmq_plain env (.setsockopt skt name v) [] (luazmqPass_eq env) fun _ => rfl

theorem setStrArr_reached (name : String) (skt : Nat) : ∀ (l : List Elem) (i : Nat) (f : Frame),
    setStrArr env name skt i l f = replay env (strArrPlan name skt i l) (f.reached i) := by
  intro l
  induction l with
  | nil => exact fun i f => luazmqPass_eq env (f.reached i)
  | cons e l ih =>
    intro i f
    rw [setStrArr, strArrPlan, Lua.run_bind, reach, Lua.run_modify, Lua.andThen_ret]
    cases checkString e.val with
    | none => rfl
    | some s => exact zmq_then env ⟨.setsockopt skt name (.str s), [.lua (.num i)], i⟩ (ih (i + 1)) fun _ => rfl

theorem setStrArr_eq (name : String) (skt : Nat) (l : List Elem) (f : Frame) :
    setStrArr env name skt 1 l f = replay env (strArrPlan name skt 1 l) f := by
  rw [setStrArr_reached, f.reached_small (by decide)]

theorem setOption_eq (type : OptType) (name : String) (skt : Nat) (v : OptVal) (f : Frame) :
    setOption env type name skt v f = replay env (optionPlan env type name skt v) f := by
  have hset : ∀ v, luazmqSktSet env (OptType.strArr.check env) name skt v f =
      replay env (setPlan (OptType.strArr.check env) name skt v) f := fun v =>
    luazmqSktSet_eq env (OptType.strArr.check env) name skt v f
  cases type with
  | strArr =>
    cases v with
    | list l => exact setStrArr_eq env name skt l f
    | str s => exact hset (.str s)
    | num n => exact hset (.num n)
    | bool b => exact hset (.bool b)
    | other => exact hset .other
  | _ => exact luazmqSktSet_eq env (OptType.check env _) name skt v f

theorem eachAddress_eq (call : String → ZmqCall) : ∀ (l : List Elem) (f : Frame),
    eachAddress env call l f = replay env (listPlan call l) f := by
  intro l
  induction l with
  | nil => intro f; exact luazmqPass_eq env f
  | cons e l ih =>
    intro f
    rw [eachAddress, listPlan]
    cases checkString e.val with
    | none => rfl
    | some a => exact zmq_plain env (call a) [.lua (.str a)] ih fun _ => rfl

theorem sktMethod1_eq (call : String → ZmqCall) (v : OptVal) (f : Frame) :
    sktMethod1 env call v f = replay env (addressPlan call v) f := by
  have hscalar : ∀ a, (do if ← zmq env (call a) then luazmqPass else luazmqFail : Lua Frame (List Val)) f =
      replay env (.cons ⟨call a, [], 0⟩ .done) f := fun a =>
    zmq_plain env (call a) [] (luazmqPass_eq env) fun _ => rfl
  cases v with
  | list l => exact eachAddress_eq env call l f
  | str s => exact hscalar s
  | num n => exact hscalar (toString n)
  | bool b => rfl
  | other => rfl

/-! ## The plan of the constructor -/

/-- An entry of the option table: the constructor keeps nil and the error of a failure. -/
def entryPlan (skt : Nat) (entry : OptVal × OptVal) : Plan :=
  match entry.1 with
  | .str name =>
    match sktMethod env ("set_" ++ name) with
    | some (.option opt type) => (optionPlan env type opt skt entry.2).returning fun _ => []
    | _ => .done
  | _ => .done

/-- `apply_options` -/
def optionsPlan (skt : Nat) : Entries → Plan
  | [] => .done
  | entry :: rest => (entryPlan env skt entry).append (optionsPlan skt rest)

/-- The value of a field of the option table. -/
def lookup (entries : Entries) (name : String) : Option OptVal :=
  (entries.find? fun e => e.1 == .str name).map Prod.snd

/-- `apply_bind_connect`: the constructor asks for three results. -/
def bindPlan (call : String → ZmqCall) (v : Option OptVal) : Plan :=
  match v with
  | none => .done
  | some v => (addressPlan call v).returning (LuaStack.adjust .nil 1)

/-- All libzmq calls of the constructor after it has a handle. -/
def socketPlan (skt : Nat) (entries : Entries) : Plan :=
  (optionsPlan env skt entries).append <| (bindPlan (.bind skt) (lookup entries "bind")).append <|
    bindPlan (.connect skt) (lookup entries "connect")

end Methods

end Lzmq.CContext
