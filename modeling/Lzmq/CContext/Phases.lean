/-
  The parts of the constructor of sockets, on the Lua stack.

  The code keeps the new object at the bottom of what it pushes and calls every method with it.  `Phase` is
  what a part of the code does to a stack with the object on top: it follows its plan and leaves the object
  on top again, or a call of the plan fails and it leaves its results on top and the object closed, or it
  raises.  `Phase.append` puts parts together; `phase_configure` is all that comes between the new object
  and its registration.
-/
import Lzmq.CContext.Plan

namespace Lzmq.CContext

open Lzmq.LuaStack (Idx)

/-! ## Running the stack -/

section Run

variable (f : Frame)

@[simp] theorem run_push (v : Val) : push v f = .ret () { f with stack := v :: f.stack } := rfl

@[simp] theorem run_pop (n : Nat) : pop n f = .ret () { f with stack := f.stack.drop n } := rfl

@[simp] theorem run_slot (i : Idx) : slot i f = .ret (LuaStack.get f.stack i) f := rfl

@[simp] theorem run_gettop : gettop f = .ret f.stack.length f := rfl

@[simp] theorem run_settop (n : Nat) :
    settop n f = .ret () { f with stack := LuaStack.settop .nil n f.stack } := rfl

@[simp] theorem run_insert (n : Nat) :
    insert n f = .ret () { f with stack := LuaStack.insert n f.stack } := rfl

theorem run_pushvalue {i : Idx} {v : Val} (h : LuaStack.get f.stack i = some v) :
    pushvalue i f = .ret () { f with stack := v :: f.stack } := by
  simp [pushvalue, h]

@[simp] theorem run_getfield (env : Env) (i : Idx) (name : String) : getfield env i name f =
    .ret () { f with stack := field env (LuaStack.get f.stack i) name :: f.stack } := rfl

end Run

variable {env : Env}

/-! ## Method calls -/

/-- The new object: open, counted, and with a handle that has not been closed. -/
structure Live (w : World) (i skt : Nat) : Prop where
  obj : w.objs[i]? = some ⟨skt, false, false, true, .noref⟩
  fresh : skt ∉ w.closes
  count : 1 ≤ w.socketCount

/-- The world after its `close`. -/
def World.dropped (w : World) (i skt : Nat) : World := w.closedAt i ⟨skt, false, false, true, .noref⟩

theorem luazmqSktClose_live {w : World} {i skt : Nat} (h : Live w i skt) :
    luazmqSktClose i w = .ret () (w.dropped i skt) :=
  luazmqSktClose_open h.obj rfl rfl rfl rfl h.fresh h.count

theorem luazmqGetsocket_live {f : Frame} {i skt : Nat} (h : Live f.world i skt) :
    luazmqGetsocket (.skt i) f = .ret skt f := by
  simp [luazmqGetsocket, h.obj]

theorem callMethod_option (env : Env) {f : Frame} {i skt : Nat} (h : Live f.world i skt) (name : String)
    (type : OptType) (v : OptVal) : callMethod env (.option name type) [.skt i, .lua v] f =
      replay env (optionPlan env type name skt v) f := by
  rw [callMethod, Lua.run_bind, luazmqGetsocket_live h, Lua.andThen_ret, setOption_eq]

theorem callMethod_bind {f : Frame} {i skt : Nat} (h : Live f.world i skt) (v : OptVal) :
    callMethod env .bind [.skt i, .lua v] f = replay env (addressPlan (.bind skt) v) f := by
  rw [callMethod, Lua.run_bind, luazmqGetsocket_live h, Lua.andThen_ret, sktMethod1_eq]

theorem callMethod_connect {f : Frame} {i skt : Nat} (h : Live f.world i skt) (v : OptVal) :
    callMethod env .connect [.skt i, .lua v] f = replay env (addressPlan (.connect skt) v) f := by
  rw [callMethod, Lua.run_bind, luazmqGetsocket_live h, Lua.andThen_ret, sktMethod1_eq]

/-- `lua_call` of a method with the object and one value, on top of the stack. -/
theorem luaCall_two (env : Env) {f : Frame} {m : Method} {self v : Val} {st : List Val} (n : Nat)
    (hst : f.stack = v :: self :: .method m :: st) : luaCall env 2 n f =
      Lua.andThen (callMethod env m [self, v] { f with stack := st }) fun results =>
        Lua.modify fun f =>
          { f with stack := LuaStack.pushResults (LuaStack.adjust .nil n results) f.stack } := by
  simp [luaCall, hst, LuaStack.results]

/-- `luazmq_pcall_method(L, "close", 0, 0, 0)` with the object on top. -/
theorem pcall_close (env : Env) {f : Frame} {i skt : Nat} (h : Live f.world i skt) {st : List Val}
    (hst : f.stack = .skt i :: st) : luazmqPcallMethod env "close" 0 f =
      .ret true { f with stack := st, world := f.world.dropped i skt } := by
  have hfield : field env (some (.skt i)) "close" = .method .close := rfl
  have hcall : luaCall env 1 0 { f with stack := .skt i :: .method .close :: st } =
      .ret () { f with stack := st, world := f.world.dropped i skt } := by
    simp [luaCall, LuaStack.results, callMethod, inWorld, luazmqSktClose_live h, luazmqPass,
      LuaStack.adjust, LuaStack.pushResults]
  simp [luazmqPcallMethod, hst, hfield, luaPcall, Lua.run_pcall_ret hcall]

/-! ## Phases -/

/-- What a part of the constructor does that follows a plan, with the object on top of `st`. -/
inductive Phase (env : Env) (i skt : Nat) (st : List Val) (p : Plan) (f : Frame) : Ending Frame Nat → Prop
  | done (log : Log) (hf : followed env.fails f.log p.steps = (log, none))
    (hr : p.raises = false) :
      Phase env i skt st p f (.ret 0 { f with stack := .skt i :: st, log := log })
  | failed (log : Log) (e : Nat) (extra st' : List Val) (n : Nat)
      (hf : followed env.fails f.log p.steps = (log, some (e, extra))) (hn : n ≠ 0)
      (hres : LuaStack.results n st' = .nil :: .err e :: extra) :
      Phase env i skt st p f
        (.ret n { stack := st', world := f.world.dropped i skt, log := log, errno := e })
  | raised (log : Log) (st' : List Val) (hf : followed env.fails f.log p.steps = (log, none))
      (hr : p.raises = true) :
      Phase env i skt st p f (.raise { f with stack := st', log := log })

section Append

variable {i skt : Nat} {st : List Val} {p q : Plan} {f : Frame} {log : Log}

theorem steps_append (hr : p.raises = false) :
    (p.append q).steps = p.steps ++ q.steps ∧ (p.append q).raises = q.raises := by
  rw [Plan.append, hr]
  exact ⟨rfl, rfl⟩

/-- A plan that went through, and what follows it. -/
theorem Phase.after (hf : followed env.fails f.log p.steps = (log, none)) (hr : p.raises = false)
    {r : Ending Frame Nat} (hq : Phase env i skt st q { f with log := log } r) :
    Phase env i skt st (p.append q) f r := by
  obtain ⟨hs, hraises⟩ := steps_append (q := q) hr
  have hfollow : followed env.fails f.log (p.append q).steps = followed env.fails log q.steps := by
    rw [hs, followed_append, hf]
  cases hq with
  | done log' hf' hr' => exact .done log' (hfollow.trans hf') (hraises.trans hr')
  | failed log' e extra st' n hf' hn hres => exact .failed log' e extra st' n (hfollow.trans hf') hn hres
  | raised log' st' hf' hr' => exact .raised log' st' (hfollow.trans hf') (hraises.trans hr')

/-- A plan that failed. -/
theorem followed_append_fail {r : Nat × List Val} (hf : followed env.fails f.log p.steps = (log, some r)) :
    followed env.fails f.log (p.append q).steps = (log, some r) := by
  by_cases hr : p.raises = true
  · rw [Plan.append, if_pos hr, hf]
  · rw [(steps_append (Bool.eq_false_iff.mpr hr)).1, followed_append, hf]

/-- Only the log, the world and `errno` of the frame before a phase matter. -/
theorem Phase.of_stack {st' : List Val} {r : Ending Frame Nat}
    (h : Phase env i skt st p { f with stack := st' } r) : Phase env i skt st p f r := by
  cases h with
  | done log hf hr => exact .done log hf hr
  | failed log e extra st' n hf hn hres => exact .failed log e extra st' n hf hn hres
  | raised log st' hf hr => exact .raised log st' hf hr

/-- Two parts, one after the other. -/
theorem Phase.append {r : Ending Frame Nat} (hp : Phase env i skt st p f r) {x : Lua Frame Nat}
    (hx : ∀ log, Phase env i skt st q { f with stack := .skt i :: st, log := log }
      (x { f with stack := .skt i :: st, log := log })) :
    Phase env i skt st (p.append q) f (Lua.andThen r fun n => if n ≠ 0 then pure n else x) := by
  cases hp with
  | raised log st' hf hr =>
    refine .raised log st' ?_ ?_
    · rw [Plan.append, if_pos hr, hf]
    · rw [Plan.append, if_pos hr, hr]
  | failed log e extra st' n hf hn hres =>
    rw [Lua.andThen_ret, if_pos hn]
    exact .failed log e extra st' n (followed_append_fail hf) hn hres
  | done log hf hr =>
    rw [Lua.andThen_ret, if_neg (fun h => h rfl)]
    exact Phase.after hf hr (Phase.of_stack (hx log))

end Append

/-! ## The options -/

theorem sktMethod_set (env : Env) (name : String) : sktMethod env ("set_" ++ name) = none ∨
    ∃ opt type, sktMethod env ("set_" ++ name) = some (.option opt type) := by
  have hne : ∀ m : String, m.toList.head? ≠ some 's' → "set_" ++ name ≠ m := by
    intro m hm h
    apply hm
    rw [← h, String.toList_append]
    rfl
  rw [sktMethod, if_neg (hne "bind" (by decide)), if_neg (hne "connect" (by decide)),
    if_neg (hne "close" (by decide))]
  cases setters.find? fun s => s.1 == "set_" ++ name with
  | none => exact Or.inl rfl
  | some s =>
    obtain ⟨n, m⟩ := s
    cases m with
    | option opt type =>
      by_cases hdef : env.defined opt = true
      · exact Or.inr ⟨opt, type, if_pos hdef⟩
      · exact Or.inl (if_neg hdef)
    | bind => exact Or.inl rfl
    | connect => exact Or.inl rfl
    | close => exact Or.inl rfl
    | autoclose => exact Or.inl rfl

section Loop

variable {i skt o : Nat} {st : List Val} {prev : Val} {f : Frame}

/-- The end of the table: `lua_next` takes the last key off the stack. -/
theorem optionsLoop_nil (ho : o = st.length + 1) (hst : f.stack = prev :: .skt i :: st) :
    applyOptionsLoop env o prev [] f = .ret 0 { f with stack := .skt i :: st } := by
  simp [applyOptionsLoop, hst, ho]

/-- An entry whose key is no string. -/
theorem optionsLoop_skip (ho : o = st.length + 1) (hst : f.stack = prev :: .skt i :: st) (k v : OptVal)
    (rest : Entries) (hk : ∀ name, k ≠ .str name) : applyOptionsLoop env o prev ((k, v) :: rest) f =
      applyOptionsLoop env o (.lua k) rest { f with stack := .lua k :: .skt i :: st } := by
  cases k with
  | str name => exact absurd rfl (hk name)
  | num n => simp [applyOptionsLoop, hst, ho]
  | bool b => simp [applyOptionsLoop, hst, ho]
  | list l => simp [applyOptionsLoop, hst, ho]
  | other => simp [applyOptionsLoop, hst, ho]

/-- An option that is not known. -/
theorem optionsLoop_unknown (ho : o = st.length + 1) (hst : f.stack = prev :: .skt i :: st) (name : String)
    (v : OptVal) (rest : Entries) (hm : sktMethod env ("set_" ++ name) = none) :
    applyOptionsLoop env o prev ((.str name, v) :: rest) f =
      applyOptionsLoop env o (.lua (.str name)) rest
        { f with stack := .lua (.str name) :: .skt i :: st } := by
  subst ho
  have hfield : field env (some (.skt i)) ("set_" ++ name) = .nil := by rw [field, hm]; rfl
  rw [applyOptionsLoop]
  simp [hst, run_pushvalue, concat, gettable, hfield]

/-- The frame in which the setter of an option runs: the key stays below the call. -/
def optionFrame (f : Frame) (name : String) (i : Nat) (st : List Val) : Frame :=
  { f with stack := .lua (.str name) :: .skt i :: st }

section Setter

variable (ho : o = st.length + 1) (hst : f.stack = prev :: .skt i :: st) (name : String) (v : OptVal)
  (rest : Entries) {m : Method} (hm : sktMethod env ("set_" ++ name) = some m)
include ho hst hm

/-- The setter runs with the object and the value of the entry. -/
theorem optionsLoop_call : applyOptionsLoop env o prev ((.str name, v) :: rest) f =
    Lua.andThen (callMethod env m [.skt i, .lua v] (optionFrame f name i st)) fun results => (do
      Lua.modify fun f => { f with stack := LuaStack.pushResults (LuaStack.adjust .nil 2 results) f.stack }
      if (← slot (.top 2)) = some .nil then do
        pushvalue (.abs o)
        let _ ← luazmqPcallMethod env "close" 0
        pure 2
      else do
        pop 2
        Lua.assert ((← gettop) = o + 1)
        applyOptionsLoop env o (.lua (.str name)) rest : Lua Frame Nat) := by
  subst ho
  have hfield : field env (some (.skt i)) ("set_" ++ name) = .method m := by rw [field, hm]; rfl
  have hlua := luaCall_two env (f := { f with
    stack := .lua v :: .skt i :: .method m :: .lua (.str name) :: .skt i :: st }) 2 rfl
  rw [applyOptionsLoop]
  simp [hst, run_pushvalue, concat, gettable, hfield, hlua, optionFrame, Lua.andThen_andThen]

/-- A setter that passes: the loop goes on. -/
theorem optionsLoop_pass {log : Log}
    (hcall : callMethod env m [.skt i, .lua v] (optionFrame f name i st) =
      .ret [.lua (.bool true)] { optionFrame f name i st with log := log }) :
    applyOptionsLoop env o prev ((.str name, v) :: rest) f =
      applyOptionsLoop env o (.lua (.str name)) rest { optionFrame f name i st with log := log } := by
  rw [optionsLoop_call ho hst name v rest hm, hcall]
  simp [ho, LuaStack.adjust, LuaStack.pushResults, optionFrame]

/-- A setter that fails: the object is closed, and nil and the error are the results. -/
theorem optionsLoop_fail (hlive : Live f.world i skt) {log : Log} {e : Nat} {extra : List Val}
    (hcall : callMethod env m [.skt i, .lua v] (optionFrame f name i st) =
      .ret (.nil :: .err e :: extra) { optionFrame f name i st with log := log, errno := e }) :
    applyOptionsLoop env o prev ((.str name, v) :: rest) f = .ret 2
      { stack := .err e :: .nil :: .lua (.str name) :: .skt i :: st
        world := f.world.dropped i skt, log := log, errno := e } := by
  have hclose := pcall_close env (f := {
    stack := .skt i :: .err e :: .nil :: .lua (.str name) :: .skt i :: st
    world := f.world, log := log, errno := e }) hlive rfl
  rw [optionsLoop_call ho hst name v rest hm, hcall]
  simp [ho, run_pushvalue, LuaStack.adjust, LuaStack.pushResults, optionFrame, hclose]

/-- A setter that raises. -/
theorem optionsLoop_raise {g : Frame}
    (hcall : callMethod env m [.skt i, .lua v] (optionFrame f name i st) = .raise g) :
    applyOptionsLoop env o prev ((.str name, v) :: rest) f = .raise g := by
  rw [optionsLoop_call ho hst name v rest hm, hcall]
  rfl

end Setter

/-- The entry of an option and the entries behind it. -/
theorem phase_setter (ho : o = st.length + 1) (hst : f.stack = prev :: .skt i :: st) (name : String)
    (v : OptVal) (rest : Entries) {opt : String} {type : OptType}
    (hm : sktMethod env ("set_" ++ name) = some (.option opt type)) (hlive : Live f.world i skt)
    (hrest : ∀ log, Phase env i skt st (optionsPlan env skt rest) { f with log := log }
      (applyOptionsLoop env o (.lua (.str name)) rest { optionFrame f name i st with log := log })) :
    Phase env i skt st
      (((optionPlan env type opt skt v).returning fun _ => []).append (optionsPlan env skt rest)) f
      (applyOptionsLoop env o prev ((.str name, v) :: rest) f) := by
  have hcall := callMethod_option env (f := optionFrame f name i st) hlive opt type v
  rw [replay, show (optionFrame f name i st).log = f.log from rfl] at hcall
  cases hfollow : followed env.fails f.log (optionPlan env type opt skt v).steps with
  | mk log r =>
    -- the constructor asks for two results, so what a method returns behind the error is dropped
    have hfollow' : followed env.fails f.log ((optionPlan env type opt skt v).returning fun _ => []).steps =
        (log, r.map fun x => (x.1, [])) :=
      (followed_map env.fails (fun _ => []) _ _).trans (by rw [hfollow])
    rw [hfollow] at hcall
    cases r with
    | some r =>
      rw [optionsLoop_fail ho hst name v rest hm hlive hcall]
      exact .failed log r.1 [] _ 2 (followed_append_fail hfollow') (by decide) rfl
    | none =>
      by_cases hr : (optionPlan env type opt skt v).raises = true
      · simp only [hr, if_true] at hcall
        rw [optionsLoop_raise ho hst name v rest hm hcall]
        refine .raised log _ ?_ ?_
        · rw [Plan.append, if_pos (show Plan.raises (Plan.returning _ _) = true from hr), hfollow']
          rfl
        · rw [Plan.append, if_pos (show Plan.raises (Plan.returning _ _) = true from hr)]
          exact hr
      · simp only [hr, if_false, Bool.false_eq_true] at hcall
        rw [optionsLoop_pass ho hst name v rest hm hcall]
        exact Phase.after hfollow' (Bool.eq_false_iff.mpr hr) (hrest log)

end Loop

theorem append_done (q : Plan) : Plan.append .done q = q := rfl

/-- **The options**: the loop follows the plan of the entries it has before it. -/
theorem phase_optionsLoop {i skt o : Nat} {st : List Val} (ho : o = st.length + 1) : ∀ (entries : Entries)
    (prev : Val) (f : Frame), f.stack = prev :: .skt i :: st → Live f.world i skt →
    Phase env i skt st (optionsPlan env skt entries) f (applyOptionsLoop env o prev entries f) := by
  intro entries
  induction entries with
  | nil =>
    intro prev f hst _
    rw [optionsLoop_nil ho hst]
    exact .done f.log rfl rfl
  | cons entry rest ih =>
    obtain ⟨k, v⟩ := entry
    intro prev f hst hlive
    have hskip : entryPlan env skt (k, v) = .done → applyOptionsLoop env o prev ((k, v) :: rest) f =
        applyOptionsLoop env o (.lua k) rest { f with stack := .lua k :: .skt i :: st } →
        Phase env i skt st (optionsPlan env skt ((k, v) :: rest)) f
          (applyOptionsLoop env o prev ((k, v) :: rest) f) := by
      intro hplan hloop
      rw [optionsPlan, hplan, append_done, hloop]
      exact Phase.of_stack (ih (.lua k) _ rfl hlive)
    by_cases hk : ∃ name, k = .str name
    · obtain ⟨name, rfl⟩ := hk
      rcases sktMethod_set env name with hm | ⟨opt, type, hm⟩
      · refine hskip ?_ (optionsLoop_unknown ho hst name v rest hm)
        simp only [entryPlan, hm]
      · have hplan : entryPlan env skt (.str name, v) =
            (optionPlan env type opt skt v).returning fun _ => [] := by
          simp only [entryPlan, hm]
        rw [optionsPlan, hplan]
        exact phase_setter ho hst name v rest hm hlive fun log =>
          Phase.of_stack (ih (.lua (.str name)) _ rfl hlive)
    · have hne : ∀ name, k ≠ .str name := fun name hkn => hk ⟨name, hkn⟩
      refine hskip ?_ (optionsLoop_skip ho hst k v rest hne)
      cases k with
      | str name => exact absurd rfl (hne name)
      | _ => rfl

theorem phase_applyOptions {i skt opt : Nat} {st : List Val} {f : Frame} (hst : f.stack = .skt i :: st)
    (hlive : Live f.world i skt) : Phase env i skt st
      (optionsPlan env skt ((tableOf (LuaStack.get f.stack (.abs opt))).getD [])) f
        (applyOptions env opt f) := by
  cases htable : tableOf (LuaStack.get f.stack (.abs opt)) with
  | none =>
    have hrun : applyOptions env opt f = .ret 0 { f with stack := .skt i :: st, log := f.log } := by
      simp [applyOptions, htable, ← hst]
    rw [hrun]
    exact .done f.log rfl rfl
  | some entries =>
    have hrun : applyOptions env opt f =
        applyOptionsLoop env (st.length + 1) .nil entries { f with stack := .nil :: .skt i :: st } := by
      simp [applyOptions, htable]
      simp [hst]
    rw [hrun]
    exact Phase.of_stack (phase_optionsLoop rfl entries .nil _ rfl hlive)

/-! ## bind and connect -/

/-- A field of the option table. -/
theorem field_table {v : Option Val} {entries : Entries} (h : tableOf v = some entries) (name : String) :
    field env v name = ((lookup entries name).map Val.lua).getD .nil := by
  have hlist : ∀ l : List Elem,
      lookup (l.zipIdx.map fun e => (OptVal.num (e.2 + 1), e.1.val)) name = none := by
    intro l
    rw [lookup, Option.map_eq_none_iff, List.find?_eq_none]
    intro e he
    obtain ⟨x, -, rfl⟩ := List.mem_map.mp he
    simp
  cases v with
  | none => cases h
  | some v =>
    cases v with
    | table es =>
      cases h
      rw [field, lookup, Option.map_map]
      rfl
    | lua v =>
      cases v with
      | list l =>
        cases h
        rw [hlist]
        rfl
      | bool b => cases h
      | num n => cases h
      | str s => cases h
      | other => cases h
    | nil => cases h
    | ctx => cases h
    | skt j => cases h
    | method m => cases h
    | err e => cases h

section BindConnect

variable {i skt opt : Nat} {st : List Val} {f : Frame} {meth : String} {m : Method} {v : OptVal}

/-- Without an option table, or without the field. -/
theorem bindConnect_nil {entries : Entries}
    (htable : (tableOf (LuaStack.get f.stack (.abs opt))).getD [] = entries)
    (hv : lookup entries meth = none) :
    applyBindConnect env opt meth f = .ret 0 f := by
  cases hopt : tableOf (LuaStack.get f.stack (.abs opt)) with
  | none => simp [applyBindConnect, hopt]
  | some es =>
    obtain rfl : es = entries := by rw [← htable, hopt]; rfl
    have hfield : field env (LuaStack.get f.stack (.abs opt)) meth = .nil := by
      rw [field_table hopt, hv]
      rfl
    have hsettop := LuaStack.settop_length f.stack Val.nil [.nil]
    simp only [List.cons_append, List.nil_append] at hsettop
    simp [applyBindConnect, hopt, hfield, hsettop]

theorem stack_eq (hst : f.stack = .skt i :: st) : { f with stack := .skt i :: st } = f := by rw [← hst]

section Call

variable (hst : f.stack = .skt i :: st) (htable : (tableOf (LuaStack.get f.stack (.abs opt))).isSome)
  (hv : field env (LuaStack.get f.stack (.abs opt)) meth = .lua v) (hm : sktMethod env meth = some m)
include hst htable hv hm

/-- The method runs with the object and the value of the field. -/
theorem bindConnect_call : applyBindConnect env opt meth f =
    Lua.andThen (callMethod env m [.skt i, .lua v] f) fun results => (do
      Lua.modify fun f => { f with stack := LuaStack.pushResults (LuaStack.adjust .nil 3 results) f.stack }
      if (← slot (.top 3)) = some .nil then do
        let n ← gettop
        pushvalue (.abs (st.length + 1))
        let _ ← luazmqPcallMethod env "close" 0
        settop n
        pure 3
      else do
        settop (st.length + 1)
        pure 0 : Lua Frame Nat) := by
  obtain ⟨entries, hopt⟩ := Option.isSome_iff_exists.mp htable
  rw [hst] at hopt hv
  have hmeth : field env (some (.skt i)) meth = .method m := by rw [field, hm]; rfl
  have hlua := luaCall_two env (f := { f with stack := .lua v :: .skt i :: .method m :: .skt i :: st }) 3 rfl
  simp only [stack_eq hst] at hlua
  simp [applyBindConnect, hst, hopt, hv, hmeth, run_pushvalue, hlua, Lua.andThen_andThen]

/-- A method that passes. -/
theorem bindConnect_pass {log : Log} (hcall : callMethod env m [.skt i, .lua v] f =
    .ret [.lua (.bool true)] { f with log := log }) :
    applyBindConnect env opt meth f = .ret 0 { f with log := log } := by
  have hsettop := LuaStack.settop_length (.skt i :: st) Val.nil [.nil, .nil, .lua (.bool true)]
  rw [bindConnect_call hst htable hv hm, hcall]
  simpa [LuaStack.adjust, LuaStack.pushResults, hst] using hsettop

/-- A method that fails: the object is closed, and nil, the error and one more value are the results. -/
theorem bindConnect_fail (hlive : Live f.world i skt) {log : Log} {e : Nat} {extra : List Val}
    (hcall : callMethod env m [.skt i, .lua v] f =
      .ret (.nil :: .err e :: extra) { f with log := log, errno := e }) :
    applyBindConnect env opt meth f = .ret 3
      { stack := LuaStack.pushResults (.nil :: .err e :: LuaStack.adjust .nil 1 extra) (.skt i :: st)
        world := f.world.dropped i skt, log := log, errno := e } := by
  obtain ⟨x, hx⟩ : ∃ x, LuaStack.adjust Val.nil 1 extra = [x] := by
    cases extra with
    | nil => exact ⟨.nil, rfl⟩
    | cons x l => exact ⟨x, rfl⟩
  have hadjust : LuaStack.adjust Val.nil 3 (.nil :: .err e :: extra) = [.nil, .err e, x] := by
    cases extra with
    | nil => cases hx; rfl
    | cons y l => cases hx; rfl
  have hclose := pcall_close env (f := {
    stack := .skt i :: x :: .err e :: .nil :: .skt i :: st
    world := f.world, log := log, errno := e }) hlive rfl
  have hsettop := LuaStack.settop_length (x :: .err e :: .nil :: .skt i :: st) Val.nil []
  rw [bindConnect_call hst htable hv hm, hcall]
  simpa [hadjust, hx, LuaStack.pushResults, hst, run_pushvalue, hclose] using hsettop

/-- A method that raises. -/
theorem bindConnect_raise {g : Frame} (hcall : callMethod env m [.skt i, .lua v] f = .raise g) :
    applyBindConnect env opt meth f = .raise g := by
  rw [bindConnect_call hst htable hv hm, hcall]
  rfl

end Call

/-- **bind and connect** follow their plans. -/
theorem phase_bindConnect {call : String → ZmqCall} (hm : sktMethod env meth = some m)
    (hcall : ∀ {f : Frame}, Live f.world i skt → ∀ v,
      callMethod env m [.skt i, .lua v] f = replay env (addressPlan call v) f)
    (hst : f.stack = .skt i :: st) (hlive : Live f.world i skt) : Phase env i skt st
      (bindPlan call (lookup ((tableOf (LuaStack.get f.stack (.abs opt))).getD []) meth)) f
      (applyBindConnect env opt meth f) := by
  cases hv : lookup ((tableOf (LuaStack.get f.stack (.abs opt))).getD []) meth with
  | none =>
    rw [bindConnect_nil rfl hv, ← stack_eq hst]
    exact .done f.log rfl rfl
  | some v =>
    obtain ⟨entries, htable⟩ : ∃ entries, tableOf (LuaStack.get f.stack (.abs opt)) = some entries := by
      cases htable : tableOf (LuaStack.get f.stack (.abs opt)) with
      | none => rw [htable] at hv; cases hv
      | some entries => exact ⟨entries, rfl⟩
    have hfield : field env (LuaStack.get f.stack (.abs opt)) meth = .lua v := by
      rw [htable] at hv
      rw [field_table htable]
      exact congrArg (fun o => (o.map Val.lua).getD .nil) hv
    have hsome : (tableOf (LuaStack.get f.stack (.abs opt))).isSome := by rw [htable]; rfl
    have hrun := hcall hlive v
    rw [replay] at hrun
    cases hfollow : followed env.fails f.log (addressPlan call v).steps with
    | mk log r =>
      have hfollow' : followed env.fails f.log (bindPlan call (some v)).steps =
          (log, r.map fun x => (x.1, LuaStack.adjust .nil 1 x.2)) :=
        (followed_map env.fails (LuaStack.adjust .nil 1) _ _).trans (by rw [hfollow])
      rw [hfollow] at hrun
      cases r with
      | some r =>
        rw [bindConnect_fail hst hsome hfield hm hlive hrun]
        refine .failed log r.1 _ _ 3 hfollow' (by decide) ?_
        cases r.2 with
        | nil => rfl
        | cons x l => rfl
      | none =>
        by_cases hr : (addressPlan call v).raises = true
        · simp only [hr, if_true] at hrun
          rw [bindConnect_raise hst hsome hfield hm hrun]
          exact .raised log f.stack hfollow' hr
        · simp only [hr, if_false, Bool.false_eq_true] at hrun
          have hstack : { f with log := log } =
              { f with stack := .skt i :: st, log := log } := by rw [← hst]
          rw [bindConnect_pass hst hsome hfield hm hrun, hstack]
          exact .done log hfollow' (Bool.eq_false_iff.mpr hr)

end BindConnect

/-! ## All parts -/

/-- `apply_options` and `apply_bind_connect`, in a row. -/
def configure (env : Env) (opt : Nat) : Lua Frame Nat := do
  let n ← applyOptions env opt
  if n ≠ 0 then pure n
  else do
    let n ← applyBindConnect env opt "bind"
    if n ≠ 0 then pure n else applyBindConnect env opt "connect"

theorem phase_configure (env : Env) (opt : Nat) {i skt : Nat} {st : List Val} {f : Frame}
    (hst : f.stack = .skt i :: st) (hlive : Live f.world i skt) : Phase env i skt st
      (socketPlan env skt ((tableOf (LuaStack.get f.stack (.abs opt))).getD [])) f (configure env opt f) := by
  refine Phase.append (phase_applyOptions hst hlive) fun log => ?_
  rw [hst]
  refine Phase.append (phase_bindConnect (f := { f with stack := .skt i :: st, log := log })
    rfl callMethod_bind rfl hlive) fun log' => ?_
  exact phase_bindConnect (f := { f with stack := .skt i :: st, log := log' })
    rfl callMethod_connect rfl hlive

end Lzmq.CContext
