/-
  How far the C functions that take a table fill their stack (`luazmq_skt_send_all` and
  `luazmq_skt_set_str_arr` of `zsocket.c`).

  Lua guarantees a C function room for LUA_MINSTACK (20) values besides its arguments, and none of the two
  asks for more with `lua_checkstack`.  Each leaves the elements it has read on the stack.  An element that
  fails finds the ones before it there, and three more values are returned: so the tables that fit whatever
  libzmq answers are those with at most 17 valid elements at the front (`stack_fits_iff`).
-/
import Lzmq.CApi.Send
import Lzmq.CApi.Options

namespace Lzmq.CApi

open Lzmq.CFunction
open Lzmq.LuaStack (Idx)

variable {N : Type} [LuaNumber N]

/-! ## Options that are lists of strings -/

/-- `for (i = 1; i <= tlen; i++)` of `luazmq_skt_set_str_arr`, with the number of rounds left. -/
def setStrArrLoop (optionName : CInt) : Nat → Int → CCode N Nat
  | 0, _ => luazmqPass
  | k + 1, i => do
    luaRawgeti (.abs 2) i
    let optionValue ← luaLChecklstring (.top 1)
    if ← zmq (.setsockopt optionName (.str optionValue)) then setStrArrLoop optionName k (i + 1)
    else failAt (LuaNumber.ofReal i)

/-- `lua_istable` -/
def luaIstable (i : Idx) : CCode N Bool := do
  match ← slot i with
  | some (.table _) => pure true
  | _ => pure false

/-- `luazmq_skt_set_str_arr`, which sets ZMQ_SUBSCRIBE, ZMQ_UNSUBSCRIBE and ZMQ_TCP_ACCEPT_FILTER. -/
def luazmqSktSetStrArr (optionName : CInt) : CCode N Nat := do
  if ← luaIstable (.abs 2) then do
    luazmqGetsocket
    let tlen ← luaObjlen (.abs 2)
    setStrArrLoop optionName tlen 1
  else luazmqSktSetStr optionName

/-- `skt:subscribe(t)`, … -/
def callSetStrArr (optionName : CInt) (t : LuaTable (Elem N)) (env : Zmq) : Option (Outcome (Val N) Zmq) :=
  call (luazmqSktSetStrArr optionName) [.skt false, .table t] env

/-- One string is set. -/
def setCall (optionName : CInt) (_ : Bool) (v : List UInt8) : ZmqCall := .setsockopt optionName (.str v)

def realNumbered (base : Int) (j : Nat) : N := LuaNumber.ofReal (base + j)

theorem realNumbered_zero (base : Int) : realNumbered base 0 = (LuaNumber.ofReal base : N) := by
  rw [realNumbered, Int.natCast_zero, Int.add_zero]

theorem realNumbered_succ (base : Int) :
    (realNumbered (base + 1) : Nat → N) = fun j => realNumbered base (j + 1) := by
  funext j
  have hj : base + ((j + 1 : Nat) : Int) = base + 1 + j := by omega
  rw [realNumbered, realNumbered, hj]

/-- **The loop of `set_str_arr`** over `k` elements. -/
theorem setStrArrLoop_spec (optionName : CInt) (t : LuaTable (Elem N)) : ∀ (k : Nat) (i : Int)
    (f : Frame (Val N) Zmq), LuaStack.get f.stack (.abs 2) = some (.table t) →
    LoopEnds f (realNumbered i) (SendEnd.height k)
      (eachPart false (setCall optionName) ((elems t k i).map Elem.bytes) f.env.fates)
      (setStrArrLoop optionName k i f) := by
  intro k
  induction k with
  | zero => exact fun i f _ => ⟨f.env, rfl, (List.append_nil _).symm⟩
  | succ k ih =>
    intro i f ht
    have hget : LuaStack.get (f.push (.elem (getElem t i))).stack (.abs 2) = some (.table t) := by
      rw [push_stack, ← List.singleton_append, LuaStack.get_abs_append _ _
        (LuaStack.le_length_of_get _ _ ht), ht]
    rw [setStrArrLoop, Lua.run_bind, run_luaRawgeti ht, Lua.andThen_ret, Lua.run_bind,
      run_luaLChecklstring (LuaStack.get_top_one _ _), elems, List.map_cons]
    cases hbytes : (getElem t i).bytes with
    | none => exact ⟨f.env, rfl, (List.append_nil _).symm⟩
    | some v =>
      simp only [Lua.andThen_ret, Lua.run_bind]
      cases hfate : f.env.fate with
      | noMemory e =>
        rw [eachPart_noMemory hfate, run_zmq_fails _ (f := f.push _) (by simp [hfate])]
        refine loopEnds_failAt (realNumbered_zero i) ?_ (called_calls _ _) (by simp [SendEnd.height])
        simp [Zmq.called, hfate, Zmq.failed]
      | fails e =>
        rw [eachPart_fails hfate, run_zmq_fails _ (f := f.push _) (by simp [hfate])]
        refine loopEnds_failAt (realNumbered_zero i) ?_ (called_calls _ _) (by simp [SendEnd.height])
        simp [Zmq.called, hfate, Zmq.failed]
      | ok =>
        rw [eachPart_ok hfate, run_zmq_ok _ (f := f.push _) hfate]
        have hrest := ih (i + 1) { f.push (.elem (getElem t i)) with
          env := f.env.called (.setsockopt optionName (.str v)) } hget
        rw [called_fates] at hrest
        refine LoopEnds.after hrest (realNumbered_succ i) (called_calls _ _) ?_
        have hpos := height_pos k (eachPart false (setCall optionName)
          ((elems t k (i + 1)).map Elem.bytes) f.env.fates.tail).2
        rw [after_height, push_peak, push_stack, List.length_cons]
        omega

/-- **`set_str_arr`** sets the strings of its table. -/
theorem callSetStrArr_sets (optionName : CInt) (t : LuaTable (Elem N)) (env : Zmq) :
    Ends (realNumbered 1) env (SendEnd.height t.border) 2
      (eachPart false (setCall optionName) ((elems t t.border 1).map Elem.bytes) env.fates)
      (callSetStrArr optionName t env) := by
  obtain ⟨env', hout, hcalls⟩ :=
    setStrArrLoop_spec optionName t t.border 1 ⟨[.table t, .skt false], 4, env⟩ rfl
  refine ⟨env', Eq.trans hout ?_, hcalls⟩
  refine congrArg (fun p => some (Outcome.mk _ env' p)) ?_
  show max 4 (2 + SendEnd.height t.border (eachPart false (setCall optionName)
    ((elems t t.border 1).map Elem.bytes) env.fates).2) = 2 + max 2 _
  omega

/-! ## The bound -/

/-- A call with `nargs` arguments that stays in the room it has. -/
def Fits (nargs : Nat) (o : Option (Outcome (Val N) Zmq)) : Prop :=
  ∃ r, o = some r ∧ r.peak ≤ nargs + luaMinstack

omit [LuaNumber N] in
theorem fits_iff {number : Nat → N} {env : Zmq} {height : SendEnd → Nat} {nargs : Nat}
    {r : List ZmqCall × SendEnd} {o : Option (Outcome (Val N) Zmq)} (h : Ends number env height nargs r o) :
    Fits nargs o ↔ height r.2 ≤ luaMinstack := by
  obtain ⟨env', rfl, -⟩ := h
  rw [luaMinstack]
  constructor
  · rintro ⟨o', ho, hle⟩
    have hpeak : nargs + max 2 (height r.2) = o'.peak := congrArg Outcome.peak (Option.some.inj ho)
    rw [luaMinstack] at hle
    omega
  · intro hle
    refine ⟨_, rfl, ?_⟩
    show nargs + max 2 (height r.2) ≤ nargs + 20
    omega

/-- **The heights that are reached** fit for all fates iff no element after the 17th can fail. -/
theorem height_fits_iff (alloc : Bool) (c : Bool → List UInt8 → ZmqCall) (es : List (Option (List UInt8))) :
    (∀ fates, (eachPart alloc c es fates).2.height es.length ≤ luaMinstack) ↔ lead es ≤ 17 := by
  rw [luaMinstack]
  constructor
  · intro h
    refine Nat.le_of_not_lt fun hlead => ?_
    have hfull := h (List.replicate 17 .ok ++ [.fails 1])
    rw [eachPart_fails_at alloc c 1 es 17 hlead, SendEnd.height] at hfull
    omega
  · intro hlead fates
    rcases eachPart_end alloc c es fates with ⟨hend, hlen⟩ | ⟨j, e, hend, hj⟩ | ⟨hend, hlen⟩
    · rw [hend, SendEnd.height]
      omega
    · rw [hend, SendEnd.height]
      omega
    · rw [hend, SendEnd.height]
      omega

theorem lead_of_done {alloc : Bool} {c : Bool → List UInt8 → ZmqCall} {es : List (Option (List UInt8))}
    {fates : List Fate} (h : (eachPart alloc c es fates).2 = .done) : lead es = es.length := by
  rcases eachPart_end alloc c es fates with ⟨-, hlen⟩ | ⟨j, e, hend, -⟩ | ⟨hend, -⟩
  · exact hlen
  · rw [h] at hend
    cases hend
  · rw [h] at hend
    cases hend

/-- What `send_all` has to be given: at most 17 elements before one that is not valid, and not a range of
    valid elements up to INT_MAX, for which the loop has no defined end. -/
def SendAllSafe (t : LuaTable (Elem N)) (flags : CInt) (i? n? : Option CInt) : Prop :=
  ∀ n, lastElem t (i?.getD 1) n? = some n → FlagsOk flags →
    lead ((range t (i?.getD 1) n).map Elem.bytes) ≤ 17 ∧
    ¬(n.toInt = intMax ∧ range t (i?.getD 1) n ≠ [] ∧
      lead ((range t (i?.getD 1) n).map Elem.bytes) = (range t (i?.getD 1) n).length)

theorem sendAll_fits_iff (t : LuaTable (Elem N)) (flags : CInt) (i? n? : Option CInt) :
    (∀ env, Fits 5 (callSendAll t flags i? n? env)) ↔ SendAllSafe t flags i? n? := by
  cases hlast : lastElem t (i?.getD 1) n? with
  | none =>
    refine iff_of_true (fun env => ⟨_, callSendAll_range _ hlast, show 7 ≤ 25 by decide⟩) fun n hn => ?_
    rw [hlast] at hn
    cases hn
  | some n =>
    by_cases hflags : FlagsOk flags
    · have hlen : ((range t (i?.getD 1) n).map Elem.bytes).length = (range t (i?.getD 1) n).length :=
        List.length_map _
      have hheight := height_fits_iff true (sendCall flags) ((range t (i?.getD 1) n).map Elem.bytes)
      rw [hlen] at hheight
      constructor
      · intro h m hm _
        obtain rfl : n = m := Option.some.inj (hlast.symm.trans hm)
        refine ⟨hheight.mp fun fates => ?_, fun hover => ?_⟩
        · have hsends := callSendAll_sends { Zmq.idle with fates := fates } hlast hflags rfl
          have hfits := h { Zmq.idle with fates := fates }
          split at hsends
          · rw [hsends] at hfits
            obtain ⟨o, ho, -⟩ := hfits
            cases ho
          · exact (fits_iff hsends).mp hfits
        · have hsends := callSendAll_sends Zmq.idle hlast hflags rfl
          have hdone := eachPart_done true (sendCall flags) _ (hover.2.2.trans hlen.symm)
          rw [if_pos ⟨hover.1, hover.2.1, hdone⟩] at hsends
          obtain ⟨o, ho, -⟩ := h Zmq.idle
          rw [hsends] at ho
          cases ho
      · intro hsafe env
        obtain ⟨hlead, hover⟩ := hsafe n hlast hflags
        have hsends := callSendAll_sends env hlast hflags rfl
        rw [if_neg fun h => hover ⟨h.1, h.2.1, (lead_of_done h.2.2).trans hlen⟩] at hsends
        exact (fits_iff hsends).mpr (hheight.mpr hlead env.fates)
    · exact iff_of_true (fun env => ⟨_, callSendAll_flags _ hlast hflags, show 8 ≤ 25 by decide⟩)
        fun n _ h => absurd h hflags

/-- **The stack** holds, whatever libzmq answers, iff the table does not start with more than 17 valid
    elements. -/
theorem stack_fits_iff :
    (∀ (t : LuaTable (Elem N)) flags i? n?,
      (∀ env, Fits 5 (callSendAll t flags i? n? env)) ↔ SendAllSafe t flags i? n?) ∧
    ∀ optionName (t : LuaTable (Elem N)),
      (∀ env, Fits 2 (callSetStrArr optionName t env)) ↔ lead ((elems t t.border 1).map Elem.bytes) ≤ 17 := by
  refine ⟨sendAll_fits_iff, fun optionName t => ?_⟩
  have hlen : ((elems t t.border 1).map Elem.bytes).length = t.border := by rw [List.length_map, elems_length]
  have hheight := height_fits_iff false (setCall optionName) ((elems t t.border 1).map Elem.bytes)
  rw [hlen] at hheight
  rw [← hheight]
  constructor
  · exact fun h fates =>
      (fits_iff (callSetStrArr_sets optionName t { Zmq.idle with fates := fates })).mp (h _)
  · exact fun h env => (fits_iff (callSetStrArr_sets optionName t env)).mpr (h env.fates)

/-- `n` empty strings -/
def emptyStrings (n : Nat) : LuaTable (Elem Int) where
  get i := if 1 ≤ i ∧ i ≤ n then some (.str []) else none
  top := n
  above i hi := if_neg fun h => by omega

/-- Twenty subscriptions, or twenty parts, push 21 values. -/
theorem twenty_overflow : ¬ Fits 2 (callSetStrArr 6 (emptyStrings 20) Zmq.idle) ∧
    ¬ Fits 5 (callSendAll (emptyStrings 20) 0 none none Zmq.idle) := by
  have hborder : (emptyStrings 20).border = 20 := by decide
  have hvalid : lead ((elems (emptyStrings 20) 20 1).map Elem.bytes) = 20 := by decide
  have hdone : ∀ alloc c, (eachPart alloc c ((elems (emptyStrings 20) 20 1).map Elem.bytes) []).2 = .done :=
    fun alloc c => eachPart_done alloc c _ hvalid
  constructor
  · rw [fits_iff (callSetStrArr_sets 6 (emptyStrings 20) Zmq.idle), hborder]
    show ¬ SendEnd.height 20 (eachPart _ _ _ []).2 ≤ 20
    rw [hdone]
    decide
  · have hlast : lastElem (emptyStrings 20) ((none : Option CInt).getD 1) none = some 20 := by
      rw [lastElem, hborder]
      rfl
    have hsends := callSendAll_sends Zmq.idle hlast (show FlagsOk 0 by decide) rfl
    rw [if_neg fun h => absurd h.1 (by decide)] at hsends
    rw [fits_iff hsends]
    show ¬ SendEnd.height (elems (emptyStrings 20) 20 1).length
      (eachPart _ _ ((elems (emptyStrings 20) 20 1).map Elem.bytes) []).2 ≤ 20
    rw [hdone, elems_length]
    decide

end Lzmq.CApi
