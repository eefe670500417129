/-
  The multipart send methods of the C binding on the Lua stack (`luazmq_skt_send_all` and
  `luazmq_skt_sendx_impl` of `zsocket.c`).

  Both send the parts one by one and stop at the first one that cannot be sent.  `sendParts` says so for a
  list of parts, with no stack and no numbering.  They number the parts differently: `send_all` by the keys
  of its table, `sendx` by the slots of the stack, where slot 1 is the socket.  And they leave the stack
  differently: `send_all` pushes each element of the table and pops none.

  `sendAllLoop_spec` and `sendxLoop_spec` give the results, the calls of libzmq and the peak of the stack.
-/
import Lzmq.CApi.Values
import Lzmq.CSocket.Framing

namespace Lzmq.CApi

open Lzmq.CFunction
open Lzmq.LuaStack (Idx)
open Lzmq.CSocket (zmqSndmore)

/-! ## Sending a list of parts -/

/-- How the sending of a list ends; `j` counts the parts before. -/
inductive SendEnd
  | done
  | failed (j errno : Nat)
  | invalid (j : Nat)
deriving DecidableEq, Repr

def SendEnd.after : SendEnd → SendEnd
  | .done => .done
  | .failed j e => .failed (j + 1) e
  | .invalid j => .invalid (j + 1)

/-- One call of libzmq for each part, in order; `c` makes it, and is told whether the part is the last one.
    `alloc` is whether memory is allocated outside of the call. -/
def eachPart (alloc : Bool) (c : Bool → List UInt8 → ZmqCall) :
    List (Option (List UInt8)) → List Fate → List ZmqCall × SendEnd
  | [], _ => ([], .done)
  | none :: _, _ => ([], .invalid 0)
  | some data :: es, fates =>
    match fates.headD .ok with
    | .ok => (c es.isEmpty data :: (eachPart alloc c es fates.tail).1,
      (eachPart alloc c es fates.tail).2.after)
    | .noMemory e => (if alloc then [] else [c es.isEmpty data], .failed 0 e)
    | .fails e => ([c es.isEmpty data], .failed 0 e)

/-- Parts are sent with ZMQ_SNDMORE but for the last one. -/
def sendCall (last : CInt) (isLast : Bool) (data : List UInt8) : ZmqCall :=
  .send data (if isLast then last else zmqSndmore)

def sendParts (alloc : Bool) (last : CInt) : List (Option (List UInt8)) → List Fate →
    List ZmqCall × SendEnd :=
  eachPart alloc (sendCall last)

/-- The valid parts before the first one that is not. -/
def lead (es : List (Option (List UInt8))) : Nat := (es.takeWhile Option.isSome).length

section Head

variable {alloc : Bool} {c : Bool → List UInt8 → ZmqCall} {data : List UInt8}
  {es : List (Option (List UInt8))} {fates : List Fate}

theorem eachPart_ok (h : fates.headD .ok = .ok) : eachPart alloc c (some data :: es) fates =
    (c es.isEmpty data :: (eachPart alloc c es fates.tail).1, (eachPart alloc c es fates.tail).2.after) := by
  rw [eachPart, h]

theorem eachPart_noMemory {e : Nat} (h : fates.headD .ok = .noMemory e) :
    eachPart alloc c (some data :: es) fates = (if alloc then [] else [c es.isEmpty data], .failed 0 e) := by
  rw [eachPart, h]

theorem eachPart_fails {e : Nat} (h : fates.headD .ok = .fails e) :
    eachPart alloc c (some data :: es) fates = ([c es.isEmpty data], .failed 0 e) := by
  rw [eachPart, h]

@[simp] theorem SendEnd.after_eq_done (e : SendEnd) : e.after = .done ↔ e = .done := by
  cases e <;> simp [SendEnd.after]

theorem lead_some : lead (some data :: es) = lead es + 1 := by
  rw [lead, List.takeWhile_cons_of_pos rfl, List.length_cons, lead]

end Head

section Ends

variable (alloc : Bool) (c : Bool → List UInt8 → ZmqCall)

/-- **Where it stops**: at the first part that is not valid at the latest. -/
theorem eachPart_end : ∀ (es : List (Option (List UInt8))) (fates : List Fate),
    ((eachPart alloc c es fates).2 = .done ∧ lead es = es.length) ∨
    (∃ j e, (eachPart alloc c es fates).2 = .failed j e ∧ j < lead es) ∨
    ((eachPart alloc c es fates).2 = .invalid (lead es) ∧ lead es < es.length) := by
  intro es
  induction es with
  | nil => exact fun fates => .inl ⟨rfl, rfl⟩
  | cons e es ih =>
    intro fates
    cases e with
    | none => exact .inr (.inr ⟨rfl, Nat.succ_pos _⟩)
    | some data =>
      rw [lead_some, List.length_cons]
      cases hfate : fates.headD .ok with
      | noMemory e => exact .inr (.inl ⟨0, e, by rw [eachPart_noMemory hfate], Nat.succ_pos _⟩)
      | fails e => exact .inr (.inl ⟨0, e, by rw [eachPart_fails hfate], Nat.succ_pos _⟩)
      | ok =>
        rw [eachPart_ok hfate]
        rcases ih fates.tail with ⟨hend, hlen⟩ | ⟨j, e, hend, hj⟩ | ⟨hend, hlen⟩
        · exact .inl ⟨by rw [hend, SendEnd.after], by rw [hlen]⟩
        · exact .inr (.inl ⟨j + 1, e, by rw [hend, SendEnd.after], Nat.succ_lt_succ hj⟩)
        · exact .inr (.inr ⟨by rw [hend, SendEnd.after], Nat.succ_lt_succ hlen⟩)

/-- Any of the valid parts at the front can be the one that fails. -/
theorem eachPart_fails_at (e : Nat) : ∀ (es : List (Option (List UInt8))) (j : Nat), j < lead es →
    (eachPart alloc c es (List.replicate j .ok ++ [.fails e])).2 = .failed j e := by
  intro es
  induction es with
  | nil => exact fun j hj => absurd hj (Nat.not_lt_zero j)
  | cons x es ih =>
    intro j hj
    cases x with
    | none => exact absurd hj (Nat.not_lt_zero j)
    | some data =>
      cases j with
      | zero => rw [List.replicate_zero, List.nil_append, eachPart_fails rfl]
      | succ j =>
        rw [lead_some] at hj
        rw [List.replicate_succ, List.cons_append, eachPart_ok rfl, List.tail_cons, ih j (by omega),
          SendEnd.after]

/-- Valid parts are all sent when no call fails. -/
theorem eachPart_done : ∀ es : List (Option (List UInt8)), lead es = es.length →
    (eachPart alloc c es []).2 = .done := by
  intro es
  induction es with
  | nil => exact fun _ => rfl
  | cons x es ih =>
    intro hlen
    cases x with
    | none => cases hlen
    | some data =>
      rw [lead_some, List.length_cons] at hlen
      rw [eachPart_ok rfl, List.tail_nil, ih (by omega), SendEnd.after]

end Ends

/-! ## The C functions -/

variable {N : Type} [LuaNumber N]

/-- `ENOTSUP`, on Linux -/
def enotsup : Nat := 95

/-- `INT_MAX` -/
def intMax : Int := 2 ^ 31 - 1

/-- `luazmq_fail` and the number of an element -/
def failAt (i : N) : CCode N Nat := do
  let ret ← luazmqFail
  push (.elem (.num i))
  pure (ret + 1)

/-- The message for part `i` is made and sent. -/
def sendPart (c : ZmqCall) (next : CCode N Nat) (i : Int) : CCode N Nat := do
  if ← zmqMsgInitSize then do
    if ← zmq c then next else failAt (LuaNumber.ofInt i)
  else failAt (LuaNumber.ofInt i)

/-- `for(;i <= n; ++i)` of `luazmq_skt_send_all`, with the number of rounds left. -/
def sendAllLoop (flags : CInt) (n : Int) : Nat → Int → CCode N Nat
  | 0, _ => luazmqPass
  | k + 1, i => do
    luaRawgeti (.abs 2) i
    let data ← luaLChecklstring (.top 1)
    sendPart (.send data (if i = n then flags else zmqSndmore))
      (if i = intMax then undefined /- ++i -/ else sendAllLoop flags n k (i + 1)) i

/-- `n` of `luazmq_skt_send_all` -/
def sendAllEnd (i : CInt) : CCode N CInt := do
  if ← luaIsnoneornil (.abs 5) then do
    let n ← luaObjlen (.abs 2)
    pure (BitVec.ofNat 32 n)
  else do
    let n ← luaLCheckint (.abs 5)
    if i.toInt ≤ n.toInt then pure n else Lua.raise -- invalid range

def luazmqSktSendAll : CCode N Nat := do
  luazmqGetsocket
  let flags ← luaLOptint (.abs 3) 0
  let i ← luaLOptint (.abs 4) 1
  let n ← sendAllEnd i
  if flags &&& ~~~zmqSndmore ≠ 0 then do
    push (.elem .nil)
    luazmqErrorCreate enotsup
    pure 2
  else sendAllLoop flags n.toInt (n.toInt + 1 - i.toInt).toNat i.toInt

/-- `for(i = 2; i<=n; ++i)` of `luazmq_skt_sendx_impl`, with the number of rounds left. -/
def sendxLoop (lastFlag : CInt) (n : Nat) : Nat → Nat → CCode N Nat
  | 0, _ => luazmqPass
  | k + 1, i => do
    let data ← luaLChecklstring (.abs i)
    sendPart (.send data (if i = n then lastFlag else zmqSndmore)) (sendxLoop lastFlag n k (i + 1)) i

def luazmqSktSendxImpl (lastFlag : CInt) : CCode N Nat := do
  luazmqGetsocket
  let n ← gettop
  sendxLoop lastFlag n (n - 1) 2

def luazmqSktSendx : CCode N Nat := luazmqSktSendxImpl 0

def luazmqSktSendxMore : CCode N Nat := luazmqSktSendxImpl zmqSndmore

/-! ## The loops -/

/-- What the functions return, with their numbers for the parts. -/
def SendEnd.reply (number : Nat → N) : SendEnd → Reply (Val N)
  | .done => .ret [.bool true]
  | .failed j e => .ret [.elem .nil, .err e, .elem (.num (number j))]
  | .invalid _ => .raise

/-- Parts numbered from `base` on. -/
def numbered (base : Int) (j : Nat) : N := LuaNumber.ofInt (base + j)

/-- How many values `send_all` has pushed at most, of `k` elements. -/
def SendEnd.height (k : Nat) : SendEnd → Nat
  | .done => k + 1
  | .failed j _ => j + 4
  | .invalid j => j + 1

/-- How many values `sendx` has pushed at most. -/
def SendEnd.heightx : SendEnd → Nat
  | .done => 1
  | .failed _ _ => 3
  | .invalid _ => 0

/-- The elements `i`, … of a table. -/
def elems (t : LuaTable (Elem N)) : Nat → Int → List (Elem N)
  | 0, _ => []
  | k + 1, i => getElem t i :: elems t k (i + 1)

omit [LuaNumber N] in
theorem elems_length (t : LuaTable (Elem N)) : ∀ (k : Nat) (i : Int), (elems t k i).length = k := by
  intro k
  induction k with
  | zero => intro i; rfl
  | succ k ih => intro i; rw [elems, List.length_cons, ih]

omit [LuaNumber N] in
theorem after_reply (number : Nat → N) (e : SendEnd) :
    (SendEnd.after e).reply number = e.reply fun j => number (j + 1) := by
  cases e <;> rfl

theorem numbered_zero (base : Int) : numbered base 0 = (LuaNumber.ofInt base : N) := by
  rw [numbered, Int.natCast_zero, Int.add_zero]

theorem numbered_succ (base : Int) : (numbered (base + 1) : Nat → N) = fun j => numbered base (j + 1) := by
  funext j
  have hj : base + ((j + 1 : Nat) : Int) = base + 1 + j := by omega
  rw [numbered, numbered, hj]

theorem after_height (k : Nat) (e : SendEnd) : (SendEnd.after e).height (k + 1) = e.height k + 1 := by
  cases e <;> rfl

theorem height_pos (k : Nat) (e : SendEnd) : 1 ≤ e.height k := by
  cases e with
  | done => exact Nat.le_add_left 1 k
  | failed j errno => exact Nat.le_add_left 1 (j + 3)
  | invalid j => exact Nat.le_add_left 1 j

section Loop

variable {f : Frame (Val N) Zmq}

omit [LuaNumber N] in
/-- `luazmq_fail` with a number: three values, and a fourth for a moment. -/
theorem outcome_failAt (i : N) (f : Frame (Val N) Zmq) : outcome (failAt i f) =
    some ⟨.ret [.elem .nil, .err f.env.errno, .elem (.num i)], f.env,
      max f.peak (f.stack.length + 3)⟩ := by
  simp [failAt, luazmqFail, luazmqErrorCreate, LuaStack.results]

section SendPart

variable {c : ZmqCall} {next : CCode N Nat} {i : Int}

/-- A part is sent. -/
theorem run_sendPart_ok (h : f.env.fate = .ok) : sendPart c next i f =
    next { f with env := f.env.done c } := by
  simp [sendPart, zmqMsgInitSize, zmq, h]

/-- There is no message for it. -/
theorem run_sendPart_noMemory {e : Nat} (h : f.env.fate = .noMemory e) : sendPart c next i f =
    failAt (LuaNumber.ofInt i) { f with env := { f.env with fates := f.env.fates.tail }.failed e } := by
  simp [sendPart, zmqMsgInitSize, h]

/-- It is not sent. -/
theorem run_sendPart_fails {e : Nat} (h : f.env.fate = .fails e) :
    sendPart c next i f = failAt (LuaNumber.ofInt i) { f with env := (f.env.done c).failed e } := by
  simp [sendPart, zmqMsgInitSize, zmq, h]

end SendPart

/-- How a loop over parts ends. -/
def LoopEnds (f : Frame (Val N) Zmq) (number : Nat → N) (height : SendEnd → Nat) (r : List ZmqCall × SendEnd)
    (e : Ending (Frame (Val N) Zmq) Nat) : Prop :=
  ∃ env, outcome e = some ⟨r.2.reply number, env, max f.peak (f.stack.length + height r.2)⟩ ∧
    env.calls = f.env.calls ++ r.1

omit [LuaNumber N] in
theorem loopEnds_failAt {g : Frame (Val N) Zmq} {number : Nat → N} {height : SendEnd → Nat}
    {calls : List ZmqCall} {x : N} {e : Nat} (hx : number 0 = x) (herrno : g.env.errno = e)
    (hcalls : g.env.calls = f.env.calls ++ calls)
    (hpeak : max g.peak (g.stack.length + 3) = max f.peak (f.stack.length + height (.failed 0 e))) :
    LoopEnds f number height (calls, .failed 0 e) (failAt x g) := by
  refine ⟨g.env, ?_, hcalls⟩
  rw [outcome_failAt, hpeak, herrno, SendEnd.reply, hx]

omit [LuaNumber N] in
/-- A part has been sent before. -/
theorem LoopEnds.after {g : Frame (Val N) Zmq} {number number' : Nat → N} {height height' : SendEnd → Nat}
    {c : ZmqCall} {r : List ZmqCall × SendEnd} {e : Ending (Frame (Val N) Zmq) Nat}
    (h : LoopEnds g number' height r e) (hnumber : number' = fun j => number (j + 1))
    (hcalls : g.env.calls = f.env.calls ++ [c])
    (hpeak : max g.peak (g.stack.length + height r.2) =
      max f.peak (f.stack.length + height' r.2.after)) :
    LoopEnds f number height' (c :: r.1, r.2.after) e := by
  obtain ⟨env, hout, henv⟩ := h
  refine ⟨env, ?_, ?_⟩
  · rw [hout, hpeak, after_reply, hnumber]
  · rw [henv, hcalls, List.append_assoc, List.singleton_append]

/-- One round of `send_all`. -/
theorem sendAllLoop_round (flags : CInt) (n : Int) {t : LuaTable (Elem N)} {k : Nat} {i : Int}
    (ht : LuaStack.get f.stack (.abs 2) = some (.table t)) (hi : i + (k + 1 : Nat) = n + 1) :
    sendAllLoop flags n (k + 1) i f = match (getElem t i).bytes with
      | none => .raise (f.push (.elem (getElem t i)))
      | some data =>
        sendPart (sendCall flags ((elems t k (i + 1)).map Elem.bytes).isEmpty data)
          (if i = intMax then undefined else sendAllLoop flags n k (i + 1)) i
          (f.push (.elem (getElem t i))) := by
  have hlast : (if i = n then flags else zmqSndmore) =
      if ((elems t k (i + 1)).map Elem.bytes).isEmpty then flags else zmqSndmore := by
    cases k with
    | zero => exact if_pos (by omega)
    | succ k => exact if_neg (by omega)
  rw [sendAllLoop, Lua.run_bind, run_luaRawgeti ht, Lua.andThen_ret, Lua.run_bind,
    run_luaLChecklstring (LuaStack.get_top_one _ _)]
  cases (getElem t i).bytes with
  | none => rfl
  | some data => simp only [Lua.andThen_ret, hlast, sendCall]

/-- **The loop of `send_all`** over `k` elements; up to INT_MAX it has no defined end. -/
theorem sendAllLoop_spec (flags : CInt) (n : Int) (hn : n ≤ intMax) (t : LuaTable (Elem N)) :
    ∀ (k : Nat) (i : Int) (f : Frame (Val N) Zmq),
    LuaStack.get f.stack (.abs 2) = some (.table t) → (0 < k → i + k = n + 1) →
    let r := sendParts true flags ((elems t k i).map Elem.bytes) f.env.fates
    if n = intMax ∧ 0 < k ∧ r.2 = .done then sendAllLoop flags n k i f = .abort
    else LoopEnds f (numbered i) (SendEnd.height k) r (sendAllLoop flags n k i f) := by
  intro k
  unfold sendParts
  induction k with
  | zero =>
    intro i f _ _
    refine (if_neg fun h => absurd h.2.1 (Nat.lt_irrefl 0)).mpr ?_
    exact ⟨f.env, rfl, (List.append_nil _).symm⟩
  | succ k ih =>
    intro i f ht hi
    replace hi := hi (Nat.succ_pos k)
    have hget : LuaStack.get (f.push (.elem (getElem t i))).stack (.abs 2) = some (.table t) := by
      rw [push_stack, ← List.singleton_append, LuaStack.get_abs_append _ _
        (LuaStack.le_length_of_get _ _ ht), ht]
    rw [sendAllLoop_round flags n ht hi, elems, List.map_cons]
    cases hbytes : (getElem t i).bytes with
    | none =>
      refine (if_neg fun h => SendEnd.noConfusion h.2.2).mpr ?_
      exact ⟨f.env, rfl, (List.append_nil _).symm⟩
    | some data =>
      -- a part that fails ends the loop, one that is sent leaves its element on the stack
      cases hfate : f.env.fate with
      | noMemory e =>
        rw [eachPart_noMemory hfate]
        refine (if_neg fun h => SendEnd.noConfusion h.2.2).mpr ?_
        simp only [run_sendPart_noMemory (f := f.push _) hfate]
        exact loopEnds_failAt (numbered_zero _) rfl (List.append_nil _).symm (by simp [SendEnd.height])
      | fails e =>
        rw [eachPart_fails hfate]
        refine (if_neg fun h => SendEnd.noConfusion h.2.2).mpr ?_
        simp only [run_sendPart_fails (f := f.push _) hfate]
        exact loopEnds_failAt (numbered_zero _) rfl rfl (by simp [SendEnd.height])
      | ok =>
        rw [eachPart_ok hfate]
        simp only [run_sendPart_ok (f := f.push _) hfate, SendEnd.after_eq_done]
        by_cases hmax : i = intMax
        · -- the last round
          obtain rfl : k = 0 := by omega
          rw [if_pos hmax]
          refine (if_pos ⟨by omega, Nat.one_pos, rfl⟩).mpr rfl
        · rw [if_neg hmax]
          have hrest := ih (i + 1) { f.push (.elem (getElem t i)) with
            env := f.env.done (sendCall flags ((elems t k (i + 1)).map Elem.bytes).isEmpty data) }
            hget (fun _ => by omega)
          have hiff : (n = intMax ∧ 0 < k + 1 ∧ (eachPart true (sendCall flags)
              ((elems t k (i + 1)).map Elem.bytes) f.env.fates.tail).2 = .done) ↔
              n = intMax ∧ 0 < k ∧ (eachPart true (sendCall flags)
                ((elems t k (i + 1)).map Elem.bytes) f.env.fates.tail).2 = .done := by
            refine and_congr_right fun h => and_congr_left fun _ => ?_
            omega
          simp only [hiff]
          by_cases hover : n = intMax ∧ 0 < k ∧ (eachPart true (sendCall flags)
              ((elems t k (i + 1)).map Elem.bytes) f.env.fates.tail).2 = .done
          · exact (if_pos hover).mpr ((if_pos hover).mp hrest)
          · refine (if_neg hover).mpr (LoopEnds.after ((if_neg hover).mp hrest) (numbered_succ _) rfl ?_)
            have hpos := height_pos k (eachPart true (sendCall flags)
              ((elems t k (i + 1)).map Elem.bytes) f.env.fates.tail).2
            rw [after_height, push_peak, push_stack, List.length_cons]
            omega

/-- **The loop of `sendx`** over the slots from `i` on. -/
theorem sendxLoop_spec (lastFlag : CInt) (n : Nat) : ∀ (es : List (Elem N)) (i : Nat) (f : Frame (Val N) Zmq),
    (∀ j e, es[j]? = some e → LuaStack.get f.stack (.abs (i + j)) = some (.elem e)) → i + es.length = n + 1 →
    f.stack.length ≤ f.peak →
    LoopEnds f (numbered i) SendEnd.heightx (sendParts true lastFlag (es.map Elem.bytes) f.env.fates)
      (sendxLoop lastFlag n es.length i f) := by
  intro es
  unfold sendParts
  induction es with
  | nil => exact fun i f _ _ _ => ⟨f.env, rfl, (List.append_nil _).symm⟩
  | cons e es ih =>
    intro i f hslots hi hpeak
    rw [List.length_cons] at hi
    have hlast : (if i = n then lastFlag else zmqSndmore) =
        if (es.map Elem.bytes).isEmpty then lastFlag else zmqSndmore := by
      cases es with
      | nil => rw [List.length_nil] at hi; exact if_pos (by omega)
      | cons e es => rw [List.length_cons] at hi; exact if_neg (by omega)
    have hslot : LuaStack.get f.stack (.abs i) = some (.elem e) := hslots 0 e rfl
    rw [List.length_cons, sendxLoop, Lua.run_bind, run_luaLChecklstring hslot, List.map_cons]
    cases hbytes : e.bytes with
    | none =>
      refine ⟨f.env, ?_, (List.append_nil _).symm⟩
      have hmax : max f.peak (f.stack.length + 0) = f.peak := Nat.max_eq_left hpeak
      exact congrArg (fun p => some (Outcome.mk Reply.raise f.env p)) hmax.symm
    | some data =>
      simp only [Lua.andThen_ret, hlast]
      cases hfate : f.env.fate with
      | noMemory errno =>
        rw [eachPart_noMemory hfate, run_sendPart_noMemory hfate]
        exact loopEnds_failAt (numbered_zero _) rfl (List.append_nil _).symm rfl
      | fails errno =>
        rw [eachPart_fails hfate, run_sendPart_fails hfate]
        exact loopEnds_failAt (numbered_zero _) rfl rfl rfl
      | ok =>
        rw [eachPart_ok hfate, run_sendPart_ok hfate]
        have hrest := ih (i + 1) { f with
          env := f.env.done (sendCall lastFlag (es.map Elem.bytes).isEmpty data) }
          (fun j x hx => by rw [Nat.add_assoc, Nat.add_comm 1 j]; exact hslots (j + 1) x hx) (by omega) hpeak
        refine LoopEnds.after hrest ((congrArg numbered (Int.natCast_succ i)).trans (numbered_succ _)) rfl ?_
        cases (eachPart true (sendCall lastFlag) (es.map Elem.bytes) f.env.fates.tail).2 <;> rfl

end Loop

/-! ## The calls -/

/-- An argument that may be left out. -/
def optElem (v : Option CInt) : Elem N := (v.map ofCInt).getD .nil

/-- `skt:send_all(t, flags, i, n)`, with any arguments. -/
def callSendAllOf (t : LuaTable (Elem N)) (flags i n : Elem N) (env : Zmq) : Option (Outcome (Val N) Zmq) :=
  call luazmqSktSendAll [.skt false, .table t, .elem flags, .elem i, .elem n] env

/-- `skt:send_all(t, flags, i, n)`, with values of type `int`. -/
def callSendAll (t : LuaTable (Elem N)) (flags : CInt) (i? n? : Option CInt) (env : Zmq) :
    Option (Outcome (Val N) Zmq) :=
  callSendAllOf t (ofCInt flags) (optElem i?) (optElem n?) env

/-- What `luaL_optint` reads in an argument. -/
def Elem.Reads (e : Elem N) : Option CInt → Prop
  | none => e = .nil
  | some v => e.int = some v

/-- `skt:sendx(…)`, `skt:sendx_more(…)` -/
def callSendx (lastFlag : CInt) (es : List (Elem N)) (env : Zmq) : Option (Outcome (Val N) Zmq) :=
  call (luazmqSktSendxImpl lastFlag) (.skt false :: es.map .elem) env

/-- The last element that `send_all` sends, from element `i` on. -/
def lastElem (t : LuaTable (Elem N)) (i : CInt) : Option CInt → Option CInt
  | none => some (BitVec.ofNat 32 t.border)
  | some n => if i.toInt ≤ n.toInt then some n else none

/-- Whether `send_all` takes its flags. -/
def FlagsOk (flags : CInt) : Prop := flags &&& ~~~zmqSndmore = 0

instance (flags : CInt) : Decidable (FlagsOk flags) := inferInstanceAs (Decidable (_ = _))

/-- Only bit 1 may be set. -/
theorem flagsOk_iff (flags : CInt) : FlagsOk flags ↔ flags = 0 ∨ flags = zmqSndmore := by
  constructor
  · intro h
    have hall : flags &&& (zmqSndmore ||| ~~~zmqSndmore) = flags := BitVec.and_allOnes
    rw [BitVec.and_or_distrib_left, show flags &&& ~~~zmqSndmore = 0#32 from h, BitVec.or_zero,
      show zmqSndmore = BitVec.twoPow 32 1 from rfl, BitVec.and_twoPow] at hall
    rw [← hall]
    by_cases hbit : flags.getLsbD 1 = true
    · exact .inr (if_pos hbit)
    · exact .inl (if_neg hbit)
  · rintro (rfl | rfl)
    · decide
    · decide

/-- The elements from `i` to `n`. -/
def range (t : LuaTable (Elem N)) (i n : CInt) : List (Elem N) :=
  elems t (n.toInt + 1 - i.toInt).toNat i.toInt

/-- What a call leaves to see when the sending of its parts ends with `r`. -/
def Ends (number : Nat → N) (env : Zmq) (height : SendEnd → Nat) (nargs : Nat) (r : List ZmqCall × SendEnd)
    (o : Option (Outcome (Val N) Zmq)) : Prop :=
  ∃ env', o = some ⟨r.2.reply number, env', nargs + max 2 (height r.2)⟩ ∧ env'.calls = env.calls ++ r.1

section Call

variable {f : Frame (Val N) Zmq}

theorem reads_optElem (v : Option CInt) : (optElem v : Elem N).Reads v := by
  cases v with
  | none => exact rfl
  | some v => exact int_ofCInt v

theorem run_luaIsnoneornil {i : Idx} {e : Elem N} {v : Option CInt} (h : LuaStack.get f.stack i = some (.elem e))
    (hv : e.Reads v) : luaIsnoneornil i f = .ret v.isNone f := by
  cases v with
  | none =>
    obtain rfl : e = .nil := hv
    simp [luaIsnoneornil, h]
  | some v =>
    have hint : e.int = some v := hv
    cases e with
    | nil => cases hint
    | _ => simp [luaIsnoneornil, h]

theorem run_luaLOptint {i : Idx} {e : Elem N} {v : Option CInt} (h : LuaStack.get f.stack i = some (.elem e))
    (hv : e.Reads v) (d : CInt) : luaLOptint i d f = .ret (v.getD d) f := by
  rw [luaLOptint, Lua.run_bind, run_luaIsnoneornil h hv, Lua.andThen_ret]
  cases v with
  | none => rfl
  | some v => exact run_luaLCheckint h hv

theorem run_sendAllEnd {t : LuaTable (Elem N)} {e : Elem N} {v : Option CInt} (i : CInt)
    (ht : LuaStack.get f.stack (.abs 2) = some (.table t))
    (hn : LuaStack.get f.stack (.abs 5) = some (.elem e)) (hv : e.Reads v) : sendAllEnd i f =
      match lastElem t i v with
      | some n => .ret n f
      | none => .raise f := by
  rw [sendAllEnd, Lua.run_bind, run_luaIsnoneornil hn hv, Lua.andThen_ret]
  cases v with
  | none => simp [luaObjlen, ht, lastElem]
  | some n =>
    by_cases hle : i.toInt ≤ n.toInt
    · simp [run_luaLCheckint hn hv, lastElem, hle]
    · simp [run_luaLCheckint hn hv, lastElem, hle]

section SendAll

variable (t : LuaTable (Elem N)) (ef ei en : Elem N)

/-- The frame of `send_all` once it has its socket. -/
def sendAllFrame (env : Zmq) : Frame (Val N) Zmq where
  stack := [.skt false, .table t, .elem ef, .elem ei, .elem en].reverse
  peak := 7
  env := env

variable {t ef ei en} {flags : CInt} {i? n? : Option CInt} (hf : ef.int = some flags) (hi : ei.Reads i?)
  (hn : en.Reads n?)
include hf hi hn

/-- `send_all` after its checks. -/
theorem callSendAllOf_eq (env : Zmq) : callSendAllOf t ef ei en env =
    outcome (match lastElem t (i?.getD 1) n? with
      | none => .raise (sendAllFrame t ef ei en env)
      | some n =>
        (if flags &&& ~~~zmqSndmore ≠ 0 then do
            push (.elem .nil)
            luazmqErrorCreate enotsup
            pure 2
          else sendAllLoop flags n.toInt (n.toInt + 1 - (i?.getD 1).toInt).toNat (i?.getD 1).toInt :
            CCode N Nat) (sendAllFrame t ef ei en env)) := by
  have hslot : ∀ k v, [Val.skt false, .table t, .elem ef, .elem ei, .elem en][k]? =
      some v → LuaStack.get (sendAllFrame t ef ei en env).stack (.abs (k + 1)) = some v :=
    fun k v h => (LuaStack.get_reverse _ k).trans h
  have hskt := run_luazmqGetsocket (f := ⟨(sendAllFrame t ef ei en env).stack, 5, env⟩) (hslot 0 _ rfl)
  have hflags := run_luaLOptint (v := some flags) (hslot 2 _ rfl) hf 0
  have hfirst := run_luaLOptint (hslot 3 _ rfl) hi 1
  have hlast := run_sendAllEnd (i?.getD 1) (hslot 1 _ rfl) (hslot 4 _ rfl) hn
  show outcome (luazmqSktSendAll ⟨(sendAllFrame t ef ei en env).stack, 5, env⟩) = _
  rw [luazmqSktSendAll, Lua.run_bind, hskt, Lua.andThen_ret]
  show outcome (Lua.andThen (luaLOptint (.abs 3) 0 (sendAllFrame t ef ei en env)) _) = _
  rw [hflags, Lua.andThen_ret, Lua.run_bind, hfirst, Lua.andThen_ret, Lua.run_bind, hlast]
  cases lastElem t (i?.getD 1) n? with
  | none => rfl
  | some n => rfl

/-- A range that is refused. -/
theorem callSendAllOf_range (env : Zmq) (h : lastElem t (i?.getD 1) n? = none) :
    callSendAllOf t ef ei en env = some ⟨.raise, env, 7⟩ := by
  rw [callSendAllOf_eq hf hi hn, h]
  rfl

/-- Flags that are refused. -/
theorem callSendAllOf_flags (env : Zmq) {n : CInt} (h : lastElem t (i?.getD 1) n? = some n)
    (hflags : ¬ FlagsOk flags) :
    callSendAllOf t ef ei en env = some ⟨.ret [.elem .nil, .err enotsup], env, 8⟩ := by
  rw [callSendAllOf_eq hf hi hn, h]
  simp only [if_pos (show flags &&& ~~~zmqSndmore ≠ 0 from hflags)]
  rfl

/-- **`send_all`** sends the elements of its range. -/
theorem callSendAllOf_sends (env : Zmq) {n : CInt} (h : lastElem t (i?.getD 1) n? = some n)
    (hflags : FlagsOk flags) {r : List ZmqCall × SendEnd}
    (hr : sendParts true flags ((range t (i?.getD 1) n).map Elem.bytes) env.fates = r) :
    if n.toInt = intMax ∧ range t (i?.getD 1) n ≠ [] ∧ r.2 = .done then callSendAllOf t ef ei en env = none
    else Ends (numbered (i?.getD 1).toInt) env (SendEnd.height (range t (i?.getD 1) n).length) 5 r
      (callSendAllOf t ef ei en env) := by
  have hget : LuaStack.get (sendAllFrame t ef ei en env).stack (.abs 2) = some (.table t) :=
    LuaStack.get_reverse [_, _, _, _, _] 1
  have hmax : n.toInt ≤ intMax := Int.le_sub_one_of_lt BitVec.toInt_lt
  have hspec := sendAllLoop_spec flags n.toInt hmax t (n.toInt + 1 - (i?.getD 1).toInt).toNat
    (i?.getD 1).toInt (sendAllFrame t ef ei en env) hget (fun hk => by omega)
  rw [range] at hr
  rw [show (sendAllFrame t ef ei en env).env = env from rfl, hr] at hspec
  have hlen := elems_length t (n.toInt + 1 - (i?.getD 1).toInt).toNat (i?.getD 1).toInt
  rw [callSendAllOf_eq hf hi hn, h]
  simp only [if_neg (not_not.mpr (show flags &&& ~~~zmqSndmore = 0 from hflags))]
  by_cases hover : n.toInt = intMax ∧ range t (i?.getD 1) n ≠ [] ∧ r.2 = .done
  · refine (if_pos hover).mpr ?_
    have hpos := List.length_pos_iff.mpr hover.2.1
    rw [range, hlen] at hpos
    rw [(if_pos ⟨hover.1, hpos, hover.2.2⟩).mp hspec]
    rfl
  · refine (if_neg hover).mpr ?_
    have hover' : ¬(n.toInt = intMax ∧ 0 < (n.toInt + 1 - (i?.getD 1).toInt).toNat ∧ r.2 = .done) := by
      intro hp
      refine hover ⟨hp.1, ?_, hp.2.2⟩
      rw [← List.length_pos_iff, range, hlen]
      exact hp.2.1
    obtain ⟨env', hout, hcalls⟩ := (if_neg hover').mp hspec
    refine ⟨env', ?_, hcalls⟩
    rw [hout, range, hlen]
    refine congrArg (fun p => some (Outcome.mk _ env' p)) ?_
    show max 7 (5 + _) = 5 + max 2 _
    omega

end SendAll

section Ints

variable {t : LuaTable (Elem N)} {flags : CInt} {i? n? : Option CInt}

theorem callSendAll_range (env : Zmq) (h : lastElem t (i?.getD 1) n? = none) :
    callSendAll t flags i? n? env = some ⟨.raise, env, 7⟩ :=
  callSendAllOf_range (int_ofCInt flags) (reads_optElem i?) (reads_optElem n?) env h

theorem callSendAll_flags (env : Zmq) {n : CInt} (h : lastElem t (i?.getD 1) n? = some n)
    (hflags : ¬ FlagsOk flags) :
    callSendAll t flags i? n? env = some ⟨.ret [.elem .nil, .err enotsup], env, 8⟩ :=
  callSendAllOf_flags (int_ofCInt flags) (reads_optElem i?) (reads_optElem n?) env h hflags

theorem callSendAll_sends (env : Zmq) {n : CInt} (h : lastElem t (i?.getD 1) n? = some n)
    (hflags : FlagsOk flags) {r : List ZmqCall × SendEnd}
    (hr : sendParts true flags ((range t (i?.getD 1) n).map Elem.bytes) env.fates = r) :
    if n.toInt = intMax ∧ range t (i?.getD 1) n ≠ [] ∧ r.2 = .done then callSendAll t flags i? n? env = none
    else Ends (numbered (i?.getD 1).toInt) env (SendEnd.height (range t (i?.getD 1) n).length) 5 r
      (callSendAll t flags i? n? env) :=
  callSendAllOf_sends (int_ofCInt flags) (reads_optElem i?) (reads_optElem n?) env h hflags hr

end Ints

/-- **`sendx`** sends its arguments; it numbers them from 2 on. -/
theorem callSendx_sends (lastFlag : CInt) (es : List (Elem N)) (env : Zmq) :
    Ends (numbered 2) env SendEnd.heightx (es.length + 1)
      (sendParts true lastFlag (es.map Elem.bytes) env.fates) (callSendx lastFlag es env) := by
  have hget : ∀ k, LuaStack.get (Val.skt false :: es.map .elem).reverse (.abs (k + 1)) =
      (Val.skt false :: es.map Val.elem)[k]? := LuaStack.get_reverse _
  have hlen : (Val.skt false :: es.map Val.elem : List (Val N)).reverse.length = es.length + 1 := by simp
  have hskt := run_luazmqGetsocket
    (f := ⟨(Val.skt false :: es.map Val.elem).reverse, es.length + 1, env⟩) (hget 0)
  have hslots : ∀ j e, es[j]? = some e →
      LuaStack.get (Val.skt false :: es.map Val.elem).reverse (.abs (2 + j)) = some (.elem e) := by
    intro j e he
    rw [show 2 + j = (j + 1) + 1 by omega, hget, List.getElem?_cons_succ, List.getElem?_map, he]
    rfl
  have hframe : Frame.reach ⟨(Val.skt false :: es.map Val.elem).reverse, es.length + 1, env⟩ 2 =
      (⟨(Val.skt false :: es.map Val.elem).reverse, es.length + 3, env⟩ : Frame (Val N) Zmq) := by
    have hmax : max (es.length + 1) (es.length + 1 + 2) = es.length + 3 :=
      Nat.max_eq_right (Nat.le_add_right _ 2)
    rw [Frame.reach, hlen, hmax]
  have hfull : (Val.skt false :: es.map Val.elem : List (Val N)).reverse.length ≤ es.length + 3 := by omega
  obtain ⟨env', hout, hcalls⟩ := sendxLoop_spec lastFlag (es.length + 1) es 2
    ⟨(Val.skt false :: es.map Val.elem).reverse, es.length + 3, env⟩ hslots (by omega) hfull
  refine ⟨env', ?_, hcalls⟩
  rw [callSendx, call, luazmqSktSendxImpl, Lua.run_bind, List.length_cons, List.length_map, hskt,
    Lua.andThen_ret,
    hframe, Lua.run_bind, run_gettop, Lua.andThen_ret]
  simp only [hlen, Nat.add_sub_cancel]
  rw [hout]
  refine congrArg (fun p => some (Outcome.mk _ env' p)) ?_
  show max (es.length + 3) (List.length _ + SendEnd.heightx (sendParts true lastFlag (es.map Elem.bytes)
    env.fates).2) = _
  rw [hlen]
  omega

end Call

end Lzmq.CApi
