/-
  Part lists with a part that cannot be sent, in both bindings.

  A call that raises an error is meant to have sent nothing, since the parts before the bad one would be
  glued to the next message.  Both bindings check a part when its turn comes: C by `luaL_checklstring` in
  the loop, FFI by `assert` and the length operator.  So the error comes too late unless the first part is
  the bad one (`rejects_iff`).  `sendv` of the C binding shows that it can be done: it measures all parts
  before it sends.

  Flags and positions are whole numbers of Lua.  FFI takes them as they are, C casts them to `int`, and so may
  go through another range or refuse it.
-/
import Lzmq.CApi.StackBound
import Lzmq.FfiSocket.Send

namespace Lzmq.Sends

open Lzmq.CApi
open Lzmq.CFunction (Reply Outcome luaMinstack)
open Lzmq.CSocket (zmqSndmore)
open Lzmq.FfiSocket (Host ffiBytes sends Taken sndmore)

variable {N : Type} [LuaNumber N]

/-! ## Calls -/

def wholeElem (x : Whole) : Elem N := .num (LuaNumber.ofInt x.val)

def wholeZero : Whole := ⟨0, by decide⟩

def wholeSndmore : Whole := ⟨FfiSocket.sndmore, by decide⟩

/-- A call of a method that sends several parts. -/
inductive SendCall (N : Type)
  | sendAll (t : LuaTable (Elem N)) (flags : Whole) (i? n? : Option Whole)
  | sendx (es : List (Elem N))
  | sendxMore (es : List (Elem N))

/-- The parts that the call is asked to send. -/
def SendCall.parts : SendCall N → List (Elem N)
  | .sendAll t _ i? n? =>
    elems t (((n?.map Whole.val).getD t.border) + 1 - (i?.map Whole.val).getD 1).toNat ((i?.map Whole.val).getD 1)
  | .sendx es => es
  | .sendxMore es => es

def SendCall.flags : SendCall N → Whole
  | .sendAll _ flags _ _ => flags
  | .sendx _ => wholeZero
  | .sendxMore _ => wholeSndmore

inductive Binding
  | c
  | ffi (host : Host)

/-- The reply of a C function with `nargs` arguments and its calls of libzmq; nothing when its behaviour is
    undefined, as it is when it overruns its stack. -/
def view (nargs : Nat) (o : Option (Outcome (Val N) Zmq)) : Option (Reply (Val N) × List ZmqCall) :=
  o.bind fun o => if o.peak ≤ nargs + luaMinstack then some (o.reply, o.env.calls) else none

/-- An argument that may be left out. -/
def optWhole (v : Option Whole) : Elem N := (v.map wholeElem).getD .nil

/-- What a call returns and what it does to libzmq. -/
def Binding.run : Binding → SendCall N → Zmq → Option (Reply (Val N) × List ZmqCall)
  | .c, .sendAll t flags i? n?, z => view 5 (callSendAllOf t (wholeElem flags) (optWhole i?) (optWhole n?) z)
  | .c, .sendx es, z => view (es.length + 1) (callSendx 0 es z)
  | .c, .sendxMore es, z => view (es.length + 1) (callSendx zmqSndmore es z)
  | .ffi host, .sendAll t flags i? n?, z =>
    sends (FfiSocket.sendAll host t flags.val (i?.map Whole.val) (n?.map Whole.val) z)
  | .ffi host, .sendx es, z => sends (FfiSocket.sendx host es z)
  | .ffi host, .sendxMore es, z => sends (FfiSocket.sendxMore host es z)

/-- The first position, as C has it. -/
def firstInt (i? : Option Whole) : CInt := (i?.map Whole.int).getD 1

/-- The parts that the binding goes through: C keeps positions, and the length of the table, in an `int`. -/
def Binding.range : Binding → SendCall N → List (Elem N)
  | .c, .sendAll t _ i? n? =>
    match lastElem t (firstInt i?) (n?.map Whole.int) with
    | some n => CApi.range t (firstInt i?) n
    | none => []
  | _, call => call.parts

/-- The range ends before it begins. -/
def Binding.Refuses : Binding → SendCall N → Prop
  | .c, .sendAll t _ i? n? => lastElem t (firstInt i?) (n?.map Whole.int) = none
  | .ffi _, .sendAll t _ i? n? => (n?.map Whole.val).getD t.border < (i?.map Whole.val).getD 1
  | _, _ => False

/-- The binding takes the flags. -/
def Binding.Takes (call : SendCall N) : Binding → Prop
  | .c => FlagsOk call.flags.int
  | .ffi _ => Taken call.flags.val

/-- The parts that the binding takes: FFI does not take numbers. -/
def Binding.bytes : Binding → Elem N → Option (List UInt8)
  | .c => Elem.bytes
  | .ffi _ => ffiBytes

/-! ## What a call does -/

omit [LuaNumber N] in
/-- Nothing is sent and an error is raised iff the first part is not valid. -/
theorem eachPart_raises_iff (alloc : Bool) (c : Bool → List UInt8 → ZmqCall) (es : List (Option (List UInt8)))
    (fates : List Fate) (number : Nat → N) (calls : List ZmqCall) :
    some (((eachPart alloc c es fates).2.reply number : Reply (Val N)),
      calls ++ (eachPart alloc c es fates).1) =
      some (.raise, calls) ↔ es.head? = some none := by
  rw [Option.some.injEq, Prod.mk.injEq, List.append_right_eq_self]
  cases es with
  | nil => exact iff_of_false (fun h => by simp [eachPart, SendEnd.reply] at h) (by simp)
  | cons e es =>
    cases e with
    | none => exact iff_of_true ⟨rfl, rfl⟩ rfl
    | some data =>
      refine iff_of_false (fun h => ?_) (by simp)
      cases hfate : fates.headD .ok with
      | ok => rw [eachPart_ok hfate] at h; cases h.2
      | noMemory e => rw [eachPart_noMemory hfate] at h; cases h.1
      | fails e => rw [eachPart_fails hfate] at h; cases h.2

omit [LuaNumber N] in
theorem view_ends {number : Nat → N} {env : Zmq} {height : SendEnd → Nat} {nargs : Nat}
    {r : List ZmqCall × SendEnd} {o : Option (Outcome (Val N) Zmq)} (h : Ends number env height nargs r o) :
    view nargs o = if height r.2 ≤ luaMinstack then some (r.2.reply number, env.calls ++ r.1) else none := by
  have hfits := fits_iff h
  obtain ⟨env', rfl, hcalls⟩ := h
  show (if nargs + max 2 (height r.2) ≤ nargs + luaMinstack then _ else _) = _
  rw [← hcalls]
  exact if_congr (by rw [← hfits]; exact ⟨fun hle => ⟨_, rfl, hle⟩, fun ⟨_, ho, hle⟩ => by cases ho; exact hle⟩)
    rfl rfl

omit [LuaNumber N] in
/-- `sendx` leaves nothing on its stack. -/
theorem view_heightx {number : Nat → N} {env : Zmq} {nargs : Nat} {r : List ZmqCall × SendEnd}
    {o : Option (Outcome (Val N) Zmq)} (h : Ends number env SendEnd.heightx nargs r o) :
    view nargs o = some (r.2.reply number, env.calls ++ r.1) := by
  have hle : r.2.heightx ≤ luaMinstack := by
    rw [luaMinstack]
    cases r.2 <;> simp [SendEnd.heightx]
  rw [view_ends h, if_pos hle]

omit [LuaNumber N] in
theorem head_map_eq_none {check : Elem N → Option (List UInt8)} {es : List (Elem N)} :
    (es.map check).head? = some none ↔ ∃ e, es.head? = some e ∧ check e = none := by
  rw [List.head?_map, Option.map_eq_some_iff]

omit [LuaNumber N] in
/-- A function that leaves its parts on the stack. -/
theorem view_raises_iff {number : Nat → N} {env : Zmq} {nargs k : Nat} {alloc : Bool}
    {c : Bool → List UInt8 → ZmqCall} {es : List (Option (List UInt8))} {o : Option (Outcome (Val N) Zmq)}
    (h : Ends number env (SendEnd.height k) nargs (eachPart alloc c es env.fates) o) :
    view nargs o = some (.raise, env.calls) ↔ es.head? = some none := by
  rw [view_ends h]
  by_cases hle : (eachPart alloc c es env.fates).2.height k ≤ luaMinstack
  · rw [if_pos hle]
    exact eachPart_raises_iff alloc c es env.fates number env.calls
  · -- the first part is not the one that finds no room
    rw [if_neg hle]
    refine iff_of_false (fun h => by cases h) fun hhead => hle ?_
    cases es with
    | nil => cases hhead
    | cons e es =>
      obtain rfl : e = none := Option.some.inj hhead
      exact Nat.le_add_left 1 19

theorem int_wholeElem (x : Whole) : (wholeElem x : Elem N).int = some x.int := LuaNumber.toInt_ofInt x.val x.exact

theorem reads_optWhole (v : Option Whole) : (optWhole v : Elem N).Reads (v.map Whole.int) := by
  cases v with
  | none => exact rfl
  | some x => exact int_wholeElem x

section Raises

variable {t : LuaTable (Elem N)} {flags : Whole} {i? n? : Option Whole} (z : Zmq)

/-- `send_all` of the C binding. -/
theorem runC_raises_iff : Binding.c.run (.sendAll t flags i? n? : SendCall N) z = some (.raise, z.calls) ↔
    Binding.c.Refuses (.sendAll t flags i? n? : SendCall N) ∨ FlagsOk flags.int ∧
      ∃ e, (Binding.c.range (.sendAll t flags i? n? : SendCall N)).head? = some e ∧ e.bytes = none := by
  have hflags := int_wholeElem (N := N) flags
  have hi := reads_optWhole (N := N) i?
  have hn := reads_optWhole (N := N) n?
  cases hlast : lastElem t (firstInt i?) (n?.map Whole.int) with
  | none =>
    refine iff_of_true ?_ (.inl hlast)
    exact congrArg (view 5) (callSendAllOf_range hflags hi hn z hlast)
  | some n =>
    have hrefuses : ¬ Binding.c.Refuses (.sendAll t flags i? n? : SendCall N) := fun h => by
      cases hlast.symm.trans h
    have hrange : Binding.c.range (.sendAll t flags i? n? : SendCall N) = CApi.range t (firstInt i?) n := by
      rw [Binding.range, hlast]
    rw [or_iff_right hrefuses, hrange]
    by_cases hok : FlagsOk flags.int
    · have hsends := callSendAllOf_sends hflags hi hn z hlast hok rfl
      rw [and_iff_right hok, ← head_map_eq_none]
      split at hsends
      next hover =>
        -- all parts have been sent
        refine iff_of_false (fun h => ?_) fun hhead => ?_
        · cases (congrArg (view 5) hsends).symm.trans h
        · have hraise := (eachPart_raises_iff (N := N) true (sendCall flags.int) _ z.fates (numbered 0)
            z.calls).mpr hhead
          have hreply := congrArg Prod.fst (Option.some.inj hraise)
          have hdone : (eachPart true (sendCall flags.int)
            ((CApi.range t (firstInt i?) n).map Elem.bytes) z.fates).2 = .done := hover.2.2
          rw [hdone] at hreply
          cases hreply
      next => exact view_raises_iff hsends
    · refine iff_of_false (fun h => ?_) fun h => hok h.1
      cases (congrArg (view 5) (callSendAllOf_flags hflags hi hn z hlast hok)).symm.trans h

/-- `send_all` of the FFI binding. -/
theorem runFfi_raises_iff (host : Host) {flags : Int} {i? n? : Option Int} (hle : i?.getD 1 ≤ n?.getD t.border) :
    sends (FfiSocket.sendAll host t flags i? n? z) = some (.raise, z.calls) ↔
      Taken flags ∧ ∃ e, (elems t (n?.getD t.border + 1 - i?.getD 1).toNat (i?.getD 1)).head? = some e ∧
        ffiBytes e = none := by
  by_cases hflags : Taken flags
  · have hsends := FfiSocket.sendAll_sends host z hle hflags
    rw [and_iff_right hflags, ← head_map_eq_none, hsends]
    exact eachPart_raises_iff false (sendCall (BitVec.ofInt 32 flags)) _ z.fates _ z.calls
  · rw [FfiSocket.sendAll_flags host z hle hflags]
    exact iff_of_false (fun h => by cases h) fun h => hflags h.1

/-- `sendx` of the C binding. -/
theorem runC_sendx_raises_iff (lastFlag : CInt) (es : List (Elem N)) :
    view (es.length + 1) (callSendx lastFlag es z) = some (.raise, z.calls) ↔
      ∃ e, es.head? = some e ∧ e.bytes = none := by
  rw [view_heightx (callSendx_sends lastFlag es z), ← head_map_eq_none]
  exact eachPart_raises_iff true (sendCall lastFlag) _ z.fates _ z.calls

/-- `sendx` of the FFI binding. -/
theorem runFfi_sendx_raises_iff (host : Host) {flags : Int} {es : List (Elem N)} (hflags : Taken flags)
    (hes : es ≠ []) : sends (FfiSocket.sendAll host (FfiSocket.packed es) flags (some 1) (some es.length) z) =
      some (.raise, z.calls) ↔ ∃ e, es.head? = some e ∧ ffiBytes e = none := by
  rw [FfiSocket.sendx_sends host z hflags hes, ← head_map_eq_none]
  exact eachPart_raises_iff false (sendCall (BitVec.ofInt 32 flags)) _ z.fates _ z.calls

end Raises

/-! ## When bad lists are rejected -/

/-- What rejecting a list is: an error, and nothing sent. -/
def Rejects (b : Binding) (call : SendCall N) (z : Zmq) : Prop :=
  (∃ e ∈ call.parts, e.bytes = none) → b.run call z = some (.raise, z.calls)

/-- A list without bad parts, or with one in front, or a range that is refused. -/
def Rejectable (b : Binding) (call : SendCall N) : Prop :=
  (∀ e ∈ call.parts, e.bytes ≠ none) ∨ b.Refuses call ∨
    b.Takes call ∧ ∃ e, (b.range call).head? = some e ∧ b.bytes e = none

/-- A call that has a bad part raises an error with nothing sent iff the bad part is the first one, or its range
    is refused. -/
theorem run_raises_iff (b : Binding) (call : SendCall N) (z : Zmq) (hbad : ∃ e ∈ call.parts, e.bytes = none) :
    b.run call z = some (.raise, z.calls) ↔
      b.Refuses call ∨ b.Takes call ∧ ∃ e, (b.range call).head? = some e ∧ b.bytes e = none := by
  have hparts : call.parts ≠ [] := fun hnil => by
    obtain ⟨e, he, -⟩ := hbad
    rw [hnil] at he
    cases he
  have hzero : FlagsOk wholeZero.int := by decide
  have hmore : FlagsOk wholeSndmore.int := by decide
  cases b with
  | c =>
    cases call with
    | sendAll t flags i? n? => exact runC_raises_iff z
    | sendx es =>
      exact ((runC_sendx_raises_iff z 0 es).trans (and_iff_right hzero).symm).trans
        (or_iff_right (not_false : ¬ False)).symm
    | sendxMore es =>
      exact ((runC_sendx_raises_iff z zmqSndmore es).trans (and_iff_right hmore).symm).trans
        (or_iff_right (not_false : ¬ False)).symm
  | ffi host =>
    cases call with
    | sendAll t flags i? n? =>
      have hle : (i?.map Whole.val).getD 1 ≤ (n?.map Whole.val).getD t.border := by
        refine Int.not_lt.mp fun hlt => hparts ?_
        have hlen : ((n?.map Whole.val).getD t.border + 1 - (i?.map Whole.val).getD 1).toNat = 0 := by omega
        rw [SendCall.parts, hlen, elems]
      exact (runFfi_raises_iff z host hle).trans (or_iff_right (Int.not_lt.mpr hle)).symm
    | sendx es =>
      exact ((runFfi_sendx_raises_iff z host (.inl rfl) hparts).trans (and_iff_right (.inl rfl)).symm).trans
        (or_iff_right (not_false : ¬ False)).symm
    | sendxMore es =>
      exact ((runFfi_sendx_raises_iff z host (.inr rfl) hparts).trans (and_iff_right (.inr rfl)).symm).trans
        (or_iff_right (not_false : ¬ False)).symm

/-- **Bad lists are rejected** exactly when the first part is the bad one. -/
theorem rejects_iff (b : Binding) (call : SendCall N) (z : Zmq) : Rejects b call z ↔ Rejectable b call := by
  by_cases hbad : ∃ e ∈ call.parts, e.bytes = none
  · have hall : ¬∀ e ∈ call.parts, e.bytes ≠ none := fun h => by
      obtain ⟨e, he, hnone⟩ := hbad
      exact h e he hnone
    rw [Rejects, Rejectable, or_iff_right hall, forall_prop_of_true hbad]
    exact run_raises_iff b call z hbad
  · refine iff_of_true (fun h => absurd h hbad) (.inl fun e he hnone => hbad ⟨e, he, hnone⟩)

/-- `skt:sendx("1", nil, "2")`, a call of the tests: the error comes after "1" has been sent. -/
theorem hole_sent : ¬ Rejects .c (.sendx [.str [49], .nil, .str [50]] : SendCall Int) Zmq.idle ∧
    ¬ Rejects (.ffi ⟨none, false, none⟩) (.sendx [.str [49], .nil, .str [50]] : SendCall Int) Zmq.idle := by
  have hbad : ∃ e ∈ (SendCall.sendx [.str [49], .nil, .str [50]] : SendCall Int).parts, e.bytes = none :=
    ⟨.nil, by decide, rfl⟩
  constructor
  · intro h
    have hcalls := congrArg (Option.map Prod.snd) (h hbad)
    revert hcalls
    decide
  · intro h
    have hcalls := congrArg (Option.map Prod.snd) (h hbad)
    revert hcalls
    decide

end Lzmq.Sends
