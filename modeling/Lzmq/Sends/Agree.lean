/-
  `sendx` and `send_all` in both bindings: four implementations of one method.

  For strings they all make the calls of `sendParts`, and differ at the edges.  C numbers the parts of
  `sendx` by their slots, so that the position it reports is one too high; FFI refuses an empty list, which
  for C is sent.  `send_all` of C overruns its stack when the list is long, its loop has no defined end when
  it reaches INT_MAX, and it casts flags and positions to `int`, which FFI compares as they are.  The flags
  are refused with an error number which FFI has from a table of its own when it runs without the C binding.

  (1) `AllAgree` is about lists of strings, (2) `RangeFits` about explicit ranges of a table: `Alike` compares
  the parts of two ranges up to the one where the sending stops.  (3) `sends_agree_iff` says that this is all.
-/
import Lzmq.Sends.Reject

namespace Lzmq.Sends

open Lzmq.CApi
open Lzmq.CFunction (Reply Outcome luaMinstack)
open Lzmq.CSocket (zmqSndmore)
open Lzmq.FfiSocket (Host ffiBytes sends Taken)

/-! ## Outcomes of the sends -/

/-- How a send ends: with an error number, or well. -/
def toFate : Option Nat → Fate
  | none => .ok
  | some e => .fails e

/-- libzmq with the outcomes of the sends to come. -/
def withOutcomes (z : Zmq) (outcomes : List (Option Nat)) : Zmq := { z with fates := outcomes.map toFate }

section Outcomes

variable (c : Bool → List UInt8 → ZmqCall)

theorem headD_outcomes (outcomes : List (Option Nat)) :
    (outcomes.map toFate).headD .ok = .ok ∨ ∃ e, (outcomes.map toFate).headD .ok = .fails e := by
  cases outcomes with
  | nil => exact .inl rfl
  | cons o outcomes =>
    cases o with
    | none => exact .inl rfl
    | some e => exact .inr ⟨e, rfl⟩

/-- As long as sends fail, and not allocations, it does not matter who allocates. -/
theorem eachPart_alloc : ∀ (es : List (Option (List UInt8))) (outcomes : List (Option Nat)),
    eachPart true c es (outcomes.map toFate) = eachPart false c es (outcomes.map toFate) := by
  intro es
  induction es with
  | nil => exact fun _ => rfl
  | cons e es ih =>
    intro outcomes
    cases e with
    | none => rfl
    | some data =>
      rcases headD_outcomes outcomes with hok | ⟨errno, hfails⟩
      · rw [eachPart_ok hok, eachPart_ok hok, ← List.map_tail, ih]
      · rw [eachPart_fails hfails, eachPart_fails hfails]

/-- The parts at the front that are there and whose sends succeed. -/
def passed : List (Option (List UInt8)) → List (Option Nat) → Nat
  | some _ :: es, outcomes => if outcomes.headD none = none then passed es outcomes.tail + 1 else 0
  | _, _ => 0

/-- The stack of `send_all` in C: the parts that have passed stay on it, then comes the result, or the next part
    with no more than itself when it is missing and with three results when its send fails. -/
def Room (es : List (Option (List UInt8))) (outcomes : List (Option Nat)) : Prop :=
  passed es outcomes + (if (es[passed es outcomes]?).join.isSome then 4 else 1) ≤ luaMinstack

instance (es : List (Option (List UInt8))) (outcomes : List (Option Nat)) : Decidable (Room es outcomes) :=
  inferInstanceAs (Decidable (_ ≤ _))

section Passed

variable {es : List (Option (List UInt8))} {data : List UInt8} {outcomes : List (Option Nat)}

theorem passed_ok (h : outcomes.headD none = none) :
    passed (some data :: es) outcomes = passed es outcomes.tail + 1 := if_pos h

theorem passed_fails {errno : Nat} (h : outcomes.headD none = some errno) :
    passed (some data :: es) outcomes = 0 := if_neg (by rw [h]; exact Option.some_ne_none errno)

/-- The fate of the next send. -/
theorem headD_toFate (outcomes : List (Option Nat)) :
    (outcomes.map toFate).headD .ok = toFate (outcomes.headD none) := by
  cases outcomes <;> rfl

end Passed

/-- All is sent iff all parts pass. -/
theorem eachPart_done_iff (alloc : Bool) : ∀ (es : List (Option (List UInt8))) (outcomes : List (Option Nat)),
    (eachPart alloc c es (outcomes.map toFate)).2 = .done ↔ passed es outcomes = es.length := by
  intro es
  induction es with
  | nil => exact fun _ => iff_of_true rfl rfl
  | cons e es ih =>
    intro outcomes
    cases e with
    | none => exact iff_of_false (fun h => by cases h) fun h => by cases h
    | some data =>
      have hfate := headD_toFate outcomes
      cases ho : outcomes.headD none with
      | none =>
        rw [ho] at hfate
        rw [eachPart_ok hfate, SendEnd.after_eq_done, ← List.map_tail, ih, passed_ok ho, List.length_cons,
          Nat.add_right_cancel_iff]
      | some errno =>
        rw [ho] at hfate
        rw [eachPart_fails hfate, passed_fails ho]
        exact iff_of_false (fun h => by cases h) fun h => by cases h

/-- What `send_all` of C has pushed when it ends. -/
theorem eachPart_height (alloc : Bool) : ∀ (es : List (Option (List UInt8))) (outcomes : List (Option Nat)),
    (eachPart alloc c es (outcomes.map toFate)).2.height es.length =
      passed es outcomes + if (es[passed es outcomes]?).join.isSome then 4 else 1 := by
  intro es
  induction es with
  | nil => exact fun _ => rfl
  | cons e es ih =>
    intro outcomes
    cases e with
    | none => rfl
    | some data =>
      have hfate := headD_toFate outcomes
      cases ho : outcomes.headD none with
      | none =>
        rw [ho] at hfate
        rw [eachPart_ok hfate, List.length_cons, after_height, ← List.map_tail, ih, passed_ok ho,
          List.getElem?_cons_succ, Nat.add_right_comm]
      | some errno =>
        rw [ho] at hfate
        rw [eachPart_fails hfate, passed_fails ho]
        rfl

theorem room_iff (alloc : Bool) (es : List (Option (List UInt8))) (outcomes : List (Option Nat)) :
    (eachPart alloc c es (outcomes.map toFate)).2.height es.length ≤ luaMinstack ↔ Room es outcomes := by
  rw [eachPart_height, Room]

end Outcomes

/-! ## Lists of strings -/

variable {N : Type} [LuaNumber N]

/-- The last flag. -/
def moreFlag (more : Bool) : Whole := if more then wholeSndmore else wholeZero

/-- Strings that are the arguments of a call; with the socket their number is an `int`. -/
structure Strings where
  list : List (List UInt8)
  fits : (list.length : Int) + 1 ≤ intMax

def Strings.elems (ps : Strings) : List (Elem N) := ps.list.map .str

/-- `sendx` or `sendx_more` of the strings. -/
def Strings.sendx (ps : Strings) : Bool → SendCall N
  | false => .sendx ps.elems
  | true => .sendxMore ps.elems

/-- `send_all` of a table of the strings. -/
def Strings.sendAll (ps : Strings) (more : Bool) : SendCall N :=
  .sendAll (FfiSocket.packed ps.elems) (moreFlag more) none none

/-- The four calls make the same sends and return the same. -/
def AllAgree (host : Host) (ps : Strings) (more : Bool) (z : Zmq) : Prop :=
  (Binding.c.run (ps.sendx more : SendCall N) z = Binding.c.run (ps.sendAll more) z ∧
    (Binding.ffi host).run (ps.sendx more : SendCall N) z = (Binding.ffi host).run (ps.sendAll more) z) ∧
    Binding.c.run (ps.sendAll more : SendCall N) z = (Binding.ffi host).run (ps.sendAll more) z

section Four

variable (host : Host) (ps : Strings) (more : Bool) (z : Zmq)

/-- The parts, as both bindings read them. -/
def Strings.parts (ps : Strings) : List (Option (List UInt8)) := ps.list.map some

omit [LuaNumber N] in
theorem map_ffiBytes_elems : (ps.elems : List (Elem N)).map ffiBytes = ps.parts := by
  rw [Strings.elems, List.map_map]
  rfl

theorem map_bytes_elems : (ps.elems : List (Elem N)).map Elem.bytes = ps.parts := by
  rw [Strings.elems, List.map_map]
  rfl

theorem flagsOk_moreFlag : FlagsOk (moreFlag more).int := by
  cases more <;> decide

theorem taken_moreFlag : Taken (moreFlag more).val := by
  cases more <;> decide

/-- A reply that numbers the parts from `base` on, and the calls. -/
def sent (base : Int) (z : Zmq) (r : List ZmqCall × SendEnd) : Option (Reply (Val N) × List ZmqCall) :=
  some (r.2.reply (numbered base), z.calls ++ r.1)

omit [LuaNumber N] in
theorem border_strings : (FfiSocket.packed (ps.elems : List (Elem N))).border = ps.list.length := by
  have hnil : (.nil : Elem N) ∉ (ps.elems : List (Elem N)) := fun h => by
    obtain ⟨s, -, hs⟩ := List.mem_map.mp h
    cases hs
  rw [FfiSocket.border_packed hnil, Strings.elems, List.length_map]

omit [LuaNumber N] in
theorem elems_strings : CApi.elems (FfiSocket.packed (ps.elems : List (Elem N))) ps.list.length 1 =
    ps.elems := by
  have hlen : (ps.elems : List (Elem N)).length = ps.list.length := List.length_map _
  rw [← hlen, FfiSocket.elems_packed]

theorem runC_sendx : Binding.c.run (ps.sendx more : SendCall N) z =
    sent 2 z (sendParts true (moreFlag more).int ps.parts z.fates) := by
  rw [← map_bytes_elems (N := N)]
  cases more with
  | false => exact view_heightx (callSendx_sends 0 ps.elems z)
  | true => exact view_heightx (callSendx_sends zmqSndmore ps.elems z)

theorem runC_sendAll : Binding.c.run (ps.sendAll more : SendCall N) z =
    if (sendParts true (moreFlag more).int ps.parts z.fates).2.height ps.parts.length ≤ luaMinstack then
      sent 1 z (sendParts true (moreFlag more).int ps.parts z.fates) else none := by
  have hfits := ps.fits
  have hlen : (BitVec.ofNat 32 ps.list.length).toInt = ps.list.length := by
    rw [intMax] at hfits
    rw [BitVec.toInt_ofNat', Int.bmod_eq_of_le (by omega) (by omega)]
  have hlast : lastElem (FfiSocket.packed (ps.elems : List (Elem N))) ((none : Option CInt).getD 1) none =
      some (BitVec.ofNat 32 ps.list.length) := by rw [lastElem, border_strings]
  have hrange : range (FfiSocket.packed (ps.elems : List (Elem N))) (((none : Option Whole).map Whole.int).getD 1)
      (BitVec.ofNat 32 ps.list.length) = ps.elems := by
    have hcount : ((ps.list.length : Int) + 1 - (1 : CInt).toInt).toNat = ps.list.length := by
      show ((ps.list.length : Int) + 1 - 1).toNat = _
      omega
    rw [range, hlen]
    show elems _ ((ps.list.length : Int) + 1 - (1 : CInt).toInt).toNat 1 = _
    rw [hcount]
    exact elems_strings ps
  have hparts := map_bytes_elems (N := N) ps
  rw [← hrange] at hparts
  have hcount : (range (FfiSocket.packed (ps.elems : List (Elem N))) (((none : Option Whole).map Whole.int).getD 1)
      (BitVec.ofNat 32 ps.list.length)).length = ps.parts.length := by
    rw [← hparts, List.length_map]
  have hsends := callSendAllOf_sends (int_wholeElem (moreFlag more)) (reads_optWhole none) (reads_optWhole none) z
    hlast (flagsOk_moreFlag more) (congrArg (sendParts true (moreFlag more).int · z.fates) hparts)
  rw [if_neg fun h => by have hmax := h.1; rw [hlen] at hmax; omega, hcount] at hsends
  exact view_ends hsends

theorem runFfi_sendx (hps : ps.list ≠ []) : (Binding.ffi host).run (ps.sendx more : SendCall N) z =
    sent 1 z (sendParts false (moreFlag more).int ps.parts z.fates) := by
  have hne : (ps.elems : List (Elem N)) ≠ [] := fun h => hps (List.map_eq_nil_iff.mp h)
  have hsends := FfiSocket.sendx_sends host z (taken_moreFlag more) hne
  rw [map_ffiBytes_elems] at hsends
  cases more with
  | false => exact hsends
  | true => exact hsends

theorem runFfi_sendAll (hps : ps.list ≠ []) : (Binding.ffi host).run (ps.sendAll more : SendCall N) z =
    sent 1 z (sendParts false (moreFlag more).int ps.parts z.fates) := by
  have hpos := List.length_pos_iff.mpr hps
  have hle : (none : Option Int).getD 1 ≤
      (none : Option Int).getD (FfiSocket.packed (ps.elems : List (Elem N))).border := by
    rw [Option.getD_none, Option.getD_none, border_strings]
    omega
  have hsends := FfiSocket.sendAll_sends host z hle (taken_moreFlag more)
  have hcount : ((ps.list.length : Int) + 1 - 1).toNat = ps.list.length := by omega
  rw [Option.getD_none, Option.getD_none, border_strings, hcount, elems_strings, map_ffiBytes_elems] at hsends
  exact hsends

end Four

/-- Strings all pass iff no send fails. -/
theorem passed_strings : ∀ (l : List (List UInt8)) (outcomes : List (Option Nat)),
    passed (l.map some) outcomes = l.length ↔ ∀ o ∈ outcomes.take l.length, o = none := by
  intro l
  induction l with
  | nil => exact fun _ => iff_of_true rfl fun o ho => by cases ho
  | cons s l ih =>
    intro outcomes
    rw [List.map_cons, List.length_cons]
    cases outcomes with
    | nil =>
      have hrest := ih []
      rw [List.take_nil] at hrest ⊢
      rw [passed_ok rfl, Nat.add_right_cancel_iff]
      exact hrest
    | cons o outcomes =>
      rw [List.take_succ_cons, List.forall_mem_cons]
      cases o with
      | none =>
        rw [passed_ok rfl, Nat.add_right_cancel_iff, List.tail_cons, ih]
        exact (and_iff_right rfl).symm
      | some errno =>
        rw [passed_fails rfl]
        exact iff_of_false (fun h => by cases h) fun h => by cases h.1

theorem lead_parts (ps : Strings) : lead ps.parts = ps.parts.length := by
  have hall : ∀ l : List (List UInt8), lead (l.map some) = (l.map some).length := by
    intro l
    induction l with
    | nil => rfl
    | cons s l ih => rw [List.map_cons, lead_some, ih, List.length_cons]
  exact hall ps.list

/-- C numbers the parts of `sendx` and `send_all` alike unless one fails. -/
theorem sent_eq_iff (ps : Strings) (alloc : Bool) (flags : CInt) (z : Zmq) (outcomes : List (Option Nat)) :
    (sent 2 z (sendParts alloc flags ps.parts (outcomes.map toFate)) :
      Option (Reply (Val N) × List ZmqCall)) =
      sent 1 z (sendParts alloc flags ps.parts (outcomes.map toFate)) ↔
    passed ps.parts outcomes = ps.parts.length := by
  have hdone := eachPart_done_iff (sendCall flags) alloc ps.parts outcomes
  rw [← hdone, sent, sent, sendParts]
  rcases eachPart_end alloc (sendCall flags) ps.parts (outcomes.map toFate) with
    ⟨hend, -⟩ | ⟨j, e, hend, hj⟩ | ⟨hend, hlt⟩
  · rw [hend]
    exact iff_of_true rfl rfl
  · rw [hend]
    refine iff_of_false (fun h => ?_) (by simp)
    have hfits := ps.fits
    rw [lead_parts, Strings.parts, List.length_map] at hj
    rw [intMax] at hfits
    simp only [SendEnd.reply, numbered, Option.some.injEq, Prod.mk.injEq, Reply.ret.injEq, List.cons.injEq,
      Val.elem.injEq, Elem.num.injEq] at h
    have heq := LuaNumber.ofInt_inj _ _ ⟨by omega, by omega⟩ ⟨by omega, by omega⟩ h.1.2.2.1
    omega
  · -- no string is missing
    rw [lead_parts] at hlt
    exact absurd hlt (Nat.lt_irrefl _)

/-- **The four calls** agree iff there is something to send, nothing fails, and C has room for the parts. -/
theorem allAgree_iff (host : Host) (ps : Strings) (more : Bool) (z : Zmq) (outcomes : List (Option Nat)) :
    AllAgree (N := N) host ps more (withOutcomes z outcomes) ↔
      ps.list ≠ [] ∧ ps.list.length ≤ 19 ∧ ∀ o ∈ outcomes.take ps.list.length, o = none := by
  by_cases hps : ps.list = []
  · refine iff_of_false (fun h => ?_) fun h => h.1 hps
    have hempty := h.2
    have hlt : (none : Option Int).getD ((FfiSocket.packed (ps.elems : List (Elem N))).border : Int) <
        (none : Option Int).getD 1 := by
      rw [Option.getD_none, Option.getD_none, border_strings, hps]
      exact Int.zero_lt_one
    have hparts : ps.parts = [] := by rw [Strings.parts, hps, List.map_nil]
    rw [runC_sendAll, hparts] at hempty
    have hrefused := hempty.trans (FfiSocket.sendAll_range host (withOutcomes z outcomes) hlt)
    cases congrArg Prod.fst (Option.some.inj hrefused)
  · have halloc : sendParts true (moreFlag more).int ps.parts (withOutcomes z outcomes).fates =
        sendParts false (moreFlag more).int ps.parts (withOutcomes z outcomes).fates :=
      eachPart_alloc (sendCall (moreFlag more).int) ps.parts outcomes
    have hlen : ps.parts.length = ps.list.length := List.length_map _
    have hpassed := passed_strings ps.list outcomes
    rw [← hlen] at hpassed
    have hroom := room_iff (sendCall (moreFlag more).int) false ps.parts outcomes
    have hnum := sent_eq_iff (N := N) ps false (moreFlag more).int (withOutcomes z outcomes) outcomes
    rw [AllAgree, runC_sendx, runC_sendAll, runFfi_sendx host ps more _ hps,
      runFfi_sendAll host ps more _ hps, halloc, and_iff_left rfl, and_iff_right hps, ← hlen, ← hpassed]
    change (sent 2 _ (sendParts false _ ps.parts (outcomes.map toFate)) = if (sendParts false _ ps.parts
      (outcomes.map toFate)).2.height _ ≤ _ then sent 1 _ (sendParts false _ ps.parts (outcomes.map toFate)) else
      none) ∧ (if (sendParts false _ ps.parts (outcomes.map toFate)).2.height _ ≤ _ then
      sent 1 _ (sendParts false _ ps.parts (outcomes.map toFate)) else none) = sent 1 _ (sendParts false _ ps.parts
      (outcomes.map toFate)) ↔ ps.parts.length ≤ 19 ∧ passed ps.parts outcomes = ps.parts.length
    rw [sendParts, if_congr hroom rfl rfl]
    -- when all strings pass, they and the result are on the stack
    have hfull : passed ps.parts outcomes = ps.parts.length → (Room ps.parts outcomes ↔ ps.parts.length ≤ 19) := by
      intro hall
      rw [Room, hall, List.getElem?_eq_none (Nat.le_refl _), luaMinstack]
      exact Nat.add_le_add_iff_right (k := 19) (n := 1)
    by_cases hall : passed ps.parts outcomes = ps.parts.length
    · by_cases hle : ps.parts.length ≤ 19
      · rw [if_pos ((hfull hall).mpr hle)]
        exact iff_of_true ⟨hnum.mpr hall, rfl⟩ ⟨hle, hall⟩
      · rw [if_neg (mt (hfull hall).mp hle)]
        exact iff_of_false (fun h => by cases h.2) fun h => hle h.1
    · refine iff_of_false (fun h => hall (hnum.mp ?_)) fun h => hall h.2
      exact h.1.trans h.2

/-! ## Ranges of a table -/

/-- A table of strings, with holes. -/
def strTable (t : LuaTable (List UInt8)) : LuaTable (Elem N) where
  get i := (t.get i).map .str
  top := t.top
  above i hi := by rw [t.above i hi, Option.map_none]

/-- `send_all` of an explicit range. -/
def rangeCall (t : LuaTable (List UInt8)) (flags i n : Whole) : SendCall N :=
  .sendAll (strTable t) flags (some i) (some n)

/-- `k` elements of a table of strings, from `i` on; some may be missing. -/
def partsFrom (t : LuaTable (List UInt8)) : Nat → Int → List (Option (List UInt8))
  | 0, _ => []
  | k + 1, i => t.get i :: partsFrom t k (i + 1)

/-- The elements from `i` to `n`. -/
def partsOf (t : LuaTable (List UInt8)) (i n : Int) : List (Option (List UInt8)) := partsFrom t (n + 1 - i).toNat i

/-- Two lists are sent alike, up to where the sending stops: with the same parts and flags, and with the same
    number (`same`) for a part that fails. -/
def Alike (last : CInt) (same : Prop) :
    List (Option (List UInt8)) → List (Option (List UInt8)) → List (Option Nat) → Prop
  | [], [], _ => True
  | none :: _, none :: _, _ => True
  | some a :: as, some b :: bs, outcomes =>
    a = b ∧ (last = zmqSndmore ∨ as.isEmpty = bs.isEmpty) ∧
      if outcomes.headD none = none then Alike last same as bs outcomes.tail else same
  | _, _, _ => False

/-- `send_all` of C has room for the parts, and its loop an end. -/
def Completes (n : Int) (parts : List (Option (List UInt8))) (outcomes : List (Option Nat)) : Prop :=
  ¬(n = intMax ∧ passed parts outcomes = parts.length) ∧ Room parts outcomes

instance (n : Int) (parts : List (Option (List UInt8))) (outcomes : List (Option Nat)) :
    Decidable (Completes n parts outcomes) := inferInstanceAs (Decidable (_ ∧ _))

/-- What both bindings have to make of flags and range. -/
def RangeFits (host : Host) (t : LuaTable (List UInt8)) (flags i n : Whole) (outcomes : List (Option Nat)) :
    Prop :=
  let parts := partsOf t i.int.toInt n.int.toInt
  -- FFI raises an error: C refuses the range as well, or finds no first part
  if n.val < i.val then n.int.toInt < i.int.toInt ∨ FlagsOk flags.int ∧ t.get i.int.toInt = none
  -- C raises an error, likewise
  else if n.int.toInt < i.int.toInt then Taken flags.val ∧ t.get i.val = none
  else if Taken flags.val then
    Alike flags.int (i.val = i.int.toInt) (partsOf t i.val n.val) parts outcomes ∧
      Completes n.int.toInt parts outcomes
  -- FFI refuses the flags
  else ¬ FlagsOk flags.int ∧ host.enotsup = enotsup

section Range

variable (t : LuaTable (List UInt8))

omit [LuaNumber N] in
theorem getElem_strTable (j : Int) : CApi.getElem (strTable t : LuaTable (Elem N)) j = match t.get j with
    | some s => .str s
    | none => .nil := by
  show ((t.get j).map Elem.str).getD .nil = _
  cases t.get j <;> rfl

theorem map_bytes_strTable : ∀ (k : Nat) (i : Int),
    (elems (strTable t : LuaTable (Elem N)) k i).map Elem.bytes = partsFrom t k i := by
  intro k
  induction k with
  | zero => exact fun i => rfl
  | succ k ih =>
    intro i
    rw [elems, List.map_cons, ih, getElem_strTable, partsFrom]
    cases t.get i <;> rfl

omit [LuaNumber N] in
theorem map_ffiBytes_strTable : ∀ (k : Nat) (i : Int),
    (elems (strTable t : LuaTable (Elem N)) k i).map ffiBytes = partsFrom t k i := by
  intro k
  induction k with
  | zero => exact fun i => rfl
  | succ k ih =>
    intro i
    rw [elems, List.map_cons, ih, getElem_strTable, partsFrom]
    cases t.get i <;> rfl

theorem partsFrom_length : ∀ (k : Nat) (i : Int), (partsFrom t k i).length = k := by
  intro k
  induction k with
  | zero => exact fun i => rfl
  | succ k ih => exact fun i => congrArg (· + 1) (ih (i + 1))

/-- A range that is not empty begins with its first element. -/
theorem head_partsOf {i n : Int} (h : i ≤ n) : (partsOf t i n).head? = some (t.get i) := by
  obtain ⟨k, hk⟩ : ∃ k, (n + 1 - i).toNat = k + 1 := ⟨(n - i).toNat, by omega⟩
  rw [partsOf, hk, partsFrom, List.head?_cons]

end Range

/-! ## Two lists of parts -/

section Alike

variable {last : CInt} {data : List UInt8} {es : List (Option (List UInt8))} {outcomes : List (Option Nat)}

/-- A part that is there is handed to libzmq. -/
theorem eachPart_calls_ne_nil (c : Bool → List UInt8 → ZmqCall) :
    (eachPart false c (some data :: es) (outcomes.map toFate)).1 ≠ [] := by
  have hfate := headD_toFate outcomes
  cases ho : outcomes.headD none with
  | none =>
    rw [ho] at hfate
    rw [eachPart_ok hfate]
    exact List.cons_ne_nil _ _
  | some errno =>
    rw [ho] at hfate
    rw [eachPart_fails hfate]
    exact List.cons_ne_nil _ _

theorem sendCall_eq_iff (a b : List UInt8) (p q : Bool) :
    sendCall last p a = sendCall last q b ↔ a = b ∧ (last = zmqSndmore ∨ p = q) := by
  rw [sendCall, sendCall, ZmqCall.send.injEq]
  refine and_congr_right fun _ => ?_
  cases p <;> cases q <;> simp [eq_comm]

/-- Numbers of parts are exact. -/
def Numbers (base : Int) (es : List (Option (List UInt8))) : Prop :=
  -2 ^ 53 ≤ base ∧ base + es.length ≤ 2 ^ 53 + 1

/-- **Two lists** give the same reply after the same sends iff they are sent alike. -/
theorem alike_iff (last : CInt) (same : Prop) :
    ∀ (as bs : List (Option (List UInt8))) (i j : Int) (outcomes : List (Option Nat)),
    (same ↔ i = j) → Numbers i as → Numbers j bs →
    (((eachPart false (sendCall last) as (outcomes.map toFate)).2.reply (numbered i) : Reply (Val N)) =
        (eachPart false (sendCall last) bs (outcomes.map toFate)).2.reply (numbered j) ∧
      (eachPart false (sendCall last) as (outcomes.map toFate)).1 =
        (eachPart false (sendCall last) bs (outcomes.map toFate)).1 ↔ Alike last same as bs outcomes) := by
  intro as
  induction as with
  | nil =>
    intro bs i j outcomes _ _ _
    cases bs with
    | nil => exact iff_of_true ⟨rfl, rfl⟩ trivial
    | cons b bs =>
      cases b with
      | none => exact iff_of_false (fun h => by cases h.1) fun h => h
      | some b => exact iff_of_false (fun h => eachPart_calls_ne_nil _ h.2.symm) fun h => h
  | cons a as ih =>
    intro bs i j outcomes hsame hi hj
    cases a with
    | none =>
      cases bs with
      | nil => exact iff_of_false (fun h => by cases h.1) fun h => h
      | cons b bs =>
        cases b with
        | none => exact iff_of_true ⟨rfl, rfl⟩ trivial
        | some b => exact iff_of_false (fun h => eachPart_calls_ne_nil _ h.2.symm) fun h => h
    | some a =>
      cases bs with
      | nil => exact iff_of_false (fun h => eachPart_calls_ne_nil _ h.2) fun h => h
      | cons b bs =>
        cases b with
        | none => exact iff_of_false (fun h => eachPart_calls_ne_nil _ h.2) fun h => h
        | some b =>
          rw [Numbers, List.length_cons] at hi hj
          have hfate := headD_toFate outcomes
          rw [Alike, ← and_assoc, ← sendCall_eq_iff]
          cases ho : outcomes.headD none with
          | none =>
            rw [ho] at hfate
            have hrest := ih bs (i + 1) (j + 1) outcomes.tail (hsame.trans (by omega))
              ⟨by omega, by omega⟩ ⟨by omega, by omega⟩
            rw [eachPart_ok hfate, eachPart_ok hfate, if_pos rfl, ← List.map_tail, after_reply, after_reply,
              ← numbered_succ, ← numbered_succ, List.cons_eq_cons, ← hrest]
            exact and_left_comm
          | some errno =>
            rw [ho] at hfate
            rw [eachPart_fails hfate, eachPart_fails hfate, if_neg (Option.some_ne_none errno), hsame]
            have hnum : (numbered i 0 : N) = numbered j 0 ↔ i = j := by
              rw [numbered_zero, numbered_zero]
              exact ⟨LuaNumber.ofInt_inj i j ⟨by omega, by omega⟩ ⟨by omega, by omega⟩, congrArg _⟩
            simp only [SendEnd.reply, Reply.ret.injEq, List.cons.injEq, Val.elem.injEq, Elem.num.injEq, true_and,
              and_true, hnum]
            exact and_comm

end Alike

/-! ## Explicit ranges -/

section Calls

variable (host : Host) (t : LuaTable (List UInt8)) (flags i n : Whole) (z : Zmq) (outcomes : List (Option Nat))

/-- C refuses the range. -/
theorem runC_range (h : n.int.toInt < i.int.toInt) :
    Binding.c.run (rangeCall t flags i n : SendCall N) z = some (.raise, z.calls) :=
  congrArg (view 5) (callSendAllOf_range (int_wholeElem flags) (reads_optWhole (some i)) (reads_optWhole (some n)) z
    (if_neg (Int.not_le.mpr h)))

/-- C refuses the flags. -/
theorem runC_flags (h : i.int.toInt ≤ n.int.toInt) (hflags : ¬ FlagsOk flags.int) :
    Binding.c.run (rangeCall t flags i n : SendCall N) z = some (.ret [.elem .nil, .err enotsup], z.calls) :=
  congrArg (view 5) (callSendAllOf_flags (int_wholeElem flags) (reads_optWhole (some i)) (reads_optWhole (some n)) z
    (if_pos h) hflags)

/-- **C sends** the parts that it reads, if it has the room and an end. -/
theorem runC_sends (h : i.int.toInt ≤ n.int.toInt) (hflags : FlagsOk flags.int) :
    Binding.c.run (rangeCall t flags i n : SendCall N) (withOutcomes z outcomes) =
      if Completes n.int.toInt (partsOf t i.int.toInt n.int.toInt) outcomes then
        sent i.int.toInt z (sendParts false flags.int (partsOf t i.int.toInt n.int.toInt) (outcomes.map toFate))
      else none := by
  have hparts : (range (strTable t : LuaTable (Elem N)) i.int n.int).map Elem.bytes =
      partsOf t i.int.toInt n.int.toInt := map_bytes_strTable t _ _
  have hlen : (range (strTable t : LuaTable (Elem N)) i.int n.int).length =
      (partsOf t i.int.toInt n.int.toInt).length := by rw [← hparts, List.length_map]
  have hne : range (strTable t : LuaTable (Elem N)) i.int n.int ≠ [] := fun hnil => by
    have hcount := elems_length (strTable t : LuaTable (Elem N)) (n.int.toInt + 1 - i.int.toInt).toNat i.int.toInt
    rw [show elems (strTable t : LuaTable (Elem N)) _ _ = [] from hnil, List.length_nil] at hcount
    omega
  have halloc : sendParts true flags.int (partsOf t i.int.toInt n.int.toInt) (outcomes.map toFate) =
      sendParts false flags.int (partsOf t i.int.toInt n.int.toInt) (outcomes.map toFate) :=
    eachPart_alloc (sendCall flags.int) (partsOf t i.int.toInt n.int.toInt) outcomes
  have hdone := eachPart_done_iff (sendCall flags.int) false (partsOf t i.int.toInt n.int.toInt) outcomes
  have hroom := room_iff (sendCall flags.int) false (partsOf t i.int.toInt n.int.toInt) outcomes
  have hsends := callSendAllOf_sends (int_wholeElem flags) (reads_optWhole (some i)) (reads_optWhole (some n))
    (withOutcomes z outcomes) (if_pos h) hflags
    ((congrArg (sendParts true flags.int · (outcomes.map toFate)) hparts).trans halloc)
  by_cases hover : n.int.toInt = intMax ∧ passed (partsOf t i.int.toInt n.int.toInt) outcomes =
      (partsOf t i.int.toInt n.int.toInt).length
  · rw [if_pos ⟨hover.1, hne, hdone.mpr hover.2⟩] at hsends
    rw [if_neg fun hp => hp.1 hover]
    exact congrArg (view 5) hsends
  · rw [if_neg fun hp => hover ⟨hp.1, hdone.mp hp.2.2⟩] at hsends
    refine (view_ends hsends).trans (if_congr ?_ rfl rfl)
    show SendEnd.height (range (strTable t : LuaTable (Elem N)) i.int n.int).length _ ≤ _ ↔ _
    rw [hlen]
    exact hroom.trans (and_iff_right hover).symm

/-- FFI refuses the range. -/
theorem runFfi_range (h : n.val < i.val) :
    (Binding.ffi host).run (rangeCall t flags i n : SendCall N) z = some (.raise, z.calls) :=
  FfiSocket.sendAll_range host z h

/-- FFI refuses the flags. -/
theorem runFfi_flags (h : i.val ≤ n.val) (hflags : ¬ Taken flags.val) :
    (Binding.ffi host).run (rangeCall t flags i n : SendCall N) z =
      some (.ret [.elem .nil, .err host.enotsup], z.calls) :=
  FfiSocket.sendAll_flags host z h hflags

/-- **FFI sends** the parts that it reads. -/
theorem runFfi_sends (h : i.val ≤ n.val) (hflags : Taken flags.val) :
    (Binding.ffi host).run (rangeCall t flags i n : SendCall N) z =
      sent i.val z (sendParts false flags.int (partsOf t i.val n.val) z.fates) := by
  have hle : (some i.val).getD 1 ≤ (some n.val).getD (strTable t : LuaTable (Elem N)).border := h
  refine (FfiSocket.sendAll_sends host z hle hflags).trans ?_
  rw [map_ffiBytes_strTable]
  rfl

/-- In a range that it takes, C raises an error iff the flags pass and the first part is missing. -/
theorem runC_range_raises_iff (h : i.int.toInt ≤ n.int.toInt) :
    Binding.c.run (rangeCall t flags i n : SendCall N) z = some (.raise, z.calls) ↔
      FlagsOk flags.int ∧ t.get i.int.toInt = none := by
  have hlast : lastElem (strTable t : LuaTable (Elem N)) (firstInt (some i)) ((some n).map Whole.int) =
      some n.int := if_pos h
  have hrefuses : ¬ Binding.c.Refuses (.sendAll (strTable t) flags (some i) (some n) : SendCall N) := fun h => by
    cases hlast.symm.trans h
  have hrange : Binding.c.range (.sendAll (strTable t) flags (some i) (some n) : SendCall N) =
      range (strTable t) i.int n.int := by
    rw [Binding.range, hlast]
    rfl
  rw [rangeCall, runC_raises_iff, or_iff_right hrefuses, hrange, ← head_map_eq_none, range, map_bytes_strTable,
    ← partsOf, head_partsOf t h, Option.some.injEq]

/-- So does FFI, with the values as they are. -/
theorem runFfi_range_raises_iff (h : i.val ≤ n.val) :
    (Binding.ffi host).run (rangeCall t flags i n : SendCall N) z = some (.raise, z.calls) ↔
      Taken flags.val ∧ t.get i.val = none := by
  have hle : (some i.val).getD 1 ≤ (some n.val).getD (strTable t : LuaTable (Elem N)).border := h
  refine (runFfi_raises_iff z host hle).trans (and_congr_right fun _ => ?_)
  rw [← head_map_eq_none, map_ffiBytes_strTable]
  exact (congrArg (· = some none) (head_partsOf t h)).to_iff.trans (by rw [Option.some.injEq])

/-- In a range that it takes, C refuses the flags with ENOTSUP iff they do not pass. -/
theorem runC_refuses_iff (h : i.int.toInt ≤ n.int.toInt) (errno : Nat) :
    Binding.c.run (rangeCall t flags i n : SendCall N) (withOutcomes z outcomes) =
        some (.ret [.elem .nil, .err errno], z.calls) ↔ ¬ FlagsOk flags.int ∧ errno = enotsup := by
  by_cases hflags : FlagsOk flags.int
  · rw [runC_sends t flags i n z outcomes h hflags]
    refine iff_of_false (fun hc => ?_) fun hc => hc.1 hflags
    split at hc
    next =>
      have hreply := congrArg Prod.fst (Option.some.inj hc)
      cases hend : (sendParts false flags.int (partsOf t i.int.toInt n.int.toInt) (outcomes.map toFate)).2 with
      | _ => rw [hend] at hreply; cases hreply
    next => cases hc
  · rw [runC_flags t flags i n _ h hflags, and_iff_right hflags]
    constructor
    · intro hc
      have hreply := congrArg Prod.fst (Option.some.inj hc)
      simp only [Reply.ret.injEq, List.cons.injEq, Val.err.injEq] at hreply
      exact hreply.2.1.symm
    · rintro rfl
      rfl

/-- Flags that FFI takes pass in C. -/
theorem flagsOk_of_taken {flags : Whole} (h : Taken flags.val) : FlagsOk flags.int := by
  rw [Whole.int]
  rcases h with h | h
  · rw [h]
    decide
  · rw [h]
    decide

/-- The positions in a range between values that are numbers are numbers. -/
theorem numbers_partsOf {i n : Int} (h : i ≤ n) (hi : Exact i) (hn : Exact n) : Numbers i (partsOf t i n) := by
  have hlen : ((partsOf t i n).length : Int) = n + 1 - i := by
    rw [partsOf, partsFrom_length]
    omega
  rw [Exact] at hi hn
  exact ⟨by omega, by omega⟩

/-- Where both bindings send, they do the same iff the parts are sent alike and C completes. -/
theorem both_send_iff (hc : i.int.toInt ≤ n.int.toInt) (hffi : i.val ≤ n.val) (hflags : Taken flags.val) :
    Binding.c.run (rangeCall t flags i n : SendCall N) (withOutcomes z outcomes) =
        (Binding.ffi host).run (rangeCall t flags i n) (withOutcomes z outcomes) ↔
      Alike flags.int (i.val = i.int.toInt) (partsOf t i.val n.val) (partsOf t i.int.toInt n.int.toInt) outcomes ∧
        Completes n.int.toInt (partsOf t i.int.toInt n.int.toInt) outcomes := by
  rw [runC_sends t flags i n z outcomes hc (flagsOk_of_taken hflags),
    runFfi_sends host t flags i n _ hffi hflags]
  split
  next hroom =>
    have halike := alike_iff (N := N) flags.int (i.val = i.int.toInt) (partsOf t i.val n.val)
      (partsOf t i.int.toInt n.int.toInt) i.val i.int.toInt outcomes Iff.rfl
      (numbers_partsOf t hffi i.exact n.exact) (numbers_partsOf t hc (exact_toInt i.int) (exact_toInt n.int))
    rw [and_iff_left hroom, eq_comm, sent, sent, ← halike, Option.some.injEq, Prod.mk.injEq]
    exact and_congr_right fun _ => List.append_right_inj _
  next hroom => exact iff_of_false (fun h => by cases h) fun h => hroom h.2

/-- **Explicit ranges**: what keeps the bindings apart is the cast to `int`, the room on the stack of C, a range that
    is sent up to INT_MAX, and the number of the error for the flags. -/
theorem range_agrees_iff :
    Binding.c.run (rangeCall t flags i n : SendCall N) (withOutcomes z outcomes) =
        (Binding.ffi host).run (rangeCall t flags i n) (withOutcomes z outcomes) ↔
      RangeFits host t flags i n outcomes := by
  rw [RangeFits]
  by_cases hffi : n.val < i.val
  · rw [runFfi_range host t flags i n _ hffi]
    simp only [if_pos hffi]
    by_cases hc : n.int.toInt < i.int.toInt
    · exact iff_of_true (runC_range t flags i n _ hc) (.inl hc)
    · rw [or_iff_right hc]
      exact runC_range_raises_iff t flags i n _ (Int.not_lt.mp hc)
  · have hle := Int.not_lt.mp hffi
    simp only [if_neg hffi]
    by_cases hc : n.int.toInt < i.int.toInt
    · rw [runC_range t flags i n _ hc]
      simp only [if_pos hc]
      rw [eq_comm]
      exact runFfi_range_raises_iff host t flags i n _ hle
    · have hlec := Int.not_lt.mp hc
      simp only [if_neg hc]
      by_cases htaken : Taken flags.val
      · rw [if_pos htaken]
        exact both_send_iff host t flags i n z outcomes hlec hle htaken
      · rw [if_neg htaken, runFfi_flags host t flags i n _ hle htaken]
        exact runC_refuses_iff t flags i n z outcomes hlec host.enotsup

end Calls

/-- **The four implementations**, on lists of strings and on explicit ranges. -/
theorem sends_agree_iff (host : Host) (z : Zmq) (outcomes : List (Option Nat)) :
    (∀ (ps : Strings) (more : Bool), AllAgree (N := N) host ps more (withOutcomes z outcomes) ↔
      ps.list ≠ [] ∧ ps.list.length ≤ 19 ∧ ∀ o ∈ outcomes.take ps.list.length, o = none) ∧
    ∀ (t : LuaTable (List UInt8)) (flags i n : Whole),
      Binding.c.run (rangeCall t flags i n : SendCall N) (withOutcomes z outcomes) =
        (Binding.ffi host).run (rangeCall t flags i n) (withOutcomes z outcomes) ↔
      RangeFits host t flags i n outcomes :=
  ⟨fun ps more => allAgree_iff host ps more z outcomes,
    fun t flags i n => range_agrees_iff host t flags i n z outcomes⟩

/-- Nothing to send, or a send that fails with EAGAIN (11). -/
theorem sends_differ :
    ¬ AllAgree (N := Int) ⟨some enotsup, false, none⟩ ⟨[], by decide⟩ false (withOutcomes Zmq.idle []) ∧
    ¬ AllAgree (N := Int) ⟨some enotsup, false, none⟩ ⟨[[97]], by decide⟩ false
      (withOutcomes Zmq.idle [some 11]) := by
  rw [allAgree_iff, allAgree_iff]
  decide

end Lzmq.Sends
