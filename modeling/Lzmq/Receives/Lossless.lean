/-
  What becomes of the parts that the receive methods take from libzmq, in both bindings.

  A request takes parts off the stream of incoming parts and hands the strings and messages among its values over.
  In any run the parts handed over are the parts taken, in their order, with some of them dropped or cut short.  The
  exact conditions for a run without any loss (`c_lossless_iff`, `ffi_lossless_iff`) differ:
    * both cut a part that is longer than the buffer of `recv_len`;
    * the C binding also drops the part of a `recv_len` whose query for the more flag fails, and one part of a
      `recvx` that fails after some parts;
    * the FFI binding drops all the parts of a `recv_all` or `recvx` that fails after some parts.
-/
import Lzmq.Lib.Delivery
import Lzmq.Receives.Agree

namespace Lzmq.Receives

open Lzmq.Steps Lzmq.Delivery
open Lzmq.CSocket

/-! ## What a request hands over -/

/-- The bytes in a value. -/
def LuaVal.handed : LuaVal → List (List UInt8)
  | .str data => [data]
  | .msg data => [data]
  | .table elems => elems
  | _ => []

/-- The bytes in the values of a method. -/
def handed : Reply → List (List UInt8)
  | .ret vals => vals.flatMap LuaVal.handed
  | .raise => []

/-- The parts still to come. -/
def coming (z : Zmq) : List (List UInt8) := z.incoming.map Part.data

def cStep (skt : ZSocket) (r : Request) : Option ZSocket := some (cRequest skt r).2

def ffiStep (z : Zmq) (r : Request) : Option Zmq := some (ffiRequest z r).2

/-- A part as `recv_len` can cut it. -/
theorem shortens_prefix : Shortens (fun x y : List UInt8 => x <+: y) List.length where
  refl _ := List.prefix_rfl
  trans := List.IsPrefix.trans
  le := List.IsPrefix.length_le
  eq := List.IsPrefix.eq_of_length

/-- A `recv_len` that receives a part finds room for it. -/
def Fits (z : Zmq) (r : Request) (len : Nat) : Prop :=
  ∀ p, z.incoming.head? = some p → r.outcomes.getD 0 true = true → r.outcomes.getD 1 true = true →
    p.data.length ≤ len

/-- A loop of receives gets a whole message, or nothing. -/
def AllOrNothing (z : Zmq) (r : Request) : Prop :=
  messageEnds z.incoming r.outcomes = true ∨ partsTo z.incoming r.outcomes = []

/-- When a request of the C binding hands over what it takes. -/
def CLossless (skt : ZSocket) (r : Request) : Prop :=
  match r.call with
  | .op (.recvLen len) => Fits skt.zmq r len ∧ ¬ QueryFails skt.zmq r
  | .op .recvx => AllOrNothing skt.zmq r
  | _ => True

/-- When a request of the FFI binding hands over what it takes. -/
def FfiLossless (z : Zmq) (r : Request) : Prop :=
  match r.call with
  | .op (.recvLen len) => Fits z r len
  | .op .recvAll => AllOrNothing z r
  | .op .recvx => AllOrNothing z r
  | _ => True

/-! ## One part -/

/-- A part received and handed over, or nothing received. -/
theorem handed_recv (z : Zmq) : handed (FfiSocket.recv z).1 ++ coming (FfiSocket.recv z).2 = coming z := by
  rw [FfiSocket.recv, zmqMsgInit, attempt_eq]
  cases z.outcomes.getD 0 true with
  | false => rfl
  | true =>
    simp only
    cases hnext : nextPart { z with outcomes := z.outcomes.drop 1 } with
    | none => rw [zmqMsgRecv_none hnext]; rfl
    | some p =>
      rw [zmqMsgRecv_some hnext]
      rw [nextPart] at hnext
      have hin : z.incoming.head? = some p := by grind
      exact (congrArg (List.map Part.data) (List.eq_cons_of_mem_head? hin)).symm

theorem handed_msgRecv (z : Zmq) :
    handed (FfiSocket.msgRecv z).1 ++ coming (FfiSocket.msgRecv z).2 = coming z := by
  rw [FfiSocket.msgRecv]
  cases hnext : nextPart z with
  | none => rw [zmqMsgRecv_none hnext]; rfl
  | some p =>
    rw [zmqMsgRecv_some hnext]
    rw [nextPart] at hnext
    have hin : z.incoming.head? = some p := by grind
    exact (congrArg (List.map Part.data) (List.eq_cons_of_mem_head? hin)).symm

theorem handed_recvNewMsg (given : Bool) (z : Zmq) :
    handed (FfiSocket.recvNewMsg given z).1 ++ coming (FfiSocket.recvNewMsg given z).2 = coming z := by
  rw [FfiSocket.recvNewMsg, zmqMsgInit, attempt_eq]
  cases z.outcomes.getD 0 true with
  | false => rfl
  | true =>
    cases given with
    | true => rfl
    | false => exact handed_msgRecv { z with outcomes := z.outcomes.drop 1 }

theorem handed_more (z : Zmq) : handed (FfiSocket.more z).1 ++ coming (FfiSocket.more z).2 = coming z := by
  rw [FfiSocket.more, zmqGetRcvmore, attempt_eq]
  cases z.outcomes.getD 0 true <;> rfl

/-- The part that `recv_len` receives. -/
def lenPart (z : Zmq) : List (List UInt8) :=
  if z.outcomes.getD 0 true = true ∧ z.outcomes.getD 1 true = true then
    z.incoming.head?.toList.map Part.data
  else []

/-- **`recv_len`** of the FFI binding hands over what its buffer holds. -/
theorem handed_recvLen (len : Nat) (z : Zmq) :
    handed (FfiSocket.recvLen len z).1 = (lenPart z).map (List.take len) ∧
      lenPart z ++ coming (FfiSocket.recvLen len z).2 = coming z := by
  rw [FfiSocket.recvLen, attempt_eq, lenPart]
  cases z.outcomes.getD 0 true with
  | false => exact ⟨by simp [handed], rfl⟩
  | true =>
    simp only
    cases hnext : nextPart { z with outcomes := z.outcomes.drop 1 } with
    | none =>
      rw [zmqMsgRecv_none hnext]
      rw [nextPart, getD_drop_one] at hnext
      have hnone : (if True ∧ z.outcomes.getD 1 true = true then z.incoming.head?.toList.map Part.data else []) =
          [] := by grind
      rw [hnone]
      exact ⟨rfl, rfl⟩
    | some p =>
      rw [zmqMsgRecv_some hnext]
      rw [nextPart, getD_drop_one] at hnext
      have h1 : z.outcomes.getD 1 true = true := by grind
      rw [if_pos h1] at hnext
      simp only
      rw [if_pos ⟨trivial, h1⟩, hnext, zmqGetRcvmore, attempt_eq]
      have hrest := (congrArg (List.map Part.data) (List.eq_cons_of_mem_head? hnext)).symm
      cases List.getD _ 0 true <;> exact ⟨rfl, hrest⟩

/-- **`recv_len`** of the C binding hands nothing over when the query for the more flag fails. -/
theorem handed_luazmqSktRecvLen (skt : ZSocket) (len : Nat) :
    handed (luazmqSktRecvLen skt len).1 =
      if skt.zmq.outcomes.getD 2 true then (lenPart skt.zmq).map (List.take len) else [] := by
  by_cases hquery : QueryFails skt.zmq ⟨.op (.recvLen len), skt.zmq.outcomes⟩
  · obtain ⟨hin, h0, h1, h2⟩ := hquery
    rw [h2, luazmqSktRecvLen, attempt_eq, h0]
    simp only
    obtain ⟨p, hp⟩ : ∃ p, nextPart { skt.zmq with outcomes := skt.zmq.outcomes.drop 1 } = some p := by
      rw [nextPart, getD_drop_one, if_pos h1]
      exact Option.isSome_iff_exists.mp (List.isSome_head?.mpr hin)
    rw [zmqMsgRecv_some hp]
    simp only
    rw [zmqGetRcvmore, attempt_eq, List.drop_drop, List.getD_eq_getElem?_getD, List.getElem?_drop,
      ← List.getD_eq_getElem?_getD, h2]
    rfl
  · rw [(recvLen_mirrors skt len).1.mpr hquery, (handed_recvLen len skt.zmq).1]
    cases h2 : skt.zmq.outcomes.getD 2 true with
    | true => rfl
    | false =>
      -- no part was there for the query to come after
      have hnone : lenPart skt.zmq = [] := by
        rw [lenPart]
        grind [QueryFails]
      rw [hnone]
      rfl

/-! ## Loops of receives -/

/-- The parts that a loop takes. -/
def loopParts (z : Zmq) : List (List UInt8) := (partsTo z.incoming z.outcomes).map Part.data

/-- What a loop takes it takes from the front. -/
theorem recvParts_rest : ∀ (ps : List Part) (z : Zmq) (got : List (List UInt8)), z.incoming = ps →
    partsTo ps z.outcomes ++ (recvParts z got).2.2.incoming = ps := by
  intro ps
  induction ps with
  | nil =>
    intro z got hz
    obtain ⟨outcomes, h⟩ := recvParts_stop (z := z) got (Or.inr (by
      rw [nextPart, hz]
      split <;> rfl))
    rw [h, partsTo, List.nil_append]
    exact hz
  | cons p ps ih =>
    intro z got hz
    rw [partsTo]
    by_cases hok : z.outcomes.getD 0 true = true ∧ z.outcomes.getD 1 true = true
    · have hnext : nextPart { z with outcomes := z.outcomes.drop 1 } = some p := by
        rw [nextPart, hz, getD_drop_one, if_pos hok.2]
        rfl
      rw [if_pos hok, recvParts_part got hok.1 hnext, hz, List.tail_cons, List.cons_append]
      cases hmore : p.more with
      | false => rfl
      | true => exact congrArg (p :: ·) (ih ⟨ps, true, z.outcomes.drop 2⟩ (got ++ [p.data]) rfl)
    · rw [if_neg hok]
      obtain ⟨outcomes, h⟩ := recvParts_fails got hok
      rw [h, List.nil_append]
      exact hz

theorem recvParts_takes (ps : List Part) (z : Zmq) (got : List (List UInt8)) (hz : z.incoming = ps) :
    loopParts z ++ coming (recvParts z got).2.2 = coming z := by
  have hrest := recvParts_rest ps z got hz
  rw [loopParts, coming, ← List.map_append, hz, hrest, coming, hz]

theorem handed_table (l : List (List UInt8)) : handed (.ret [.table l]) = l := List.append_nil l

theorem handed_strs (l : List (List UInt8)) : handed (.ret (l.map .str)) = l := by
  rw [handed, List.flatMap_map]
  exact List.flatMap_singleton' l

theorem handed_luazmqSktRecvAll (skt : ZSocket) : handed (luazmqSktRecvAll skt).1 = loopParts skt.zmq := by
  obtain ⟨z', hz'⟩ := recvParts_spec _ skt.zmq [] rfl
  rw [luazmqSktRecvAll, hz']
  cases messageEnds skt.zmq.incoming skt.zmq.outcomes <;> exact handed_table _

theorem handed_luazmqSktRecvx (skt : ZSocket) : handed (luazmqSktRecvx skt).1 =
    if messageEnds skt.zmq.incoming skt.zmq.outcomes then loopParts skt.zmq else (loopParts skt.zmq).dropLast := by
  cases hends : messageEnds skt.zmq.incoming skt.zmq.outcomes with
  | true =>
    obtain ⟨z', hz'⟩ := recvParts_spec _ skt.zmq [] rfl
    rw [luazmqSktRecvx, hz', hends]
    exact handed_strs _
  | false =>
    rw [luazmqSktRecvx_interrupted hends, recvxFailed]
    have hparts : received skt = loopParts skt.zmq := rfl
    by_cases hnil : received skt = []
    · rw [if_pos hnil, ← hparts, hnil]
      rfl
    · rw [if_neg hnil, hparts]
      exact handed_strs _

theorem handed_recvAll (z : Zmq) : handed (FfiSocket.recvAll z).1 =
    if messageEnds z.incoming z.outcomes then loopParts z else [] := by
  rw [FfiSocket.recvAll_eq]
  cases messageEnds z.incoming z.outcomes with
  | true => exact handed_table _
  | false => rfl

theorem handed_recvx (z : Zmq) : handed (FfiSocket.recvx z).1 =
    if messageEnds z.incoming z.outcomes then loopParts z else [] := by
  rw [FfiSocket.recvx_eq]
  cases messageEnds z.incoming z.outcomes with
  | false => rfl
  | true =>
    rw [if_pos rfl, if_pos rfl, loopParts]
    exact (congrArg (fun l => handed (.ret l)) List.map_map.symm).trans (handed_strs _)

/-! ## One request -/

/-- Of some parts that a request takes it hands some over, and all of them exactly when `Whole` holds. -/
def Delivers (z : Zmq) (res : Reply × Zmq) (Whole : Prop) : Prop :=
  ∃ parts, parts ++ coming res.2 = coming z ∧ Less (fun x y => x <+: y) (handed res.1) parts ∧
    (handed res.1 = parts ↔ Whole)

theorem Delivers.honest {z : Zmq} {res : Reply × Zmq} {Whole : Prop} (h : Delivers z res Whole) :
    Less (fun x y => x <+: y) (handed res.1 ++ coming res.2) (coming z) := by
  obtain ⟨parts, htaken, hless, -⟩ := h
  rw [← htaken]
  exact hless.append (Less.refl shortens_prefix _)

theorem Delivers.exact_iff {z : Zmq} {res : Reply × Zmq} {Whole : Prop} (h : Delivers z res Whole) :
    handed res.1 ++ coming res.2 = coming z ↔ Whole := by
  obtain ⟨parts, htaken, -, hwhole⟩ := h
  rw [← htaken, List.append_left_inj]
  exact hwhole

/-- A request that hands over what it takes. -/
theorem delivers_whole {z : Zmq} {res : Reply × Zmq} (h : handed res.1 ++ coming res.2 = coming z) :
    Delivers z res True :=
  ⟨handed res.1, h, Less.refl shortens_prefix _, iff_of_true rfl trivial⟩

theorem less_map_take (len : Nat) (l : List (List UInt8)) :
    Less (fun x y => x <+: y) (l.map (List.take len)) l := by
  induction l with
  | nil => exact .nil
  | cons x l ih => exact .cons (List.take_prefix len x) ih

/-- The part received by `recv_len` is whole iff the buffer holds it. -/
theorem map_take_lenPart_iff (z : Zmq) (r : Request) (len : Nat) :
    (lenPart (ready z r)).map (List.take len) = lenPart (ready z r) ↔ Fits z r len := by
  rw [lenPart, Fits, ready]
  by_cases hok : r.outcomes.getD 0 true = true ∧ r.outcomes.getD 1 true = true
  · rw [if_pos hok]
    cases hhead : z.incoming.head? with
    | none => simp
    | some p =>
      rw [Option.toList_some, List.map_singleton, List.map_singleton, List.singleton_inj]
      constructor
      · rintro h q hq - -
        rw [← Option.some.inj hq, ← h, List.length_take]
        exact Nat.min_le_left len _
      · exact fun h => List.take_of_length_le (h p rfl hok.1 hok.2)
  · rw [if_neg hok]
    refine iff_of_true rfl fun p _ h0 h1 => ?_
    exact absurd ⟨h0, h1⟩ hok

/-- A part is missing of what `recv_len` of the C binding took iff the query failed. -/
theorem lenPart_eq_nil_iff (z : Zmq) (r : Request) (h2 : r.outcomes.getD 2 true = false) :
    lenPart (ready z r) = [] ↔ ¬ QueryFails z r := by
  rw [lenPart, ready, QueryFails]
  cases z.incoming <;> grind

/-- A loop of the FFI binding. -/
theorem delivers_loop {z : Zmq} {res : Reply × Zmq}
    (hhanded : handed res.1 = if messageEnds z.incoming z.outcomes then loopParts z else [])
    (hz : res.2 = (recvParts z []).2.2) :
    Delivers z res (messageEnds z.incoming z.outcomes = true ∨ partsTo z.incoming z.outcomes = []) := by
  refine ⟨loopParts z, by rw [hz]; exact recvParts_takes _ z [] rfl, ?_⟩
  rw [hhanded]
  cases messageEnds z.incoming z.outcomes with
  | true => exact ⟨Less.refl shortens_prefix _, iff_of_true rfl (Or.inl rfl)⟩
  | false =>
    refine ⟨.nil, ?_⟩
    simp only [Bool.false_eq_true, if_false, false_or]
    rw [eq_comm, loopParts, List.map_eq_nil_iff]

/-- **A request of the FFI binding.** -/
theorem ffiRequest_delivers (z : Zmq) (r : Request) : Delivers z (ffiRequest z r) (FfiLossless z r) := by
  obtain ⟨call, outcomes⟩ := r
  cases call with
  | more => exact delivers_whole (handed_more (ready z ⟨.more, outcomes⟩))
  | op op =>
    cases op with
    | recv => exact delivers_whole (handed_recv (ready z ⟨.op .recv, outcomes⟩))
    | recvMsg => exact delivers_whole (handed_msgRecv (ready z ⟨.op .recvMsg, outcomes⟩))
    | msgRecv => exact delivers_whole (handed_msgRecv (ready z ⟨.op .msgRecv, outcomes⟩))
    | recvNewMsg given =>
      exact delivers_whole (handed_recvNewMsg given (ready z ⟨.op (.recvNewMsg given), outcomes⟩))
    | recvLen len =>
      have hlen := handed_recvLen len (ready z ⟨.op (.recvLen len), outcomes⟩)
      refine ⟨_, hlen.2, ?_⟩
      rw [show handed (ffiRequest z ⟨.op (.recvLen len), outcomes⟩).1 = _ from hlen.1]
      exact ⟨less_map_take len _, map_take_lenPart_iff z _ len⟩
    | recvAll =>
      exact delivers_loop (handed_recvAll (ready z ⟨.op .recvAll, outcomes⟩))
        (congrArg Prod.snd (FfiSocket.recvAll_eq _))
    | recvx =>
      exact delivers_loop (handed_recvx (ready z ⟨.op .recvx, outcomes⟩))
        (congrArg Prod.snd (FfiSocket.recvx_eq _))

/-- A method of the C binding that does what the one of the FFI binding does. -/
theorem delivers_of_mirrors {z : Zmq} {c : Reply × ZSocket} {res : Reply × Zmq}
    (hm : c.1 = res.1 ∧ c.2.zmq = res.2) (h : handed res.1 ++ coming res.2 = coming z) :
    Delivers z (c.1, c.2.zmq) True := by
  rw [hm.1, hm.2]
  exact delivers_whole h

theorem delivers_recvMsg (skt : ZSocket) :
    Delivers skt.zmq ((luazmqSktRecvMsg skt).1, (luazmqSktRecvMsg skt).2.zmq) True :=
  delivers_of_mirrors (recvMsg_mirrors skt) (handed_msgRecv skt.zmq)

theorem delivers_recvNewMsg (skt : ZSocket) (given : Bool) :
    Delivers skt.zmq ((luazmqSktRecvNewMsg skt given).1, (luazmqSktRecvNewMsg skt given).2.zmq) True := by
  rw [luazmqSktRecvNewMsg, zmqMsgInit, attempt_eq]
  cases given with
  | true => exact delivers_recvMsg skt
  | false =>
    cases skt.zmq.outcomes.getD 0 true with
    | false => exact delivers_whole rfl
    | true => exact delivers_recvMsg { skt with zmq := { skt.zmq with outcomes := skt.zmq.outcomes.drop 1 } }

/-- A failed `recvx` of the C binding drops the last part that it has. -/
theorem delivers_luazmqSktRecvx (skt : ZSocket) :
    Delivers skt.zmq ((luazmqSktRecvx skt).1, (luazmqSktRecvx skt).2.zmq)
      (messageEnds skt.zmq.incoming skt.zmq.outcomes = true ∨ partsTo skt.zmq.incoming skt.zmq.outcomes = []) := by
  refine ⟨loopParts skt.zmq, by rw [(flags_recvx skt).2]; exact recvParts_takes _ skt.zmq [] rfl, ?_⟩
  rw [handed_luazmqSktRecvx]
  cases messageEnds skt.zmq.incoming skt.zmq.outcomes with
  | true => exact ⟨Less.refl shortens_prefix _, iff_of_true rfl (Or.inl rfl)⟩
  | false =>
    refine ⟨Less.of_sublist shortens_prefix (List.dropLast_sublist _), ?_⟩
    simp only [Bool.false_eq_true, if_false, false_or]
    rw [← List.map_eq_nil_iff, ← loopParts]
    constructor
    · intro h
      have hlen := congrArg List.length h
      rw [List.length_dropLast] at hlen
      exact List.length_eq_zero_iff.mp (by omega)
    · intro h
      rw [h]
      rfl

theorem delivers_luazmqSktRecvAll (skt : ZSocket) :
    Delivers skt.zmq ((luazmqSktRecvAll skt).1, (luazmqSktRecvAll skt).2.zmq) True := by
  refine delivers_whole ?_
  have hall := handed_luazmqSktRecvAll skt
  have htakes := recvParts_takes _ skt.zmq [] rfl
  rw [← htakes, ← (flags_recvAll skt).2]
  exact congrArg (· ++ _) hall

theorem delivers_luazmqSktRecvLen (skt : ZSocket) (r : Request) (len : Nat) :
    Delivers (ready skt.zmq r) ((luazmqSktRecvLen { skt with zmq := ready skt.zmq r } len).1,
      (luazmqSktRecvLen { skt with zmq := ready skt.zmq r } len).2.zmq)
      (Fits skt.zmq r len ∧ ¬ QueryFails skt.zmq r) := by
  have hlen := handed_recvLen len (ready skt.zmq r)
  refine ⟨lenPart (ready skt.zmq r), ?_, ?_⟩
  · rw [(recvLen_mirrors _ len).2]
    exact hlen.2
  · rw [handed_luazmqSktRecvLen]
    simp only
    cases h2 : r.outcomes.getD 2 true with
    | true =>
      rw [show (ready skt.zmq r).outcomes = r.outcomes from rfl, h2, if_pos rfl, map_take_lenPart_iff]
      refine ⟨less_map_take len _, (and_iff_left ?_).symm⟩
      rintro ⟨-, -, -, h2'⟩
      exact absurd (h2.symm.trans h2') (by simp)
    | false =>
      rw [show (ready skt.zmq r).outcomes = r.outcomes from rfl, h2, if_neg (by simp), eq_comm,
        lenPart_eq_nil_iff skt.zmq r h2]
      refine ⟨.nil, (and_iff_right_of_imp fun hquery p hp h0 h1 => ?_).symm⟩
      -- where the query comes to nothing, no part was received
      refine absurd ⟨?_, h0, h1, h2⟩ hquery
      rintro hnil
      rw [hnil] at hp
      cases hp

/-- **A request of the C binding.** -/
theorem cRequest_delivers (skt : ZSocket) (r : Request) :
    Delivers skt.zmq ((cRequest skt r).1, (cRequest skt r).2.zmq) (CLossless skt r) := by
  obtain ⟨call, outcomes⟩ := r
  cases call with
  | more => exact delivers_whole rfl
  | op op =>
    cases op with
    | recv => exact delivers_of_mirrors (recv_mirrors _) (handed_recv _)
    | recvMsg => exact delivers_recvMsg _
    | msgRecv => exact delivers_of_mirrors (msgRecv_mirrors _) (handed_msgRecv _)
    | recvNewMsg given => exact delivers_recvNewMsg _ given
    | recvLen len => exact delivers_luazmqSktRecvLen skt _ len
    | recvAll => exact delivers_luazmqSktRecvAll { skt with zmq := ready skt.zmq ⟨.op .recvAll, outcomes⟩ }
    | recvx => exact delivers_luazmqSktRecvx { skt with zmq := ready skt.zmq ⟨.op .recvx, outcomes⟩ }

/-! ## Sequences of requests -/

/-- What the C binding hands over in a run. -/
def cDelivered (skt : ZSocket) (rs : List Request) : List (List UInt8) :=
  delivered cStep (fun skt r => handed (cRequest skt r).1) skt rs

/-- What the FFI binding hands over in a run. -/
def ffiDelivered (z : Zmq) (rs : List Request) : List (List UInt8) :=
  delivered ffiStep (fun z r => handed (ffiRequest z r).1) z rs

theorem c_honest : Honest cStep (fun skt => coming skt.zmq) (fun skt r => handed (cRequest skt r).1)
    (fun x y => x <+: y) := by
  intro skt r skt' h
  obtain rfl := Option.some.inj h
  exact (cRequest_delivers skt r).honest

theorem ffi_honest : Honest ffiStep coming (fun z r => handed (ffiRequest z r).1) (fun x y => x <+: y) := by
  intro z r z' h
  obtain rfl := Option.some.inj h
  exact (ffiRequest_delivers z r).honest

/-- **Receiving with the C binding.**  In every run the parts handed over are, in their order, parts taken, some of
    them dropped or cut short; and nothing is lost iff every request meets `CLossless`. -/
theorem c_lossless_iff (own : Bool) (incoming : List Part) (rs : List Request) :
    ∃ skt, run cStep (newSocket own incoming []) rs = some skt ∧
      Less (fun x y => x <+: y) (cDelivered (newSocket own incoming []) rs ++ coming skt.zmq)
        (incoming.map Part.data) ∧
      (cDelivered (newSocket own incoming []) rs ++ coming skt.zmq = incoming.map Part.data ↔
        Meets cStep CLossless (newSocket own incoming []) rs) := by
  obtain ⟨skt, hskt⟩ := exists_run cStep (fun _ _ => ⟨_, rfl⟩) rs (newSocket own incoming [])
  refine ⟨skt, hskt, run_less shortens_prefix c_honest rs _ _ hskt, ?_⟩
  refine run_exact_iff shortens_prefix c_honest (fun skt r skt' h => ?_) rs _ _ hskt
  obtain rfl := Option.some.inj h
  exact (cRequest_delivers skt r).exact_iff

/-- **Receiving with the FFI binding**, likewise with `FfiLossless`. -/
theorem ffi_lossless_iff (incoming : List Part) (rs : List Request) :
    ∃ z, run ffiStep ⟨incoming, false, []⟩ rs = some z ∧
      Less (fun x y => x <+: y) (ffiDelivered ⟨incoming, false, []⟩ rs ++ coming z) (incoming.map Part.data) ∧
      (ffiDelivered ⟨incoming, false, []⟩ rs ++ coming z = incoming.map Part.data ↔
        Meets ffiStep FfiLossless ⟨incoming, false, []⟩ rs) := by
  obtain ⟨z, hz⟩ := exists_run ffiStep (fun _ _ => ⟨_, rfl⟩) rs (⟨incoming, false, []⟩ : Zmq)
  refine ⟨z, hz, run_less shortens_prefix ffi_honest rs _ _ hz, ?_⟩
  refine run_exact_iff shortens_prefix ffi_honest (fun z r z' h => ?_) rs _ _ hz
  obtain rfl := Option.some.inj h
  exact (ffiRequest_delivers z r).exact_iff

end Lzmq.Receives
