/-
  The two models of `send_all` and `sendx` of the C binding.

  `CSocket.Framing` models them as loops over lists, with a libzmq that keeps the frames it has accepted;
  from it comes what a peer receives.  `CApi.Send` models the whole C functions on the Lua stack, with a
  libzmq that keeps the calls made to it.  Either one sends what `sendParts` says, so they reply the same
  and libzmq has accepted the parts of the calls that succeed (`sendx_layers`, `sendAll_layers`), as long as
  `send_all` has room for them on its stack, which `CSocket.Framing` does not have.
  `sendx_frames` and `sendAll_frames` carry the frames of a message over to the calls on the stack.
-/
import Lzmq.Sends.Agree

namespace Lzmq.Sends

open Lzmq.CApi
open Lzmq.CFunction (Reply Outcome)
open Lzmq.CSocket (zmqSndmore SendSide SendReply Part hasMore)
open Lzmq.Framing (frames)

/-! ## From calls to frames -/

/-- The outcomes of making a message and of sending it. -/
def outcomesOf : Fate → List Bool
  | .ok => [true, true]
  | .noMemory _ => [false]
  | .fails _ => [true, false]

/-- What libzmq accepts when the call succeeds. -/
def partOf : ZmqCall → Option Part
  | .send data flags => some ⟨data, hasMore flags⟩
  | _ => none

/-- What has been accepted when the sending of a list ends; a call that fails is its last one. -/
def accepted (r : List ZmqCall × SendEnd) : List Part :=
  match r.2 with
  | .failed j _ => (r.1.take j).filterMap partOf
  | _ => r.1.filterMap partOf

/-- The reply of `CSocket.Framing`, when `base` is the number of the first part. -/
def replyOf (base : Int) : SendEnd → SendReply
  | .done => .pass
  | .failed j _ => .fail (some (base + j))
  | .invalid _ => .raise

theorem replyOf_after (base : Int) (e : SendEnd) : replyOf base e.after = replyOf (base + 1) e := by
  cases e with
  | done => rfl
  | failed j errno =>
    have hj : base + ((j + 1 : Nat) : Int) = base + 1 + j := by omega
    exact congrArg (fun p => SendReply.fail (some p)) hj
  | invalid j => rfl

/-- A part that is sent before the others. -/
theorem accepted_after (data : List UInt8) (flags : CInt) (r : List ZmqCall × SendEnd) :
    accepted (.send data flags :: r.1, r.2.after) = ⟨data, hasMore flags⟩ :: accepted r := by
  -- a part that fails comes one place later
  obtain ⟨calls, ending⟩ := r
  cases ending <;> rfl

/-! ## The loops over lists -/

/-- A call over lists that ends as the sending of its parts does. -/
def SentAs (base : Int) (sent : List Part) (r : List ZmqCall × SendEnd) (p : SendReply × SendSide) : Prop :=
  p.1 = replyOf base r.2 ∧ p.2.sent = sent ++ accepted r

section SendMsg

variable {fates : List Fate} {sent : List Part} {data : List UInt8} {flags : CInt}

theorem sendMsg_ok (h : fates.headD .ok = .ok) :
    CSocket.sendMsg ⟨sent, fates.flatMap outcomesOf⟩ data flags =
      (true, ⟨sent ++ [⟨data, hasMore flags⟩], fates.tail.flatMap outcomesOf⟩) := by
  cases fates with
  | nil => rfl
  | cons fate fates =>
    rw [List.headD_cons] at h
    rw [h]
    rfl

theorem sendMsg_fails (h : fates.headD .ok ≠ .ok) :
    CSocket.sendMsg ⟨sent, fates.flatMap outcomesOf⟩ data flags =
      (false, ⟨sent, fates.tail.flatMap outcomesOf⟩) := by
  cases fates with
  | nil => exact absurd rfl h
  | cons fate fates =>
    cases fate with
    | ok => exact absurd rfl h
    | noMemory e => rfl
    | fails e => rfl

end SendMsg

section Round

variable {last : CInt} {f : CInt} {base : Int} {data : List UInt8} {es : List (Option (List UInt8))}
  {fates : List Fate} {sent : List Part} {next : SendSide → SendReply × SendSide}

/-- **One round** of either loop: the part, and the parts after it. -/
theorem sentAs_cons (hf : f = if es.isEmpty then last else zmqSndmore)
    (hnext : ∀ sent, SentAs (base + 1) sent (sendParts true last es fates.tail)
      (next ⟨sent, fates.tail.flatMap outcomesOf⟩)) :
    SentAs base sent (sendParts true last (some data :: es) fates)
      (match CSocket.sendMsg ⟨sent, fates.flatMap outcomesOf⟩ data f with
        | (false, z) => (.fail (some base), z)
        | (true, z) => next z) := by
  have hcall : sendCall last es.isEmpty data = .send data f := by rw [sendCall, hf]
  have hzero : (SendReply.fail (some base)) = .fail (some (base + (0 : Nat))) := by
    rw [Int.natCast_zero, Int.add_zero]
  unfold sendParts at hnext ⊢
  cases hfate : fates.headD .ok with
  | ok =>
    rw [sendMsg_ok hfate, eachPart_ok hfate, hcall]
    obtain ⟨hreply, hsent⟩ := hnext (sent ++ [⟨data, hasMore f⟩])
    refine ⟨hreply.trans (replyOf_after base _).symm, ?_⟩
    rw [accepted_after, hsent, List.append_assoc, List.singleton_append]
  | noMemory e =>
    -- the part that fails is the first one
    rw [sendMsg_fails (fun hok => by rw [hok] at hfate; cases hfate), eachPart_noMemory hfate]
    exact ⟨hzero, (List.append_nil _).symm⟩
  | fails e =>
    rw [sendMsg_fails (fun hok => by rw [hok] at hfate; cases hfate), eachPart_fails hfate]
    exact ⟨hzero, (List.append_nil _).symm⟩

end Round

/-- The loop of `sendx`. -/
theorem sendxLoop_sends (lastFlag : CInt) (n : Nat) : ∀ (parts : List (List UInt8)) (i : Nat)
    (fates : List Fate) (sent : List Part), i + parts.length = n + 1 →
    SentAs i sent (sendParts true lastFlag (parts.map some) fates)
      (CSocket.sendxLoop lastFlag n i parts ⟨sent, fates.flatMap outcomesOf⟩) := by
  intro parts
  induction parts with
  | nil => exact fun i fates sent _ => ⟨rfl, (List.append_nil _).symm⟩
  | cons data parts ih =>
    intro i fates sent hi
    rw [List.length_cons] at hi
    have hlast : (if i = n then lastFlag else zmqSndmore) =
        if (parts.map some).isEmpty then lastFlag else zmqSndmore := by
      cases parts with
      | nil => rw [List.length_nil] at hi; exact if_pos (by omega)
      | cons b parts => rw [List.length_cons] at hi; exact if_neg (by omega)
    rw [CSocket.sendxLoop, List.map_cons]
    apply sentAs_cons hlast
    intro sent'
    have hrest := ih (i + 1) fates.tail sent' (by omega)
    rwa [Int.natCast_add, Int.natCast_one] at hrest

/-- The loop of `send_all`. -/
theorem sendAllLoop_sends (parts : LuaTable (List UInt8)) (flags : CInt) (n : Int) : ∀ (k : Nat) (i : Int)
    (fates : List Fate) (sent : List Part), (0 < k → i + k = n + 1) →
    SentAs i sent (sendParts true flags (partsFrom parts k i) fates)
      (CSocket.sendAllLoop parts flags n k i ⟨sent, fates.flatMap outcomesOf⟩) := by
  intro k
  induction k with
  | zero => exact fun i fates sent _ => ⟨rfl, (List.append_nil _).symm⟩
  | succ k ih =>
    intro i fates sent hi
    replace hi := hi (Nat.succ_pos k)
    have hlast : (if i = n then flags else zmqSndmore) =
        if (partsFrom parts k (i + 1)).isEmpty then flags else zmqSndmore := by
      cases k with
      | zero => exact if_pos (by omega)
      | succ k => exact if_neg (by omega)
    rw [CSocket.sendAllLoop, partsFrom]
    cases parts.get i with
    | none => exact ⟨rfl, (List.append_nil _).symm⟩
    | some data =>
      apply sentAs_cons hlast
      exact fun sent' => ih (i + 1) fates.tail sent' fun _ => by omega

/-! ## The calls -/

variable {N : Type} [LuaNumber N]

/-- The two models of a call end the same: as the sending of its parts does, or with refused flags. -/
def SameSend (base : Int) (env : Zmq) (sent : List Part) (v : Option (Reply (Val N) × List ZmqCall))
    (p : SendReply × SendSide) : Prop :=
  (∃ r, v = some (r.2.reply (numbered base), env.calls ++ r.1) ∧ SentAs base sent r p) ∨
    v = some (.ret [.elem .nil, .err enotsup], env.calls) ∧ p.1 = .enotsup ∧ p.2.sent = sent

/-- **`sendx`** on the stack and over a list. -/
theorem sendx_layers (lastFlag : CInt) (parts : List (List UInt8)) (env : Zmq) (sent : List Part) :
    SameSend 2 env sent (view (parts.length + 1) (callSendx lastFlag (parts.map .str : List (Elem N)) env))
      (CSocket.luazmqSktSendxImpl ⟨sent, env.fates.flatMap outcomesOf⟩ parts lastFlag) := by
  have hbytes : (parts.map .str : List (Elem N)).map Elem.bytes = parts.map some := by
    rw [List.map_map]
    rfl
  have hstack := view_heightx (callSendx_sends lastFlag (parts.map .str : List (Elem N)) env)
  rw [hbytes, List.length_map] at hstack
  exact .inl ⟨_, hstack, sendxLoop_sends lastFlag _ parts 2 env.fates sent (by omega)⟩

section SendAll

variable (t : LuaTable (List UInt8)) (flags : CInt) (i? n? : Option CInt) (env : Zmq) (sent : List Part)

omit [LuaNumber N] in
theorem border_strTable : (strTable t : LuaTable (Elem N)).border = t.border := by
  have hfrom : ∀ k n : Nat, LuaTable.borderFrom (strTable t : LuaTable (Elem N)) n k = t.borderFrom n k := by
    intro k
    induction k with
    | zero => exact fun n => rfl
    | succ k ih =>
      intro n
      rw [LuaTable.borderFrom, LuaTable.borderFrom, ih, strTable, Option.isSome_map]
  exact hfrom t.top 0

omit [LuaNumber N] in
/-- Both ends of the range are the same, for a table whose length is an `int`. -/
theorem sendAllEnd_eq (hborder : (t.border : Int) ≤ intMax) :
    CSocket.sendAllEnd t (i?.getD 1).toInt (n?.map BitVec.toInt) =
      (lastElem (strTable t : LuaTable (Elem N)) (i?.getD 1) n?).map BitVec.toInt := by
  cases n? with
  | none =>
    have hlen : (BitVec.ofNat 32 t.border).toInt = t.border := by
      rw [intMax] at hborder
      rw [BitVec.toInt_ofNat', Int.bmod_eq_of_le (by omega) (by omega)]
    rw [lastElem, border_strTable, Option.map_some, hlen]
    rfl
  | some n =>
    rw [Option.map_some, CSocket.sendAllEnd, lastElem]
    split <;> rfl

/-- **`send_all`** on the stack and over a list, unless it runs past INT_MAX or overruns its stack. -/
theorem sendAll_layers (hborder : (t.border : Int) ≤ intMax)
    (hdefined : view 5 (callSendAll (strTable t : LuaTable (Elem N)) flags i? n? env) ≠ none) :
    SameSend (i?.getD 1).toInt env sent (view 5 (callSendAll (strTable t : LuaTable (Elem N)) flags i? n? env))
      (CSocket.luazmqSktSendAll ⟨sent, env.fates.flatMap outcomesOf⟩ t flags (i?.map BitVec.toInt)
        (n?.map BitVec.toInt)) := by
  have hi : (i?.map BitVec.toInt).getD 1 = (i?.getD 1).toInt := by cases i? <;> rfl
  have hend := sendAllEnd_eq (N := N) t i? n? hborder
  rw [CSocket.luazmqSktSendAll, hi]
  simp only [hend]
  cases hlast : lastElem (strTable t : LuaTable (Elem N)) (i?.getD 1) n? with
  | none =>
    rw [callSendAll_range env hlast]
    exact .inl ⟨([], .invalid 0), congrArg (fun l => some (Reply.raise, l)) (List.append_nil _).symm, rfl,
      (List.append_nil _).symm⟩
  | some n =>
    by_cases hflags : FlagsOk flags
    · have hstack := callSendAll_sends env hlast hflags rfl
      split at hstack
      next => exact absurd (congrArg (view 5) hstack) hdefined
      next =>
        have hview := view_ends hstack
        rw [hview] at hdefined
        rw [if_pos (by_contra fun hle => hdefined (if_neg hle)), CApi.range, map_bytes_strTable] at hview
        simp only [Option.map_some, if_neg (not_not.mpr (show flags &&& ~~~zmqSndmore = 0 from hflags))]
        exact .inl ⟨_, hview, sendAllLoop_sends t flags _ _ _ env.fates sent fun hk => by omega⟩
    · rw [callSendAll_flags env hlast hflags]
      simp only [Option.map_some, if_pos (show flags &&& ~~~zmqSndmore ≠ 0 from hflags)]
      exact .inr ⟨rfl, rfl, rfl⟩

end SendAll

/-! ## The frames of a message -/

section Frames

variable {env : Zmq} {base : Int} {v : Option (Reply (Val N) × List ZmqCall)} {calls : List ZmqCall}

/-- A call that returns true, in both models: libzmq has accepted all its parts. -/
theorem SameSend.frames {p : SendReply × SendSide} {fs : List (List UInt8 × Bool)}
    (h : SameSend base env [] v p) (hpass : v = some (.ret [.bool true], calls))
    (hframes : ∀ z, p = (.pass, z) → z.sent.map Part.frame = fs) :
    ∃ cs, calls = env.calls ++ cs ∧ (cs.filterMap partOf).map Part.frame = fs := by
  rcases h with ⟨r, hview, hreply, hsent⟩ | ⟨hview, -⟩
  · obtain ⟨hret, hcalls⟩ := Prod.mk.inj (Option.some.inj (hview.symm.trans hpass))
    cases hend : r.2 with
    | done =>
      rw [hend] at hreply
      refine ⟨r.1, hcalls.symm, ?_⟩
      rw [← hframes p.2 (Prod.ext hreply rfl), hsent, List.nil_append, accepted, hend]
    | failed j e => rw [hend] at hret; cases hret
    | invalid j => rw [hend] at hret; cases hret
  · cases congrArg Prod.fst (Option.some.inj (hview.symm.trans hpass))

/-- **The frames of `sendx`.** -/
theorem sendx_frames (lastFlag : CInt) (parts : List (List UInt8))
    (hpass : view (parts.length + 1) (callSendx lastFlag (parts.map .str : List (Elem N)) env) =
      some (.ret [.bool true], calls)) :
    ∃ cs, calls = env.calls ++ cs ∧
      (cs.filterMap partOf).map Part.frame = frames parts (hasMore lastFlag) := by
  apply (sendx_layers lastFlag parts env []).frames hpass
  intro z hz
  exact CSocket.sent_sendxLoop lastFlag _ parts 2 _ z (by omega) hz

/-- **The frames of `send_all`.** -/
theorem sendAll_frames (t : LuaTable (List UInt8)) (flags : CInt) (i? n? : Option CInt)
    (hborder : (t.border : Int) ≤ intMax)
    (hpass : view 5 (callSendAll (strTable t : LuaTable (Elem N)) flags i? n? env) =
      some (.ret [.bool true], calls)) :
    ∃ cs, calls = env.calls ++ cs ∧ (cs.filterMap partOf).map Part.frame =
      frames (CSocket.SendCall.sendAll t flags (i?.map BitVec.toInt) (n?.map BitVec.toInt)).parts
        (hasMore flags) := by
  have hdefined : view 5 (callSendAll (strTable t : LuaTable (Elem N)) flags i? n? env) ≠ none := fun hnone => by
    rw [hnone] at hpass
    cases hpass
  apply (sendAll_layers t flags i? n? env [] hborder hdefined).frames hpass
  intro z hz
  exact CSocket.sent_luazmqSktSendAll hz

end Frames

end Lzmq.Sends
