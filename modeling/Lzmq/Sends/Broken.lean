/-
  What a peer receives when sends fail, in both bindings.

  A multipart send that fails part-way has sent the parts before, each with ZMQ_SNDMORE, and nothing takes them back.
  They become the head of the message that is sent next.  So the messages of the calls that succeed arrive as they
  were sent iff no call fails after some of its parts and is followed by a call that ends a message
  (`c_messages_iff`, `ffi_messages_iff`), over every sequence of calls and every pattern of failures.

  Both bindings satisfy one description of a call (`Sending`); what follows from it is proved for any such code.
-/
import Lzmq.FfiSocket.Framing
import Lzmq.Lib.Broken

namespace Lzmq.Sends

open Lzmq.Framing
open Lzmq.CSocket (Part SendSide SendReply SendCall messagesOf callMessages zmqSndmore hasMore slice)

/-! ## Code that sends -/

/-- What a call does: it sends the frames of its chunk, or it fails behind some parts that say that more follow. -/
structure Sending (z : SendSide) (c : SendCall) (res : SendReply × SendSide) : Prop where
  passes : res.1 = .pass → res.2.sent.map Part.frame = z.sent.map Part.frame ++ frames c.parts c.more
  breaks : res.1 ≠ .pass → ∃ ps : List (List UInt8), res.2.sent = z.sent ++ ps.map fun data => ⟨data, true⟩

section Code

variable (code : SendSide → SendCall → SendReply × SendSide)

/-- The socket after some calls. -/
def after : SendSide → List SendCall → SendSide
  | z, [] => z
  | z, c :: cs => after (code z c).2 cs

/-- A call that succeeds and has parts. -/
def Sent (z : SendSide) (c : SendCall) : Prop := (code z c).1 = .pass ∧ c.parts ≠ []

instance (z : SendSide) (c : SendCall) : Decidable (Sent code z c) := inferInstanceAs (Decidable (_ ∧ _))

/-- The calls that succeed and have parts. -/
def sentCalls : SendSide → List SendCall → List SendCall
  | _, [] => []
  | z, c :: cs => (if Sent code z c then [c] else []) ++ sentCalls (code z c).2 cs

/-- No call ends a message. -/
def Endless : SendSide → List SendCall → Prop
  | _, [] => True
  | z, c :: cs => (Sent code z c → c.more = true) ∧ Endless (code z c).2 cs

/-- A call that fails behind some of its parts is not followed by a call that ends a message. -/
def Intact : SendSide → List SendCall → Prop
  | _, [] => True
  | z, c :: cs => (Sent code z c ∨ (code z c).2.sent = z.sent ∨ Endless code (code z c).2 cs) ∧
    Intact (code z c).2 cs

/-- What a call leaves in the stream, and whether that is its whole chunk. -/
def contribution (z : SendSide) (c : SendCall) : Chunk (List UInt8) × Bool :=
  if Sent code z c then (c.chunk, true)
  else ((((code z c).2.sent.drop z.sent.length).map Part.data, true), false)

def contributions : SendSide → List SendCall → List (Chunk (List UInt8) × Bool)
  | _, [] => []
  | z, c :: cs => contribution code z c :: contributions (code z c).2 cs

variable {code}

/-- A call that does not send its chunk. -/
theorem Sending.unsent {z : SendSide} {c : SendCall} (h : Sending z c (code z c)) (hsent : ¬ Sent code z c) :
    ∃ ps : List (List UInt8), (code z c).2.sent = z.sent ++ ps.map fun data => ⟨data, true⟩ := by
  by_cases hpass : (code z c).1 = .pass
  · -- it has no parts
    have hparts : c.parts = [] := by
      by_contra hne
      exact hsent ⟨hpass, hne⟩
    have hframes := h.passes hpass
    rw [hparts, frames, List.append_nil] at hframes
    have hinj : Function.Injective Part.frame := by
      rintro ⟨data, more⟩ ⟨data', more'⟩ heq
      cases heq
      rfl
    refine ⟨[], ?_⟩
    rw [List.map_injective_iff.mpr hinj hframes, List.map_nil, List.append_nil]
  · exact h.breaks hpass

/-- **One call** appends the frames of its contribution. -/
theorem Sending.frames_contribution {z : SendSide} {c : SendCall} (h : Sending z c (code z c)) :
    (code z c).2.sent.map Part.frame = z.sent.map Part.frame ++
      frames (contribution code z c).1.1 (contribution code z c).1.2 := by
  by_cases hsent : Sent code z c
  · rw [contribution, if_pos hsent]
    exact h.passes hsent.1
  · obtain ⟨ps, hps⟩ := h.unsent hsent
    rw [contribution, if_neg hsent, hps, List.drop_left, frames_open, List.map_append, List.map_map,
      List.map_map, List.map_map]
    rfl

/-- A call that does not send its chunk contributes nothing iff it sends nothing. -/
theorem Sending.contribution_nil_iff {z : SendSide} {c : SendCall} (h : Sending z c (code z c))
    (hsent : ¬ Sent code z c) : (contribution code z c).1.1 = [] ↔ (code z c).2.sent = z.sent := by
  obtain ⟨ps, hps⟩ := h.unsent hsent
  rw [contribution, if_neg hsent, hps, List.drop_left, List.append_right_eq_self]
  exact List.map_eq_nil_iff

theorem contribution_snd (z : SendSide) (c : SendCall) : (contribution code z c).2 = true ↔ Sent code z c := by
  rw [contribution]
  split <;> simp [*]

theorem open_contributions : ∀ (cs : List SendCall) (z : SendSide), Open (contributions code z cs) := by
  intro cs
  induction cs with
  | nil => intro z c hc; cases hc
  | cons c cs ih =>
    intro z d hd
    rw [contributions, List.mem_cons] at hd
    rcases hd with rfl | hd
    · rw [contribution]
      split
      · exact fun h => by cases h
      · exact fun _ => rfl
    · exact ih _ d hd

theorem meant_contributions : ∀ (cs : List SendCall) (z : SendSide),
    meant (contributions code z cs) = (sentCalls code z cs).map SendCall.chunk := by
  intro cs
  induction cs with
  | nil => exact fun _ => rfl
  | cons c cs ih =>
    intro z
    rw [contributions, sentCalls, contribution]
    split
    · rw [meant_cons_true, ih]
      rfl
    · rw [meant_cons_false, ih]
      rfl

theorem endless_iff : ∀ (cs : List SendCall) (z : SendSide),
    (∀ d ∈ contributions code z cs, d.1.2 = true) ↔ Endless code z cs := by
  intro cs
  induction cs with
  | nil => exact fun _ => iff_of_true (fun d hd => by cases hd) trivial
  | cons c cs ih =>
    intro z
    rw [contributions, List.forall_mem_cons, Endless, ih]
    refine and_congr_left fun _ => ?_
    rw [contribution]
    split
    next hsent => exact ⟨fun h _ => h, fun h => h hsent⟩
    next hsent => exact iff_of_true rfl fun h => absurd h hsent

/-- A chunk that was sent whole has parts. -/
theorem nonempty_of_meant : ∀ (cs : List SendCall) (z : SendSide), ∀ d ∈ contributions code z cs, d.2 = true →
    d.1.1 ≠ [] := by
  intro cs
  induction cs with
  | nil => intro z d hd; cases hd
  | cons c cs ih =>
    intro z d hd hgood
    rw [contributions, List.mem_cons] at hd
    rcases hd with rfl | hd
    · have hsent := (contribution_snd z c).mp hgood
      rw [contribution, if_pos hsent]
      exact hsent.2
    · exact ih _ d hd hgood

variable (hcode : ∀ z c, Sending z c (code z c))
include hcode

theorem unglued_iff : ∀ (cs : List SendCall) (z : SendSide),
    Unglued (contributions code z cs) ↔ Intact code z cs := by
  intro cs
  induction cs with
  | nil => exact fun _ => Iff.rfl
  | cons c cs ih =>
    intro z
    rw [contributions, Unglued, Intact, ih, contribution_snd, endless_iff]
    refine and_congr_left fun _ => ?_
    by_cases hsent : Sent code z c
    · exact iff_of_true (Or.inl hsent) (Or.inl hsent)
    · rw [(hcode z c).contribution_nil_iff hsent]

/-- **A sequence of calls** appends the frames of what they contribute. -/
theorem frames_after : ∀ (cs : List SendCall) (z : SendSide), (after code z cs).sent.map Part.frame =
    z.sent.map Part.frame ++ (contributions code z cs).flatMap fun c => frames c.1.1 c.1.2 := by
  intro cs
  induction cs with
  | nil => exact fun _ => (List.append_nil _).symm
  | cons c cs ih =>
    intro z
    rw [after, contributions, List.flatMap_cons, ih, (hcode z c).frames_contribution, List.append_assoc]

/-- The messages on the stream are those of the contributions. -/
theorem messagesOf_after (cs : List SendCall) (outcomes : List Bool) :
    messagesOf (after code ⟨[], outcomes⟩ cs).sent =
      messages ((contributions code ⟨[], outcomes⟩ cs).map Prod.fst) := by
  have hframes := frames_after hcode cs ⟨[], outcomes⟩
  rw [List.map_nil, List.nil_append] at hframes
  have hcut := messages_frames_of ((contributions code ⟨[], outcomes⟩ cs).map Prod.fst) (by
    intro d hd hnil
    obtain ⟨e, he, rfl⟩ := List.mem_map.mp hd
    by_cases hgood : e.2 = true
    · exact absurd hnil (nonempty_of_meant cs _ e he hgood)
    · exact open_contributions cs _ e he (by simpa using hgood))
  rw [← hcut, List.flatMap_map, ← hframes, messagesOf, List.map_map]
  rfl

/-- **Messages under failure**, for any code that sends. -/
theorem messages_iff (cs : List SendCall) (outcomes : List Bool) :
    messagesOf (after code ⟨[], outcomes⟩ cs).sent = callMessages (sentCalls code ⟨[], outcomes⟩ cs) ↔
      Intact code ⟨[], outcomes⟩ cs := by
  rw [messagesOf_after hcode, callMessages, ← meant_contributions, messages_meant_iff _ (open_contributions cs _),
    unglued_iff hcode]

end Code

/-! ## The C binding -/

theorem sent_zmqSend_false {z z' : SendSide} {data : List UInt8} {flags : BitVec 32}
    (h : CSocket.zmqSend z data flags = (false, z')) : z'.sent = z.sent := by
  rw [CSocket.zmqSend] at h
  split at h
  next hatt => cases h; exact CSocket.sent_attempt hatt
  · cases h

theorem sent_sendMsg_false {z z' : SendSide} {data : List UInt8} {flags : BitVec 32}
    (h : CSocket.sendMsg z data flags = (false, z')) : z'.sent = z.sent := by
  rw [CSocket.sendMsg] at h
  split at h
  next hatt => cases h; exact CSocket.sent_attempt hatt
  next hatt => rw [sent_zmqSend_false h, CSocket.sent_attempt hatt]

/-- A part that says that more follow. -/
theorem sent_zmqSend_more {z z' : SendSide} {data : List UInt8}
    (h : CSocket.zmqSend z data zmqSndmore = (true, z')) : z'.sent = z.sent ++ [⟨data, true⟩] := by
  rw [CSocket.zmqSend] at h
  split at h
  · cases h
  next hatt =>
    cases h
    rw [CSocket.sent_attempt hatt]
    rfl

theorem sent_sendMsg_more {z z' : SendSide} {data : List UInt8}
    (h : CSocket.sendMsg z data zmqSndmore = (true, z')) : z'.sent = z.sent ++ [⟨data, true⟩] := by
  rw [CSocket.sendMsg] at h
  split at h
  · cases h
  next hatt => rw [sent_zmqSend_more h, CSocket.sent_attempt hatt]

/-- What a call that fails leaves behind. -/
def Breaks (z : SendSide) (res : SendReply × SendSide) : Prop :=
  res.1 ≠ .pass → ∃ ps : List (List UInt8), res.2.sent = z.sent ++ ps.map fun data => ⟨data, true⟩

theorem Breaks.of_same {z : SendSide} {res : SendReply × SendSide} (h : res.2.sent = z.sent) : Breaks z res :=
  fun _ => ⟨[], by rw [h, List.map_nil, List.append_nil]⟩

/-- A part sent before the rest breaks off. -/
theorem Breaks.cons {z z₁ : SendSide} {data : List UInt8} {res : SendReply × SendSide}
    (hz : z₁.sent = z.sent ++ [⟨data, true⟩]) (h : Breaks z₁ res) : Breaks z res := by
  intro hfail
  obtain ⟨ps, hps⟩ := h hfail
  exact ⟨data :: ps, by rw [hps, hz, List.append_assoc]; rfl⟩

theorem breaks_sendxLoop (lastFlag : BitVec 32) (n : Nat) : ∀ (parts : List (List UInt8)) (i : Nat)
    (z : SendSide), i + parts.length = n + 1 → Breaks z (CSocket.sendxLoop lastFlag n i parts z) := by
  intro parts
  induction parts with
  | nil => exact fun _ _ _ h => absurd rfl h
  | cons data parts ih =>
    intro i z hi
    rw [List.length_cons] at hi
    rw [CSocket.sendxLoop]
    split
    next hsend => exact .of_same (sent_sendMsg_false hsend)
    next z₁ hsend =>
      by_cases hlast : i = n
      · -- nothing comes after the last part
        have hnil : parts = [] := List.length_eq_zero_iff.mp (by omega)
        subst hnil
        exact fun h => absurd rfl h
      · rw [if_neg hlast] at hsend
        exact .cons (sent_sendMsg_more hsend) (ih (i + 1) z₁ (by omega))

theorem breaks_sendAllLoop (parts : LuaTable (List UInt8)) (flags : BitVec 32) (n : Int) :
    ∀ (k : Nat) (i : Int) (z : SendSide), i + k = n + 1 → Breaks z (CSocket.sendAllLoop parts flags n k i z) := by
  intro k
  induction k with
  | zero => exact fun _ _ _ h => absurd rfl h
  | succ k ih =>
    intro i z hi
    rw [CSocket.sendAllLoop]
    split
    · exact .of_same rfl
    next data hdata =>
      split
      next hsend => exact .of_same (sent_sendMsg_false hsend)
      next z₁ hsend =>
        by_cases hlast : i = n
        · obtain rfl : k = 0 := by omega
          exact fun h => absurd rfl h
        · rw [if_neg hlast] at hsend
          exact .cons (sent_sendMsg_more hsend) (ih (i + 1) z₁ (by omega))

theorem breaks_luazmqSktSendAll (z : SendSide) (parts : LuaTable (List UInt8)) (flags : BitVec 32)
    (i? n? : Option Int) : Breaks z (CSocket.luazmqSktSendAll z parts flags i? n?) := by
  rw [CSocket.luazmqSktSendAll]
  split
  · exact .of_same rfl
  next n hn =>
    split
    · exact .of_same rfl
    · rcases Int.le_total (i?.getD 1) (n + 1) with hle | hgt
      · exact breaks_sendAllLoop parts flags n _ _ z (by omega)
      · rw [Int.toNat_of_nonpos (by omega)]
        exact fun h => absurd rfl h

theorem breaks_luazmqSktSend (z : SendSide) (data : List UInt8) (flags : BitVec 32) :
    Breaks z (CSocket.luazmqSktSend z data flags) := by
  rw [CSocket.luazmqSktSend]
  split
  next hsend => exact .of_same (sent_zmqSend_false hsend)
  next => exact fun h => absurd rfl h

theorem breaks_luazmqSktSendvImpl (z : SendSide) (parts : List (List UInt8)) (flags : BitVec 32) :
    Breaks z (CSocket.luazmqSktSendvImpl z parts flags) := by
  rw [CSocket.luazmqSktSendvImpl]
  split
  next hsend => exact .of_same (sent_sendMsg_false hsend)
  next => exact fun h => absurd rfl h

/-- **The C binding** sends the chunk of a call, or breaks off. -/
theorem c_sending (z : SendSide) (c : SendCall) : Sending z c (c.run z) where
  passes hpass := by
    refine CSocket.sendStep_spec ?_
    rw [CSocket.sendStep]
    generalize c.run z = res at hpass ⊢
    obtain ⟨reply, z'⟩ := res
    subst hpass
    rfl
  breaks := by
    cases c with
    | send data flags => exact breaks_luazmqSktSend z data flags
    | sendMore data flags => exact breaks_luazmqSktSend z data _
    | sendAll parts flags i? n? => exact breaks_luazmqSktSendAll z parts flags i? n?
    | sendx parts => exact breaks_sendxLoop 0 _ parts 2 z (by omega)
    | sendxMore parts => exact breaks_sendxLoop zmqSndmore _ parts 2 z (by omega)
    | sendv parts => exact breaks_luazmqSktSendvImpl z parts 0
    | sendvMore parts => exact breaks_luazmqSktSendvImpl z parts zmqSndmore

/-- **What a peer of the C binding receives.**  After any sequence of calls, with any of libzmq's calls failing, the
    complete messages on the stream are those of the calls that succeeded iff no call failed behind some of its parts
    and was followed by a call that ended a message. -/
theorem c_messages_iff (outcomes : List Bool) (calls : List SendCall) :
    messagesOf (after (fun z c => c.run z) ⟨[], outcomes⟩ calls).sent =
        callMessages (sentCalls (fun z c => c.run z) ⟨[], outcomes⟩ calls) ↔
      Intact (fun z c => c.run z) ⟨[], outcomes⟩ calls :=
  messages_iff c_sending calls outcomes

/-! ## The FFI binding -/

theorem sending_ffiSend (z : SendSide) (data : List UInt8) (flags : BitVec 32) :
    ((FfiSocket.Frames.send z data flags).1 = .pass →
      (FfiSocket.Frames.send z data flags).2.sent.map Part.frame =
        z.sent.map Part.frame ++ frames [data] (hasMore flags)) ∧
    Breaks z (FfiSocket.Frames.send z data flags) := by
  rw [FfiSocket.Frames.send]
  split
  next hsend => exact ⟨fun h => (by cases h), .of_same (sent_zmqSend_false hsend)⟩
  next hsend => exact ⟨fun _ => CSocket.sent_zmqSend hsend, fun h => absurd rfl h⟩

/-- **The loop** and the last send: the elements from `i` to `n`, of which `k + 1` are left. -/
theorem sending_ffiSendAllLoop (msg : LuaTable (List UInt8)) (flags : BitVec 32) (n : Int) :
    ∀ (k : Nat) (i : Int) (z : SendSide), i + k = n →
    ((FfiSocket.Frames.sendAllLoop msg flags n k i z).1 = .pass → (slice msg (k + 1) i).length = k + 1 ∧
      (FfiSocket.Frames.sendAllLoop msg flags n k i z).2.sent.map Part.frame =
        z.sent.map Part.frame ++ frames (slice msg (k + 1) i) (hasMore flags)) ∧
    Breaks z (FfiSocket.Frames.sendAllLoop msg flags n k i z) := by
  intro k
  induction k with
  | zero =>
    intro i z hi
    obtain rfl : i = n := by omega
    rw [FfiSocket.Frames.sendAllLoop, slice, slice]
    split
    · exact ⟨fun h => (by cases h), .of_same rfl⟩
    next data hdata =>
      rw [hdata]
      split
      next hsend => exact ⟨fun h => (by cases h), .of_same (sent_zmqSend_false hsend)⟩
      next hsend => exact ⟨fun _ => ⟨rfl, CSocket.sent_zmqSend hsend⟩, fun h => absurd rfl h⟩
  | succ k ih =>
    intro i z hi
    rw [FfiSocket.Frames.sendAllLoop, slice]
    split
    · exact ⟨fun h => (by cases h), .of_same rfl⟩
    next data hdata =>
      rw [hdata]
      split
      next hsend => exact ⟨fun h => (by cases h), .of_same (sent_zmqSend_false hsend)⟩
      next z₁ hsend =>
        obtain ⟨hpass, hbreaks⟩ := ih (i + 1) z₁ (by omega)
        have hmore := sent_zmqSend_more hsend
        refine ⟨fun h => ?_, .cons hmore hbreaks⟩
        obtain ⟨hlen, hframes⟩ := hpass h
        have hne : slice msg (k + 1) (i + 1) ≠ [] := List.ne_nil_of_length_eq_add_one hlen
        refine ⟨congrArg (· + 1) hlen, ?_⟩
        rw [hframes, hmore, List.map_append, List.append_assoc, Option.toList_some, List.singleton_append,
          frames_cons data hne]
        rfl

theorem sending_ffiSendAll (z : SendSide) (msg : LuaTable (List UInt8)) (flags : BitVec 32) (i? n? : Option Int) :
    Sending z (.sendAll msg flags i? n?) (FfiSocket.Frames.sendAll z msg flags i? n?) := by
  rw [FfiSocket.Frames.sendAll]
  by_cases hrange : n?.getD msg.border < i?.getD 1
  · rw [if_pos hrange]
    exact ⟨fun h => (by cases h), Breaks.of_same rfl⟩
  · rw [if_neg hrange]
    split
    · exact ⟨fun h => (by cases h), Breaks.of_same rfl⟩
    · obtain ⟨hpass, hbreaks⟩ := sending_ffiSendAllLoop msg flags (n?.getD msg.border)
        (n?.getD msg.border - i?.getD 1).toNat (i?.getD 1) z (by omega)
      refine ⟨fun h => ?_, hbreaks⟩
      have hlen : (n?.getD msg.border + 1 - i?.getD 1).toNat = (n?.getD msg.border - i?.getD 1).toNat + 1 := by
        omega
      rw [(hpass h).2, SendCall.parts, hlen]
      rfl

/-- The arguments of `sendx` are the slice of their table. -/
theorem sending_ffiSendx {z : SendSide} {parts : List (List UInt8)} {c : SendCall} (flags : BitVec 32)
    (hparts : c.parts = parts) (hmore : c.more = hasMore flags) :
    Sending z c (FfiSocket.Frames.sendAll z (FfiSocket.Frames.packed parts) flags (some 1) (some parts.length)) := by
  have h := sending_ffiSendAll z (FfiSocket.Frames.packed parts) flags (some 1) (some parts.length)
  refine ⟨fun hpass => ?_, h.breaks⟩
  have hframes := h.passes hpass
  have hslice : (SendCall.sendAll (FfiSocket.Frames.packed parts) flags (some 1) (some parts.length)).parts =
      parts :=
    FfiSocket.Frames.slice_packed_all parts
  rw [hslice] at hframes
  rw [hframes, hparts, hmore]
  rfl

/-- **The FFI binding** sends the chunk of a call, or breaks off. -/
theorem ffi_sending (z : SendSide) (c : SendCall) : Sending z c (FfiSocket.Frames.run z c) := by
  cases c with
  | send data flags =>
    obtain ⟨hpass, hbreaks⟩ := sending_ffiSend z data flags
    exact ⟨hpass, hbreaks⟩
  | sendMore data flags =>
    obtain ⟨hpass, hbreaks⟩ := sending_ffiSend z data (flags ||| zmqSndmore)
    rw [CSocket.hasMore_or] at hpass
    exact ⟨hpass, hbreaks⟩
  | sendAll parts flags i? n? => exact sending_ffiSendAll z parts flags i? n?
  | sendx parts => exact sending_ffiSendx 0 rfl rfl
  | sendxMore parts => exact sending_ffiSendx zmqSndmore rfl rfl
  | sendv parts =>
    obtain ⟨hpass, hbreaks⟩ := sending_ffiSend z parts.flatten 0
    exact ⟨hpass, hbreaks⟩
  | sendvMore parts =>
    obtain ⟨hpass, hbreaks⟩ := sending_ffiSend z parts.flatten zmqSndmore
    exact ⟨hpass, hbreaks⟩

/-- **What a peer of the FFI binding receives**, likewise. -/
theorem ffi_messages_iff (outcomes : List Bool) (calls : List SendCall) :
    messagesOf (after FfiSocket.Frames.run ⟨[], outcomes⟩ calls).sent =
        callMessages (sentCalls FfiSocket.Frames.run ⟨[], outcomes⟩ calls) ↔
      Intact FfiSocket.Frames.run ⟨[], outcomes⟩ calls :=
  messages_iff ffi_sending calls outcomes

/-- The second part of `sendx` fails and a message is sent after it: the peer gets the first part in front of it. -/
example : messagesOf (after FfiSocket.Frames.run ⟨[], [true, false]⟩ [.sendx [[1], [2]], .send [3] 0]).sent =
    [[[1], [3]]] := by decide

end Lzmq.Sends
