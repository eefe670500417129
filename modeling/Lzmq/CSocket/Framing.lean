/-
  The send methods of the C binding (`zsocket.c`) and how the receive methods split what they sent.

  `send`, `send_more`, `sendv` and `sendv_more` send one part; `send_all`, `sendx` and `sendx_more` send
  several, each with ZMQ_SNDMORE but the last one, for which each method has its own rule.  A call makes
  a CHUNK: its parts, and whether the message goes on after them.

  `sendStep_spec` says that a successful call appends the frames of its chunk to what was sent, and
  `recvParts_message` that a multipart receive takes the first message off the stream.  Cutting chunks
  into frames keeps the messages (`Framing.messages_flatMap_frames`), so the two meet in `round_trip`.

  The Lua stack is not in this model.  `CApi.Send` runs the same functions on it, and `Sends.Layers` ties the two
  where the parts fit.
-/
import Lzmq.CSocket.Partial
import Lzmq.Lib.Framing
import Lzmq.Lib.Table

namespace Lzmq.CSocket

open Lzmq.Steps Lzmq.Framing

/-! ## libzmq -/

/-- `ZMQ_SNDMORE` -/
def zmqSndmore : BitVec 32 := 2

/-- libzmq's side of a socket that sends: the frames it has accepted, and an oracle saying which of the
    calls to come fail. -/
structure SendSide where
  sent : List Part
  outcomes : List Bool
deriving DecidableEq, Repr

def SendSide.attempt (z : SendSide) : Bool × SendSide :=
  match z.outcomes with
  | [] => (true, z)
  | ok :: outcomes => (ok, { z with outcomes := outcomes })

/-- `flags & ZMQ_SNDMORE` -/
def hasMore (flags : BitVec 32) : Bool := flags &&& zmqSndmore != 0

/-- `zmq_send` and `zmq_msg_send` -/
def zmqSend (z : SendSide) (data : List UInt8) (flags : BitVec 32) : Bool × SendSide :=
  match z.attempt with
  | (false, z) => (false, z)
  | (true, z) => (true, { z with sent := z.sent ++ [⟨data, hasMore flags⟩] })

/-- `zmq_msg_init_size`, `memcpy`, `zmq_msg_send`, `zmq_msg_close` -/
def sendMsg (z : SendSide) (data : List UInt8) (flags : BitVec 32) : Bool × SendSide :=
  match z.attempt with
  | (false, z) => (false, z)
  | (true, z) => zmqSend z data flags

/-! ## The send methods -/

/-- `luazmq_pass`, `luazmq_fail` with the position of the part that was not sent, the error ENOTSUP, or a
    Lua error. -/
inductive SendReply
  | pass
  | fail (pos : Option Int)
  | enotsup
  | raise
deriving DecidableEq, Repr

/-- `luazmq_skt_send`, as built with `LUAZMQ_USE_SEND_AS_BUF` -/
def luazmqSktSend (z : SendSide) (data : List UInt8) (flags : BitVec 32) : SendReply × SendSide :=
  match zmqSend z data flags with
  | (false, z) => (.fail none, z)
  | (true, z) => (.pass, z)

/-- `luazmq_skt_send_more` -/
def luazmqSktSendMore (z : SendSide) (data : List UInt8) (flags : BitVec 32) : SendReply × SendSide :=
  luazmqSktSend z data (flags ||| zmqSndmore)

/-- `for(;i <= n; ++i)` of `luazmq_skt_send_all`, with the number of rounds left. -/
def sendAllLoop (parts : LuaTable (List UInt8)) (flags : BitVec 32) (n : Int) :
    Nat → Int → SendSide → SendReply × SendSide
  | 0, _, z => (.pass, z)
  | k + 1, i, z =>
    match parts.get i with
    | none => (.raise, z) -- luaL_checklstring
    | some data =>
      match sendMsg z data (if i = n then flags else zmqSndmore) with
      | (false, z) => (.fail (some i), z)
      | (true, z) => sendAllLoop parts flags n k (i + 1) z

/-- The last position that `luazmq_skt_send_all` sends; a given one must not be below `i`. -/
def sendAllEnd (parts : LuaTable (List UInt8)) (i : Int) : Option Int → Option Int
  | none => some parts.border
  | some n => if i ≤ n then some n else none

/-- `luazmq_skt_send_all`, but for the Lua stack that it fills. -/
def luazmqSktSendAll (z : SendSide) (parts : LuaTable (List UInt8)) (flags : BitVec 32) (i? n? : Option Int) :
    SendReply × SendSide :=
  let i := i?.getD 1
  match sendAllEnd parts i n? with
  | none => (.raise, z) -- invalid range
  | some n =>
    if flags &&& ~~~zmqSndmore ≠ 0 then (.enotsup, z)
    else sendAllLoop parts flags n (n + 1 - i).toNat i z

/-- `for(i = 2; i<=n; ++i)` of `luazmq_skt_sendx_impl`; the parts are the stack slots from `i` on. -/
def sendxLoop (lastFlag : BitVec 32) (n : Nat) : Nat → List (List UInt8) → SendSide → SendReply × SendSide
  | _, [], z => (.pass, z)
  | i, data :: parts, z =>
    match sendMsg z data (if i = n then lastFlag else zmqSndmore) with
    | (false, z) => (.fail (some (i : Int)), z)
    | (true, z) => sendxLoop lastFlag n (i + 1) parts z

/-- `luazmq_skt_sendx_impl`: slot 1 is the socket, `lua_gettop` counts it. -/
def luazmqSktSendxImpl (z : SendSide) (parts : List (List UInt8)) (lastFlag : BitVec 32) :
    SendReply × SendSide :=
  sendxLoop lastFlag (parts.length + 1) 2 parts z

def luazmqSktSendx (z : SendSide) (parts : List (List UInt8)) : SendReply × SendSide :=
  luazmqSktSendxImpl z parts 0

def luazmqSktSendxMore (z : SendSide) (parts : List (List UInt8)) : SendReply × SendSide :=
  luazmqSktSendxImpl z parts zmqSndmore

/-- `luazmq_skt_sendv_impl` -/
def luazmqSktSendvImpl (z : SendSide) (parts : List (List UInt8)) (flags : BitVec 32) :
    SendReply × SendSide :=
  match sendMsg z parts.flatten flags with
  | (false, z) => (.fail none, z)
  | (true, z) => (.pass, z)

def luazmqSktSendv (z : SendSide) (parts : List (List UInt8)) : SendReply × SendSide :=
  luazmqSktSendvImpl z parts 0

def luazmqSktSendvMore (z : SendSide) (parts : List (List UInt8)) : SendReply × SendSide :=
  luazmqSktSendvImpl z parts zmqSndmore

/-! ## Calls and their chunks -/

inductive SendCall
  | send (data : List UInt8) (flags : BitVec 32)
  | sendMore (data : List UInt8) (flags : BitVec 32)
  | sendAll (parts : LuaTable (List UInt8)) (flags : BitVec 32) (i? n? : Option Int)
  | sendx (parts : List (List UInt8))
  | sendxMore (parts : List (List UInt8))
  | sendv (parts : List (List UInt8))
  | sendvMore (parts : List (List UInt8))

def SendCall.run (z : SendSide) : SendCall → SendReply × SendSide
  | .send data flags => luazmqSktSend z data flags
  | .sendMore data flags => luazmqSktSendMore z data flags
  | .sendAll parts flags i? n? => luazmqSktSendAll z parts flags i? n?
  | .sendx parts => luazmqSktSendx z parts
  | .sendxMore parts => luazmqSktSendxMore z parts
  | .sendv parts => luazmqSktSendv z parts
  | .sendvMore parts => luazmqSktSendvMore z parts

/-- A successful call. -/
def sendStep (z : SendSide) (c : SendCall) : Option SendSide :=
  match c.run z with
  | (.pass, z) => some z
  | _ => none

/-- `k` elements of a table of parts, from `i` on. -/
def slice (parts : LuaTable (List UInt8)) : Nat → Int → List (List UInt8)
  | 0, _ => []
  | k + 1, i => (parts.get i).toList ++ slice parts k (i + 1)

/-- The parts a call is made with; `sendv` makes one of them. -/
def SendCall.parts : SendCall → List (List UInt8)
  | .send data _ => [data]
  | .sendMore data _ => [data]
  | .sendAll parts _ i? n? => slice parts ((n?.getD parts.border) + 1 - i?.getD 1).toNat (i?.getD 1)
  | .sendx parts => parts
  | .sendxMore parts => parts
  | .sendv parts => [parts.flatten]
  | .sendvMore parts => [parts.flatten]

/-- Whether the call is made with ZMQ_SNDMORE. -/
def SendCall.more : SendCall → Bool
  | .send _ flags => hasMore flags
  | .sendMore _ _ => true
  | .sendAll _ flags _ _ => hasMore flags
  | .sendx _ => false
  | .sendxMore _ => true
  | .sendv _ => false
  | .sendvMore _ => true

def SendCall.chunk (c : SendCall) : Chunk (List UInt8) := (c.parts, c.more)

/-- A part as a frame. -/
def Part.frame (p : Part) : List UInt8 × Bool := (p.data, p.more)

/-! ## What a successful call sends -/

theorem hasMore_or (flags : BitVec 32) : hasMore (flags ||| zmqSndmore) = true := by
  rw [hasMore, bne_iff_ne, ne_eq]
  intro h
  have hbit := congrArg (fun f : BitVec 32 => f[1]) h
  simp [zmqSndmore] at hbit

theorem sent_attempt {z z' : SendSide} {ok : Bool} (h : z.attempt = (ok, z')) : z'.sent = z.sent := by
  rw [SendSide.attempt] at h
  split at h
  · cases h; rfl
  · cases h; rfl

theorem sent_zmqSend {z z' : SendSide} {data : List UInt8} {flags : BitVec 32}
    (h : zmqSend z data flags = (true, z')) :
    z'.sent.map Part.frame = z.sent.map Part.frame ++ [(data, hasMore flags)] := by
  rw [zmqSend] at h
  split at h
  · cases h
  next z₁ hatt =>
    cases h
    rw [List.map_append, sent_attempt hatt]
    rfl

theorem sent_sendMsg {z z' : SendSide} {data : List UInt8} {flags : BitVec 32}
    (h : sendMsg z data flags = (true, z')) :
    z'.sent.map Part.frame = z.sent.map Part.frame ++ [(data, hasMore flags)] := by
  rw [sendMsg] at h
  split at h
  · cases h
  next z₁ hatt => rw [sent_zmqSend h, sent_attempt hatt]

theorem sent_luazmqSktSend {z z' : SendSide} {data : List UInt8} {flags : BitVec 32}
    (h : luazmqSktSend z data flags = (.pass, z')) :
    z'.sent.map Part.frame = z.sent.map Part.frame ++ frames [data] (hasMore flags) := by
  rw [luazmqSktSend] at h
  split at h
  · cases h
  next hsend => cases h; exact sent_zmqSend hsend

theorem sent_luazmqSktSendvImpl {z z' : SendSide} {parts : List (List UInt8)} {flags : BitVec 32}
    (h : luazmqSktSendvImpl z parts flags = (.pass, z')) :
    z'.sent.map Part.frame = z.sent.map Part.frame ++ frames [parts.flatten] (hasMore flags) := by
  rw [luazmqSktSendvImpl] at h
  split at h
  · cases h
  next hsend => cases h; exact sent_sendMsg hsend

/-- The loop of `sendx`: the last slot is the one with number `n`. -/
theorem sent_sendxLoop (lastFlag : BitVec 32) (n : Nat) : ∀ (parts : List (List UInt8)) (i : Nat)
    (z z' : SendSide), i + parts.length = n + 1 → sendxLoop lastFlag n i parts z = (.pass, z') →
    z'.sent.map Part.frame = z.sent.map Part.frame ++ frames parts (hasMore lastFlag) := by
  intro parts
  induction parts with
  | nil =>
    intro i z z' _ h
    cases h
    rw [frames, List.append_nil]
  | cons data parts ih =>
    intro i z z' hi h
    rw [List.length_cons] at hi
    rw [sendxLoop] at h
    split at h
    · cases h
    next z₁ hsend =>
      have hrest := ih (i + 1) z₁ z' (by omega) h
      rw [hrest, sent_sendMsg hsend, List.append_assoc, List.singleton_append]
      cases parts with
      | nil =>
        rw [List.length_nil] at hi
        rw [if_pos (by omega)]
        rfl
      | cons b parts =>
        rw [List.length_cons] at hi
        rw [if_neg (by omega)]
        rfl

/-- The loop of `send_all`, with `k` rounds left before position `n` is behind it. -/
theorem sent_sendAllLoop (parts : LuaTable (List UInt8)) (flags : BitVec 32) (n : Int) :
    ∀ (k : Nat) (i : Int) (z z' : SendSide), i + k = n + 1 → sendAllLoop parts flags n k i z = (.pass, z') →
    (slice parts k i).length = k ∧
      z'.sent.map Part.frame = z.sent.map Part.frame ++ frames (slice parts k i) (hasMore flags) := by
  intro k
  induction k with
  | zero =>
    intro i z z' _ h
    cases h
    exact ⟨rfl, by rw [slice, frames, List.append_nil]⟩
  | succ k ih =>
    intro i z z' hi h
    rw [sendAllLoop] at h
    split at h
    · cases h
    next data hdata =>
      split at h
      · cases h
      next z₁ hsend =>
        obtain ⟨hlen, hrest⟩ := ih (i + 1) z₁ z' (by omega) h
        have hslice : slice parts (k + 1) i = data :: slice parts k (i + 1) := by rw [slice, hdata]; rfl
        rw [hslice, List.length_cons, hlen]
        refine ⟨rfl, ?_⟩
        rw [hrest, sent_sendMsg hsend, List.append_assoc, List.singleton_append]
        cases k with
        | zero => rw [if_pos (by omega)]; rfl
        | succ k =>
          have hne : slice parts (k + 1) (i + 1) ≠ [] := List.ne_nil_of_length_eq_add_one hlen
          rw [if_neg (by omega), frames_cons data hne]
          rfl

theorem sent_luazmqSktSendAll {z z' : SendSide} {parts : LuaTable (List UInt8)} {flags : BitVec 32}
    {i? n? : Option Int} (h : luazmqSktSendAll z parts flags i? n? = (.pass, z')) :
    z'.sent.map Part.frame = z.sent.map Part.frame ++
      frames (SendCall.sendAll parts flags i? n?).parts (hasMore flags) := by
  rw [luazmqSktSendAll] at h
  split at h
  · cases h
  next n hn =>
    have hend : n = n?.getD parts.border := by
      cases n? with
      | none => exact (Option.some.inj hn).symm
      | some m =>
        rw [sendAllEnd] at hn
        split at hn
        · exact (Option.some.inj hn).symm
        · cases hn
    split at h
    · cases h
    · rw [SendCall.parts, ← hend]
      -- with `n` below `i` there is no round, and no part
      rcases Int.le_total (i?.getD 1) (n + 1) with hle | hgt
      · exact (sent_sendAllLoop parts flags n _ _ z z' (by omega) h).2
      · rw [Int.toNat_of_nonpos (by omega)] at h ⊢
        cases h
        rw [slice, frames, List.append_nil]

/-- **A successful call** appends the frames of its chunk. -/
theorem sendStep_spec {z z' : SendSide} {c : SendCall} (h : sendStep z c = some z') :
    z'.sent.map Part.frame = z.sent.map Part.frame ++ frames c.parts c.more := by
  rw [sendStep] at h
  split at h
  next z₁ hrun =>
    cases h
    cases c with
    | send data flags => exact sent_luazmqSktSend hrun
    | sendMore data flags =>
      have hsent := sent_luazmqSktSend hrun
      rwa [hasMore_or] at hsent
    | sendAll parts flags i? n? => exact sent_luazmqSktSendAll hrun
    | sendx parts => exact sent_sendxLoop 0 _ parts 2 z _ (by omega) hrun
    | sendxMore parts => exact sent_sendxLoop zmqSndmore _ parts 2 z _ (by omega) hrun
    | sendv parts => exact sent_luazmqSktSendvImpl hrun
    | sendvMore parts => exact sent_luazmqSktSendvImpl hrun
  · cases h

/-- **A sequence of successful calls.** -/
theorem run_sendStep : ∀ (calls : List SendCall) (z z' : SendSide), run sendStep z calls = some z' →
    z'.sent.map Part.frame = z.sent.map Part.frame ++ calls.flatMap fun c => frames c.parts c.more := by
  intro calls
  induction calls with
  | nil =>
    intro z z' h
    rw [run_nil, Option.some.injEq] at h
    rw [h, List.flatMap_nil, List.append_nil]
  | cons c calls ih =>
    intro z z' h
    obtain ⟨z₁, hstep, hrest⟩ := run_cons_inv sendStep h
    rw [ih z₁ z' hrest, sendStep_spec hstep, List.append_assoc, List.flatMap_cons]

/-! ## What the peer receives -/

/-- The complete messages in a stream of parts. -/
def messagesOf (ps : List Part) : List (List (List UInt8)) := messages (ps.map fun p => single p.frame)

/-- **The receive loop** takes the first message off the stream. -/
theorem recvParts_message : ∀ (ps : List Part) (got : List (List UInt8)) (rcvmore : Bool)
    {m : List (List UInt8)} {ms : List (List (List UInt8))}, messagesOf ps = m :: ms →
    ∃ z', recvParts ⟨ps, rcvmore, []⟩ got = (true, got ++ m, z') ∧ z'.outcomes = [] ∧
      messagesOf z'.incoming = ms := by
  intro ps
  induction ps with
  | nil => intro got rcvmore m ms h; cases h
  | cons p ps ih =>
    intro got rcvmore m ms h
    rw [recvParts_part got rfl rfl]
    have hsplit : messagesOf (p :: ps) =
        messages (([p.data], p.more) :: ps.map fun p => single p.frame) := rfl
    rw [hsplit] at h
    cases hmore : p.more with
    | false =>
      rw [hmore, messages_last, List.cons.injEq] at h
      obtain ⟨rfl, hms⟩ := h
      refine ⟨_, if_neg (by decide), rfl, hms⟩
    | true =>
      rw [hmore, messages] at h
      split at h
      · cases h
      next m' ms' hrest =>
        rw [List.cons.injEq] at h
        obtain ⟨rfl, rfl⟩ := h
        obtain ⟨z', hz', hout, hms⟩ := ih (got ++ [p.data]) true hrest
        refine ⟨z', ?_, hout, hms⟩
        rw [if_pos rfl, ← List.append_assoc]
        exact hz'

/-- The two multipart receives. -/
inductive MultiRecv
  | recvAll
  | recvx
deriving DecidableEq, Repr

def MultiRecv.run (skt : ZSocket) : MultiRecv → Reply × ZSocket
  | .recvAll => luazmqSktRecvAll skt
  | .recvx => luazmqSktRecvx skt

/-- The reply that hands over a message. -/
def MultiRecv.reply : MultiRecv → List (List UInt8) → Reply
  | .recvAll, m => .ret [.table m]
  | .recvx, m => .ret (m.map .str)

/-- The replies of successive receives. -/
def replies : ZSocket → List MultiRecv → List Reply
  | _, [] => []
  | skt, r :: rs => (r.run skt).1 :: replies (r.run skt).2 rs

theorem MultiRecv.run_message (r : MultiRecv) {skt : ZSocket} {m : List (List UInt8)}
    {ms : List (List (List UInt8))} (hout : skt.zmq.outcomes = [])
    (h : messagesOf skt.zmq.incoming = m :: ms) :
    (r.run skt).1 = r.reply m ∧ (r.run skt).2.zmq.outcomes = [] ∧
      messagesOf (r.run skt).2.zmq.incoming = ms := by
  obtain ⟨z', hz', hout', hms⟩ := recvParts_message _ [] skt.zmq.rcvmore h
  have hzmq : (⟨skt.zmq.incoming, skt.zmq.rcvmore, []⟩ : Zmq) = skt.zmq := by rw [← hout]
  rw [hzmq, List.nil_append] at hz'
  cases r with
  | recvAll =>
    rw [MultiRecv.run, luazmqSktRecvAll, hz']
    exact ⟨rfl, hout', hms⟩
  | recvx =>
    rw [MultiRecv.run, luazmqSktRecvx, hz']
    exact ⟨rfl, hout', hms⟩

/-- **Successive receives** return the messages of the stream one by one. -/
theorem replies_messages : ∀ (rs : List MultiRecv) (skt : ZSocket), skt.zmq.outcomes = [] →
    rs.length ≤ (messagesOf skt.zmq.incoming).length →
    replies skt rs = List.zipWith MultiRecv.reply rs (messagesOf skt.zmq.incoming) := by
  intro rs
  induction rs with
  | nil => intro skt _ _; rw [replies, List.zipWith_nil_left]
  | cons r rs ih =>
    intro skt hout hlen
    cases hms : messagesOf skt.zmq.incoming with
    | nil => rw [hms] at hlen; exact absurd hlen (by simp)
    | cons m ms =>
      obtain ⟨hreply, hout', hms'⟩ := r.run_message hout hms
      rw [hms, List.length_cons, List.length_cons] at hlen
      rw [replies, hreply, List.zipWith_cons_cons, ih _ hout' (by rw [hms']; omega), hms']

/-! ## The round trip -/

/-- The messages that calls make: a message ends with the last part of a call without ZMQ_SNDMORE. -/
def callMessages (calls : List SendCall) : List (List (List UInt8)) := messages (calls.map SendCall.chunk)

theorem messagesOf_sent {calls : List SendCall} {sent : List Part} (hne : ∀ c ∈ calls, c.parts ≠ [])
    (h : sent.map Part.frame = calls.flatMap fun c => frames c.parts c.more) :
    messagesOf sent = callMessages calls := by
  have hcut := messages_flatMap_frames (calls.map SendCall.chunk) fun c hc => by
    obtain ⟨call, hcall, rfl⟩ := List.mem_map.mp hc
    exact hne call hcall
  rw [messagesOf, callMessages, ← hcut, List.flatMap_map]
  have hmap : sent.map (fun p => single p.frame) =
      (sent.map Part.frame).map single := by rw [List.map_map]; rfl
  rw [hmap, h]
  rfl

/-- **Round trip.**  Successful calls with non-empty part lists enqueue their parts in order, each with
    the more flag but for the last part of a call without ZMQ_SNDMORE; and successive receives on the
    peer return the messages so made, part by part and in order. -/
theorem round_trip (outcomes : List Bool) (calls : List SendCall) (t : SendSide) (own : Bool)
    (rs : List MultiRecv) (hrun : run sendStep ⟨[], outcomes⟩ calls = some t)
    (hne : ∀ c ∈ calls, c.parts ≠ []) (hrs : rs.length ≤ (callMessages calls).length) :
    (t.sent.map Part.frame = calls.flatMap fun c => frames c.parts c.more) ∧
      replies (newSocket own t.sent []) rs = List.zipWith MultiRecv.reply rs (callMessages calls) := by
  have hsent := run_sendStep calls _ t hrun
  rw [List.map_nil, List.nil_append] at hsent
  have hmessages := messagesOf_sent hne hsent
  refine ⟨hsent, ?_⟩
  rw [replies_messages rs _ rfl (by rw [← hmessages] at hrs; exact hrs), ← hmessages]
  rfl

/-- Two messages from four calls. -/
theorem round_trip_four : replies
    (newSocket true [⟨[1], true⟩, ⟨[2], true⟩, ⟨[3], false⟩, ⟨[4, 5], false⟩] [])
    [.recvx, .recvAll] = [.ret [.str [1], .str [2], .str [3]], .ret [.table [[4, 5]]]] :=
  (round_trip [] [.sendxMore [[1]], .sendMore [2] 0, .send [3] 0, .sendv [[4], [5]]]
    ⟨[⟨[1], true⟩, ⟨[2], true⟩, ⟨[3], false⟩, ⟨[4, 5], false⟩], []⟩ true [.recvx, .recvAll] rfl
    (by simp [SendCall.parts]) (by decide)).2

end Lzmq.CSocket
