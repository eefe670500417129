/-
  Two sockets of one connection: what one program sends and the other receives.

  Each side uses one of the bindings.  The sender makes calls of the send family, of which any may fail part-way;
  libzmq carries whole messages, in their order, at any time (`arrive`); and the receiver calls `recv_all` and
  `recvx`, of which any may fail part-way as well.  The steps come in any order (`Event`).

  `link_iff` is about every run.  What the receiver was given, what waits at its socket and what is on the way are
  together the messages of the stream, in their order, of which some have lost parts in front; and none has iff no
  receive failed in the middle of a message.  With `Sends.messages_iff` the messages are those of the calls that
  succeeded iff no send failed in the middle of a message that was then ended.
-/
import Lzmq.Lib.Queue
import Lzmq.Receives.Lossless
import Lzmq.Sends.Broken

namespace Lzmq.Peers

open Lzmq.Steps Lzmq.Framing Lzmq.Delivery
open Lzmq.CSocket
open Lzmq.Receives (loopParts recvParts_rest)
open Lzmq.Sends (Sending)

/-! ## The bindings -/

inductive Binding
  | c
  | ffi
deriving DecidableEq, Repr

def Binding.send : Binding → SendSide → SendCall → SendReply × SendSide
  | .c => fun z c => c.run z
  | .ffi => FfiSocket.Frames.run

/-- `recv_all` and `recvx` -/
def Binding.receive : Binding → ZSocket → MultiRecv → Reply × ZSocket
  | .c, skt, r => r.run skt
  | .ffi, skt, .recvAll => ((FfiSocket.recvAll skt.zmq).1, { skt with zmq := (FfiSocket.recvAll skt.zmq).2 })
  | .ffi, skt, .recvx => ((FfiSocket.recvx skt.zmq).1, { skt with zmq := (FfiSocket.recvx skt.zmq).2 })

def stringOf : LuaVal → Option (List UInt8)
  | .str data => some data
  | _ => none

/-- The message that a call returns when it succeeds: a table, or all of its values. -/
def messageIn : MultiRecv → Reply → Option (List (List UInt8))
  | .recvAll, .ret [.table m] => some m
  | .recvx, .ret vals => vals.mapM stringOf
  | _, _ => none

/-! ## The link -/

/-- A socket that sends, how many of its messages have arrived, and the socket that receives them. -/
structure Link where
  sender : SendSide
  arrived : Nat
  receiver : ZSocket
deriving DecidableEq, Repr

/-- New sockets; `outcomes` are those of the sender's calls of libzmq. -/
def Link.start (own : Bool) (outcomes : List Bool) : Link := ⟨⟨[], outcomes⟩, 0, newSocket own [] []⟩

/-- A call of the sender, the next message arriving, or a call of the receiver with the outcomes of its own calls. -/
inductive Event
  | send (c : SendCall)
  | arrive
  | receive (r : MultiRecv) (outcomes : List Bool)

def partOf (f : List UInt8 × Bool) : Part := ⟨f.1, f.2⟩

/-- The messages that the sender has ended. -/
def Link.messages (s : Link) : List (List (List UInt8)) := messagesOf s.sender.sent

def Link.arrive (s : Link) : Link :=
  match s.messages[s.arrived]? with
  | none => s
  | some m =>
    { s with
      arrived := s.arrived + 1
      receiver := { s.receiver with zmq := { s.receiver.zmq with
        incoming := s.receiver.zmq.incoming ++ (frames m false).map partOf } } }

/-- The receiver at the start of a call. -/
def Link.ready (s : Link) (outcomes : List Bool) : ZSocket :=
  { s.receiver with zmq := { s.receiver.zmq with outcomes := outcomes } }

variable (b b' : Binding)

def step (s : Link) : Event → Option Link
  | .send c => some { s with sender := (b.send s.sender c).2 }
  | .arrive => some s.arrive
  | .receive r outcomes => some { s with receiver := (b'.receive (s.ready outcomes) r).2 }

/-- The message that the receiver is given in a step. -/
def given (s : Link) : Event → List (List (List UInt8))
  | .receive r outcomes => (messageIn r (b'.receive (s.ready outcomes) r).1).toList
  | _ => []

/-- The messages that wait at the receiver's socket, and those on the way. -/
def Link.rest (s : Link) : List (List (List UInt8)) :=
  messagesOf s.receiver.zmq.incoming ++ s.messages.drop s.arrived

/-- The messages that the sender ends in a step. -/
def ended (s : Link) (e : Event) : List (List (List UInt8)) :=
  ((step b b' s e).elim [] Link.messages).drop s.messages.length

/-- The calls of the sender. -/
def sends : List Event → List SendCall
  | [] => []
  | .send c :: es => c :: sends es
  | _ :: es => sends es

/-- A receive is not interrupted behind the first part of a message. -/
def Whole (s : Link) : Event → Prop
  | .receive _ outcomes => messageEnds s.receiver.zmq.incoming outcomes = true ∨
    partsTo s.receiver.zmq.incoming outcomes = []
  | _ => True

/-! ## A receive -/

/-- What a multipart receive of either binding does. -/
theorem receives (skt : ZSocket) (r : MultiRecv) :
    messageIn r (b'.receive skt r).1 =
        (if messageEnds skt.zmq.incoming skt.zmq.outcomes then some (loopParts skt.zmq) else none) ∧
      (b'.receive skt r).2.zmq = (recvParts skt.zmq []).2.2 := by
  have hstrs : ∀ l : List (List UInt8), (l.map LuaVal.str).mapM stringOf = some l := by
    intro l
    induction l with
    | nil => rfl
    | cons a l ih => rw [List.map_cons, List.mapM_cons, ih]; rfl
  have hfail : ∀ vals, (LuaVal.nil :: vals).mapM stringOf = none := fun vals => by rw [List.mapM_cons]; rfl
  cases b' with
  | c =>
    cases r with
    | recvAll =>
      refine ⟨?_, (flags_recvAll skt).2⟩
      obtain ⟨z', hz'⟩ := recvParts_spec _ skt.zmq [] rfl
      show messageIn .recvAll (luazmqSktRecvAll skt).1 = _
      rw [luazmqSktRecvAll, hz', List.nil_append]
      cases messageEnds skt.zmq.incoming skt.zmq.outcomes <;> rfl
    | recvx =>
      refine ⟨?_, (flags_recvx skt).2⟩
      show messageIn .recvx (luazmqSktRecvx skt).1 = _
      cases hends : messageEnds skt.zmq.incoming skt.zmq.outcomes with
      | true =>
        obtain ⟨z', hz'⟩ := recvParts_spec _ skt.zmq [] rfl
        rw [luazmqSktRecvx, hz', hends, List.nil_append]
        exact hstrs _
      | false =>
        rw [luazmqSktRecvx_interrupted hends, recvxFailed]
        split
        · exact hfail _
        · exact hfail _
  | ffi =>
    cases r with
    | recvAll =>
      show messageIn .recvAll (FfiSocket.recvAll skt.zmq).1 = _ ∧ (FfiSocket.recvAll skt.zmq).2 = _
      rw [FfiSocket.recvAll_eq]
      refine ⟨?_, rfl⟩
      cases messageEnds skt.zmq.incoming skt.zmq.outcomes <;> rfl
    | recvx =>
      show messageIn .recvx (FfiSocket.recvx skt.zmq).1 = _ ∧ (FfiSocket.recvx skt.zmq).2 = _
      rw [FfiSocket.recvx_eq]
      refine ⟨?_, rfl⟩
      cases messageEnds skt.zmq.incoming skt.zmq.outcomes with
      | true =>
        rw [if_pos rfl, if_pos rfl, loopParts]
        exact (congrArg (List.mapM stringOf) List.map_map.symm).trans (hstrs _)
      | false => exact hfail _

/-- **The first message** of a stream: a loop takes some of its parts, all of them when it ends. -/
theorem partsTo_message : ∀ (m : List (List UInt8)) {ps : List Part} (outcomes : List Bool)
    {fs : List (List UInt8 × Bool)}, m ≠ [] → ps.map Part.frame = frames m false ++ fs →
      (partsTo ps outcomes).map Part.data <+: m ∧
        (messageEnds ps outcomes = true ↔ (partsTo ps outcomes).length = m.length) := by
  intro m
  induction m with
  | nil => exact fun _ _ h => absurd rfl h
  | cons a m ih =>
    intro ps outcomes fs _ hps
    cases ps with
    | nil => cases m <;> cases hps
    | cons p ps =>
      obtain ⟨data, more⟩ := p
      rw [messageEnds, partsTo]
      by_cases hok : outcomes.getD 0 true = true ∧ outcomes.getD 1 true = true
      · rw [if_pos hok]
        cases m with
        | nil =>
          obtain ⟨hp, -⟩ := List.cons.inj hps
          obtain ⟨rfl, rfl⟩ := Prod.mk.inj hp
          exact ⟨List.prefix_rfl, iff_of_true rfl rfl⟩
        | cons a' m =>
          obtain ⟨hp, hrest⟩ := List.cons.inj hps
          obtain ⟨rfl, rfl⟩ := Prod.mk.inj hp
          obtain ⟨hfront, hends⟩ := ih (outcomes.drop 2) (List.cons_ne_nil a' m) hrest
          rw [messageEnds] at hends
          simp only [if_true]
          cases hparts : partsTo ps (outcomes.drop 2) with
          | nil =>
            refine ⟨List.cons_prefix_cons.mpr ⟨rfl, List.nil_prefix⟩, iff_of_false ?_ ?_⟩
            · simp
            · simp
          | cons q qs =>
            rw [hparts] at hfront hends
            refine ⟨List.cons_prefix_cons.mpr ⟨rfl, hfront⟩, ?_⟩
            rw [List.getLast?_cons_cons, hends]
            exact ⟨congrArg (· + 1), Nat.succ.inj⟩
      · rw [if_neg hok]
        exact ⟨List.nil_prefix, iff_of_false (by simp) (by simp)⟩

/-- A message that is cut short has lost parts in front. -/
theorem shortens_suffix : Shortens (fun x y : List (List UInt8) => x <:+ y) List.length where
  refl _ := List.suffix_rfl
  trans := List.IsSuffix.trans
  le := List.IsSuffix.length_le
  eq := List.IsSuffix.eq_of_length

theorem messagesOf_queue {ps : List Part} {ms : List (List (List UInt8))} (hne : ∀ m ∈ ms, m ≠ [])
    (hps : ps.map Part.frame = queue ms) : messagesOf ps = ms := by
  have hmap : ps.map (fun p => single p.frame) = (ps.map Part.frame).map single := by
    rw [List.map_map]
    rfl
  rw [messagesOf, hmap, hps]
  exact messages_queue hne

/-! ## What every step keeps -/

/-- Whole messages wait, and no more have arrived than were sent. -/
structure Link.Inv (s : Link) : Prop where
  waiting : ∃ ms, (∀ m ∈ ms, m ≠ []) ∧ s.receiver.zmq.incoming.map Part.frame = queue ms
  arrived : s.arrived ≤ s.messages.length

theorem inv_start (own : Bool) (outcomes : List Bool) : (Link.start own outcomes).Inv where
  waiting := ⟨[], fun _ h => absurd h List.not_mem_nil, rfl⟩
  arrived := Nat.le_refl 0

variable {b b'} {s : Link}

/-- **A receive** gives the first message that waits, or leaves what it has not taken of it. -/
theorem Link.Inv.receive (hs : s.Inv) (r : MultiRecv) (outcomes : List Bool) :
    ∃ ms, (∀ m ∈ ms, m ≠ []) ∧
      (b'.receive (s.ready outcomes) r).2.zmq.incoming.map Part.frame = queue ms ∧
      Less (fun x y => x <:+ y) (given b' s (.receive r outcomes) ++ ms) (messagesOf s.receiver.zmq.incoming) ∧
      (given b' s (.receive r outcomes) ++ ms = messagesOf s.receiver.zmq.incoming ↔
        Whole s (.receive r outcomes)) := by
  obtain ⟨ms, hne, hin⟩ := hs.waiting
  obtain ⟨hmessage, hzmq⟩ := receives b' (s.ready outcomes) r
  have hrest := recvParts_rest _ (s.ready outcomes).zmq [] rfl
  rw [← hzmq] at hrest
  replace hrest : partsTo s.receiver.zmq.incoming outcomes ++
    (b'.receive (s.ready outcomes) r).2.zmq.incoming = s.receiver.zmq.incoming := hrest
  replace hmessage : given b' s (.receive r outcomes) =
      (if messageEnds s.receiver.zmq.incoming outcomes then
        [(partsTo s.receiver.zmq.incoming outcomes).map Part.data] else []) := by
    rw [given, hmessage]
    show Option.toList (if messageEnds s.receiver.zmq.incoming outcomes then _ else _) = _
    split <;> rfl
  rw [messagesOf_queue hne hin, hmessage, Whole]
  generalize (b'.receive (s.ready outcomes) r).2.zmq.incoming = left at hrest
  cases ms with
  | nil =>
    -- nothing waits
    have hnil : s.receiver.zmq.incoming = [] := List.map_eq_nil_iff.mp hin
    rw [hnil] at hrest ⊢
    obtain ⟨hparts, rfl⟩ := List.append_eq_nil_iff.mp hrest
    exact ⟨[], hne, rfl, .nil, iff_of_true rfl (Or.inr hparts)⟩
  | cons m ms =>
    have hm := hne m List.mem_cons_self
    have hms := fun n hn => hne n (List.mem_cons_of_mem m hn)
    obtain ⟨hfront, hends⟩ := partsTo_message m outcomes hm hin
    have hle := hfront.length_le
    rw [List.length_map] at hle
    generalize hk : partsTo s.receiver.zmq.incoming outcomes = taken at *
    have hleft : left.map Part.frame = frames (m.drop taken.length) false ++ queue ms := by
      have hdrop : left = s.receiver.zmq.incoming.drop taken.length := by rw [← hrest, List.drop_left]
      rw [hdrop, List.map_drop, hin, queue_cons, List.drop_append_of_le_length (by rw [length_frames]; exact hle),
        drop_frames]
    cases hend : messageEnds s.receiver.zmq.incoming outcomes with
    | true =>
      have hlen := hends.mp hend
      have hall : taken.map Part.data = m := hfront.eq_of_length (by rw [List.length_map]; exact hlen)
      refine ⟨ms, hms, ?_, ?_, ?_⟩
      · rw [hleft, hlen, List.drop_length]
        rfl
      · rw [if_pos rfl, hall]
        exact Less.refl shortens_suffix _
      · rw [if_pos rfl, hall]
        exact iff_of_true rfl (Or.inl rfl)
    | false =>
      have hlt : taken.length < m.length := by
        refine Nat.lt_of_le_of_ne hle fun h => ?_
        rw [hends.mpr h] at hend
        cases hend
      refine ⟨m.drop taken.length :: ms, ?_, hleft, ?_, ?_⟩
      · rw [List.forall_mem_cons]
        exact ⟨fun h => absurd (List.drop_eq_nil_iff.mp h) (Nat.not_le.mpr hlt), hms⟩
      · exact .cons (List.drop_suffix _ _) (Less.refl shortens_suffix _)
      · simp only [Bool.false_eq_true, if_false, List.nil_append, List.cons.injEq, and_true, false_or]
        constructor
        · intro h
          have hlen := congrArg List.length h
          rw [List.length_drop] at hlen
          exact List.length_eq_zero_iff.mp (by omega)
        · intro h
          rw [h]
          rfl

/-- **A message arriving** is the next one on the way, and then the last one that waits. -/
theorem Link.Inv.arrive (hs : s.Inv) : s.arrive.Inv ∧ s.arrive.rest = s.rest := by
  rw [Link.arrive]
  cases hm : s.messages[s.arrived]? with
  | none => exact ⟨hs, rfl⟩
  | some m =>
    obtain ⟨ms, hne, hin⟩ := hs.waiting
    obtain ⟨hlt, hget⟩ := List.getElem?_eq_some_iff.mp hm
    have hmem : m ∈ s.messages := List.mem_of_getElem? hm
    have hmne : m ≠ [] := by
      refine messages_single_ne_nil (s.sender.sent.map Part.frame) m ?_
      rw [List.map_map]
      exact hmem
    have hnew : ∀ n ∈ ms ++ [m], n ≠ [] := by
      intro n hn
      rcases List.mem_append.mp hn with hn | hn
      · exact hne n hn
      · rw [List.mem_singleton.mp hn]
        exact hmne
    have hqueue : (s.receiver.zmq.incoming ++ (frames m false).map partOf).map Part.frame = queue (ms ++ [m]) := by
      have hparts : ((frames m false).map partOf).map Part.frame = frames m false := by
        rw [List.map_map]
        exact List.map_id _
      rw [List.map_append, hin, hparts, queue_append, queue_cons, queue_nil, List.append_nil]
    refine ⟨⟨⟨ms ++ [m], hnew, hqueue⟩, hlt⟩, ?_⟩
    show messagesOf (_ ++ _) ++ s.messages.drop (s.arrived + 1) = messagesOf _ ++ s.messages.drop s.arrived
    rw [messagesOf_queue hnew hqueue, messagesOf_queue hne hin, List.append_assoc, List.drop_eq_getElem_cons hlt,
      hget]
    rfl

/-- **A call of the sender** ends some messages behind those that it had ended. -/
theorem messages_send (hsend : ∀ z c, Sending z c (b.send z c)) (c : SendCall) :
    s.messages <+: messagesOf (b.send s.sender c).2.sent := by
  have hframes := (hsend s.sender c).frames_contribution
  have hmap : ∀ ps : List Part, messagesOf ps = Framing.messages ((ps.map Part.frame).map single) := by
    intro ps
    rw [List.map_map]
    rfl
  rw [Link.messages, hmap, hmap, hframes, List.map_append]
  exact messages_prefix _ _

/-- The messages that a call ends go to the end of those that have not been given out. -/
theorem Link.Inv.send (hs : s.Inv) (hsend : ∀ z c, Sending z c (b.send z c)) (c : SendCall) :
    Link.Inv { s with sender := (b.send s.sender c).2 } ∧
      Link.rest { s with sender := (b.send s.sender c).2 } = s.rest ++ ended b b' s (.send c) := by
  obtain ⟨new, hnew⟩ := messages_send hsend (s := s) c
  have hmessages : Link.messages { s with sender := (b.send s.sender c).2 } = s.messages ++ new := hnew.symm
  refine ⟨⟨hs.waiting, ?_⟩, ?_⟩
  · rw [hmessages, List.length_append]
    exact Nat.le_add_right_of_le hs.arrived
  · have hended : ended b b' s (.send c) = new := by
      show (Link.messages { s with sender := (b.send s.sender c).2 }).drop _ = new
      rw [hmessages, List.drop_left]
    rw [hended, Link.rest, Link.rest, hmessages, List.drop_append_of_le_length hs.arrived, List.append_assoc]

/-! ## Runs -/

/-- Nothing is ended in a step that leaves the sender alone. -/
theorem ended_same {e : Event} {s' : Link} (h : step b b' s e = some s') (hsender : s'.sender = s.sender) :
    ended b b' s e = [] := by
  rw [ended, h]
  show List.drop _ (messagesOf s'.sender.sent) = []
  rw [hsender]
  exact List.drop_length

section Step

variable (hsend : ∀ z c, Sending z c (b.send z c))
include hsend

/-- **One step** keeps the invariant and loses nothing but the parts that an interrupted receive has taken. -/
theorem Link.Inv.step (hs : s.Inv) (e : Event) {s' : Link} (h : step b b' s e = some s') :
    s'.Inv ∧ Less (fun x y => x <:+ y) (given b' s e ++ s'.rest) (s.rest ++ ended b b' s e) ∧
      (given b' s e ++ s'.rest = s.rest ++ ended b b' s e ↔ Whole s e) := by
  cases e with
  | send c =>
    obtain rfl := Option.some.inj h
    obtain ⟨hinv, hrest⟩ := hs.send hsend c
    rw [hrest]
    exact ⟨hinv, Less.refl shortens_suffix _, iff_of_true rfl trivial⟩
  | arrive =>
    obtain rfl := Option.some.inj h
    obtain ⟨hinv, hrest⟩ := hs.arrive
    have hsender : s.arrive.sender = s.sender := by
      rw [Link.arrive]
      split <;> rfl
    rw [ended_same h hsender, List.append_nil, hrest]
    exact ⟨hinv, Less.refl shortens_suffix _, iff_of_true rfl trivial⟩
  | receive r outcomes =>
    obtain rfl := Option.some.inj h
    obtain ⟨ms, hne, hin, hless, hiff⟩ := hs.receive r outcomes
    rw [ended_same h rfl, List.append_nil]
    refine ⟨⟨⟨ms, hne, hin⟩, hs.arrived⟩, ?_⟩
    have hrest : Link.rest { s with receiver := (b'.receive (s.ready outcomes) r).2 } =
        ms ++ s.messages.drop s.arrived := by
      rw [Link.rest, messagesOf_queue hne hin]
      rfl
    rw [hrest, ← List.append_assoc, Link.rest, List.append_left_inj]
    exact ⟨hless.append (Less.refl shortens_suffix _), hiff⟩

/-- What is ended in a run. -/
theorem delivered_ended : ∀ (es : List Event) (s t : Link), run (Peers.step b b') s es = some t →
    s.messages ++ delivered (Peers.step b b') (ended b b') s es = t.messages := by
  intro es
  induction es with
  | nil =>
    intro s t h
    obtain rfl := Option.some.inj h
    exact List.append_nil _
  | cons e es ih =>
    intro s t h
    obtain ⟨s', hs', ht⟩ := run_cons_inv _ h
    rw [delivered_cons _ _ es hs', ← List.append_assoc]
    have hstep : s.messages ++ ended b b' s e = s'.messages := by
      rw [ended, hs']
      have hfront : s.messages <+: s'.messages := by
        cases e with
        | send c =>
          obtain rfl := Option.some.inj hs'
          exact messages_send hsend c
        | arrive =>
          obtain rfl := Option.some.inj hs'
          rw [Link.arrive]
          split <;> exact List.prefix_rfl
        | receive r outcomes =>
          obtain rfl := Option.some.inj hs'
          exact List.prefix_rfl
      exact List.prefix_iff_eq_append.mp hfront
    rw [hstep]
    exact ih s' t ht

end Step

/-- The sender does not see the rest of the link. -/
theorem sender_run : ∀ (es : List Event) (s t : Link), run (Peers.step b b') s es = some t →
    t.sender = Sends.after b.send s.sender (sends es) := by
  intro es
  induction es with
  | nil =>
    intro s t h
    obtain rfl := Option.some.inj h
    rfl
  | cons e es ih =>
    intro s t h
    obtain ⟨s', hs', ht⟩ := run_cons_inv _ h
    rw [ih s' t ht]
    cases e with
    | send c =>
      obtain rfl := Option.some.inj hs'
      rfl
    | arrive =>
      obtain rfl := Option.some.inj hs'
      have hsender : s.arrive.sender = s.sender := by
        rw [Link.arrive]
        split <;> rfl
      rw [hsender]
      rfl
    | receive r outcomes =>
      obtain rfl := Option.some.inj hs'
      rfl

theorem sending (b : Binding) : ∀ z c, Sending z c (b.send z c) := by
  cases b with
  | c => exact Sends.c_sending
  | ffi => exact Sends.ffi_sending

/-- The messages that the receiver is given in a run. -/
def received (b b' : Binding) (s : Link) (es : List Event) : List (List (List UInt8)) :=
  delivered (step b b') (given b') s es

/-- **One connection.**  Whichever bindings the two sides use, in every order of sends, arrivals and receives and
    with any calls of libzmq failing: the messages given to the receiver, those that wait and those on the way are
    the messages of the stream in their order, of which some may have lost parts in front.  None has iff no
    receive was interrupted inside a message; and then they are the messages of the calls that succeeded iff no
    send was interrupted inside a message that was ended later. -/
theorem link_iff (b b' : Binding) (own : Bool) (outcomes : List Bool) (es : List Event) :
    ∃ t, run (step b b') (.start own outcomes) es = some t ∧
      Less (fun x y => x <:+ y) (received b b' (.start own outcomes) es ++ t.rest) t.messages ∧
      (received b b' (.start own outcomes) es ++ t.rest = t.messages ↔
        Meets (step b b') Whole (.start own outcomes) es) ∧
      (Meets (step b b') Whole (.start own outcomes) es →
        (received b b' (.start own outcomes) es ++ t.rest =
            callMessages (Sends.sentCalls b.send ⟨[], outcomes⟩ (sends es)) ↔
          Sends.Intact b.send ⟨[], outcomes⟩ (sends es))) := by
  have htotal : ∀ s e, ∃ s', step b b' s e = some s' := by
    intro s e
    cases e <;> exact ⟨_, rfl⟩
  obtain ⟨t, ht⟩ := exists_run (step b b') htotal es (.start own outcomes)
  have hinv : ∀ s e s', Link.Inv s → step b b' s e = some s' → Link.Inv s' := fun s e s' hs h =>
    (hs.step (sending b) e h).1
  have hhonest : HonestFed (step b b') Link.rest (ended b b') (given b') Link.Inv (fun x y => x <:+ y) :=
    fun s e s' hs h => (hs.step (sending b) e h).2.1
  have hless := run_fed_less hinv shortens_suffix hhonest es _ t (inv_start own outcomes) ht
  have hexact := run_fed_exact_iff hinv shortens_suffix hhonest
    (fun s e s' hs h => (hs.step (sending b) e h).2.2) es _ t (inv_start own outcomes) ht
  -- nothing is there at the start
  have hended : (Link.start own outcomes).rest ++ delivered (step b b') (ended b b') (.start own outcomes) es =
      t.messages := delivered_ended (sending b) es _ t ht
  rw [hended] at hless hexact
  refine ⟨t, ht, hless, hexact, fun hwhole => ?_⟩
  have hmessages : t.messages = messagesOf (Sends.after b.send ⟨[], outcomes⟩ (sends es)).sent := by
    rw [Link.messages, sender_run es _ t ht]
    rfl
  rw [show received b b' (.start own outcomes) es ++ t.rest = t.messages from hexact.mpr hwhole, hmessages]
  exact Sends.messages_iff (sending b) (sends es) outcomes

/-- A message of two parts is sent and arrives; the receiver's first call fails at the second part. -/
example : received .c .ffi (.start true []) [.send (.sendx [[1], [2]]), .arrive,
    .receive .recvAll [true, true, false],
    .receive .recvx []] = [[[2]]] := by decide +kernel

end Lzmq.Peers
