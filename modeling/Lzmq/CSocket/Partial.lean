/-
  Multipart receives that fail part-way (`luazmq_skt_recv_all` and `luazmq_skt_recvx` of `zsocket.c`).

  Both loops receive one part after the other and may fail at any of them.  `recv_all` collects the parts
  in a table and returns that table behind `nil, err`.  `recvx` leaves the parts on the Lua stack, above
  the socket in slot 1, and rotates `nil, err` below them with a counted loop of `lua_insert(L, 1)`.

  `recvParts_spec` says what the common loop receives.  The rotation takes one value too many: with no
  part on the stack the value is the socket itself, which goes back to slot 1, and otherwise it is the
  LAST PART, which goes below the values returned, while the socket comes up among them.
-/
import Lzmq.CSocket.Receive

namespace Lzmq.CSocket

/-! ## What the loop receives -/

/-- The parts that a multipart receive gets before a call fails or the message ends. -/
def received (skt : ZSocket) : List (List UInt8) :=
  (partsTo skt.zmq.incoming skt.zmq.outcomes).map Part.data

/-- The last part of the message is among them. -/
def messageEnds (ps : List Part) (outcomes : List Bool) : Bool :=
  (partsTo ps outcomes).getLast?.any fun p => !p.more

/-- A call fails before the message has ended. -/
def Interrupted (skt : ZSocket) : Prop := messageEnds skt.zmq.incoming skt.zmq.outcomes = false

instance (skt : ZSocket) : Decidable (Interrupted skt) := inferInstanceAs (Decidable (_ = _))

/-- The loop of `recv_all` and `recvx`, by induction on what is still to arrive. -/
theorem recvParts_spec : ∀ (ps : List Part) (z : Zmq) (got : List (List UInt8)), z.incoming = ps →
    ∃ z', recvParts z got =
      (messageEnds ps z.outcomes, got ++ (partsTo ps z.outcomes).map Part.data, z') := by
  intro ps
  induction ps with
  | nil =>
    intro z got hz
    obtain ⟨outcomes, h⟩ := recvParts_stop (z := z) got (Or.inr (by
      rw [nextPart, hz]
      split <;> rfl))
    rw [h, messageEnds, partsTo, List.map_nil, List.append_nil]
    exact ⟨_, rfl⟩
  | cons p ps ih =>
    intro z got hz
    by_cases hok : z.outcomes.getD 0 true = true ∧ z.outcomes.getD 1 true = true
    · have hnext : nextPart { z with outcomes := z.outcomes.drop 1 } = some p := by
        rw [nextPart, hz, getD_drop_one, if_pos hok.2]
        rfl
      rw [recvParts_part got hok.1 hnext, hz, List.tail_cons, messageEnds, partsTo, if_pos hok]
      cases hmore : p.more with
      | false =>
        refine ⟨⟨ps, false, z.outcomes.drop 2⟩, ?_⟩
        simp only [Bool.false_eq_true, if_false, List.getLast?_singleton, Option.any_some, hmore,
          Bool.not_false,
          List.map_cons, List.map_nil]
      | true =>
        simp only [if_true]
        obtain ⟨z', hz'⟩ := ih ⟨ps, true, z.outcomes.drop 2⟩ (got ++ [p.data]) rfl
        refine ⟨z', hz'.trans ?_⟩
        rw [List.map_cons, List.append_assoc, List.singleton_append, messageEnds]
        cases hlast : (partsTo ps (z.outcomes.drop 2)).getLast? with
        | none =>
          rw [List.getLast?_eq_none_iff] at hlast
          rw [hlast, List.getLast?_singleton, Option.any_some, hmore]
          rfl
        | some q => rw [List.getLast?_cons, hlast]; rfl
    · obtain ⟨outcomes, h⟩ := recvParts_fails got hok
      rw [h, messageEnds, partsTo, if_neg hok, List.map_nil, List.append_nil]
      exact ⟨_, rfl⟩

/-! ## The rotation of `recvx` -/

theorem luaInsert1_concat (l : List LuaVal) (x : LuaVal) : luaInsert1 (l ++ [x]) = x :: l := by
  rw [luaInsert1, List.getLast?_concat, List.dropLast_concat]
  rfl

/-- Two rotations bring `nil, err` below the socket and the parts; the third takes the value that is on
    top then. -/
theorem luaInsert1_three (vals : List LuaVal) :
    luaInsert1 (luaInsert1 (luaInsert1 ([.skt] ++ vals ++ luazmqFail))) =
      luaInsert1 ([.nil, .err, .skt] ++ vals) := by
  have hfirst : [.skt] ++ vals ++ luazmqFail = ([.skt] ++ vals ++ [.nil]) ++ [.err] := by
    rw [luazmqFail, List.append_assoc, List.append_assoc, List.append_assoc]
    rfl
  have hsecond : LuaVal.err :: ([.skt] ++ vals ++ [.nil]) = ([.err, .skt] ++ vals) ++ [.nil] := rfl
  rw [hfirst, luaInsert1_concat, hsecond, luaInsert1_concat]
  rfl

/-- The values `recvx` returns after a failure. -/
def recvxFailed (parts : List (List UInt8)) : List LuaVal :=
  if parts = [] then luazmqFail else luazmqFail ++ .skt :: parts.dropLast.map .str

/-- A failed **`recvx`**: the socket is returned in front of the parts, and the last part is not. -/
theorem luazmqSktRecvx_interrupted {skt : ZSocket} (h : Interrupted skt) :
    (luazmqSktRecvx skt).1 = .ret (recvxFailed (received skt)) := by
  obtain ⟨z', hz'⟩ := recvParts_spec _ skt.zmq [] rfl
  rw [show messageEnds skt.zmq.incoming skt.zmq.outcomes = false from h, List.nil_append] at hz'
  rw [luazmqSktRecvx, hz']
  show Reply.ret _ = _
  rw [← received, luaInsert1_three, recvxFailed]
  rcases List.eq_nil_or_concat (received skt) with hnil | ⟨init, last, hlast⟩
  · rw [if_pos hnil, hnil]
    rfl
  · rw [List.concat_eq_append] at hlast
    have hne : received skt ≠ [] := by rw [hlast]; simp
    have hstack : luaInsert1 ([.nil, .err, .skt] ++ (received skt).map .str) =
        .str last :: .nil :: .err :: .skt :: init.map .str := by
      rw [hlast, List.map_append, ← List.append_assoc]
      exact luaInsert1_concat _ _
    have hdrop : (LuaVal.str last :: .nil :: .err :: .skt :: init.map .str).length -
        (luazmqFail.length + (received skt).length) = 1 := by
      have hlen : (received skt).length = init.length + 1 := by rw [hlast, List.length_append]; rfl
      have hfail : luazmqFail.length = 2 := rfl
      rw [hlen, hfail, List.length_cons, List.length_cons, List.length_cons, List.length_cons,
        List.length_map]
      omega
    rw [if_neg hne, hstack, hdrop, hlast, List.dropLast_concat]
    rfl

/-- A failed **`recv_all`** returns the parts received, in order. -/
theorem luazmqSktRecvAll_interrupted {skt : ZSocket} (h : Interrupted skt) :
    (luazmqSktRecvAll skt).1 = .ret (luazmqFail ++ [.table (received skt)]) := by
  obtain ⟨z', hz'⟩ := recvParts_spec _ skt.zmq [] rfl
  rw [show messageEnds skt.zmq.incoming skt.zmq.outcomes = false from h, List.nil_append] at hz'
  rw [luazmqSktRecvAll, hz']
  rfl

/-! ## What a failed receive should return -/

/-- Both functions report the error and the parts received before it. -/
structure PartialOk (skt : ZSocket) : Prop where
  recvAll : (luazmqSktRecvAll skt).1 = .ret (luazmqFail ++ [.table (received skt)])
  recvx : (luazmqSktRecvx skt).1 = .ret (luazmqFail ++ (received skt).map .str)

/-- A list of parts is never a list of parts behind a socket. -/
theorem recvxFailed_eq_iff (parts : List (List UInt8)) :
    recvxFailed parts = luazmqFail ++ parts.map .str ↔ parts = [] := by
  constructor
  · intro h
    by_contra hne
    rw [recvxFailed, if_neg hne, List.append_cancel_left_eq] at h
    cases parts with
    | nil => exact hne rfl
    | cons p ps => cases h
  · rintro rfl
    rfl

/-- **Partial receives, exactly.**  When a call of the loop fails, `recv_all` always reports the parts
    received, and both functions do iff no part has been received. -/
theorem partialOk_iff (skt : ZSocket) (h : Interrupted skt) : PartialOk skt ↔ received skt = [] := by
  constructor
  · intro hok
    refine (recvxFailed_eq_iff _).mp ?_
    have hreply := (luazmqSktRecvx_interrupted h).symm.trans hok.recvx
    exact Reply.ret.inj hreply
  · intro hnone
    refine ⟨luazmqSktRecvAll_interrupted h, ?_⟩
    rw [luazmqSktRecvx_interrupted h, (recvxFailed_eq_iff _).mpr hnone]

/-- The first `zmq_msg_recv` fails. -/
theorem partialOk_nothing_received :
    PartialOk (newSocket true [⟨[1], false⟩] [true, false]) :=
  (partialOk_iff _ (by decide)).mpr (by decide)

/-- One part of a message is there, the rest does not come: `recvx` returns the socket in its place. -/
theorem not_partialOk_one_part : ∃ skt, Interrupted skt ∧ received skt = [[1]] ∧
    (luazmqSktRecvx skt).1 = .ret [.nil, .err, .skt] ∧ ¬ PartialOk skt := by
  have hpart : Interrupted (newSocket true [⟨[1], true⟩] []) := by decide
  have hreply := luazmqSktRecvx_interrupted hpart
  refine ⟨_, hpart, by decide, hreply, fun hok => ?_⟩
  have hwrong := hreply.symm.trans hok.recvx
  exact absurd hwrong (by decide)

end Lzmq.CSocket
