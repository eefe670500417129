/-
  The binding of the C poller (`zpoller.c`) and the registrations it stands for.

  A method of the binding checks its socket-or-descriptor argument (`luazmq_check_socket`), looks the
  item up and calls `poller.c`.  Read abstractly, a poller is a list of registrations (key, events)
  and `add`, `modify` and `remove` are the three operations of `Lzmq.Registry` on it.  The code
  refines that reading on most calls but not on all:
    * a removal drops every OTHER registration whose mask equals the free tag `0xFFFF`;
    * `poller_find_fd_item` compares the `fd` field only, which is 0 in the item of a zmq socket, so
      the lookup of descriptor 0 may stop at a socket;
    * `luazmq_plr_modify` stores `sock->skt` also when the key is a descriptor and `sock` is NULL,
      while `luazmq_plr_add` tests `sock` first.
  `PlrCallOk` is the exact condition; `plr_keeps_iff_meets` says a run of calls refines the list at
  every call if and only if every call meets it.
-/
import Lzmq.Lib.Steps
import Lzmq.Lib.Registry
import Lzmq.CPoller.Invariant

namespace Lzmq.CPoller

open Lzmq.Registry

/-! ## The methods of the binding -/

/-- The argument accepted by `luazmq_check_socket`: a zmq socket or a descriptor. -/
inductive PollKey
  | socket (skt : Nat)
  | fd (n : Int)
deriving DecidableEq, Repr

/-- `sock ? sock->skt : 0` -/
def PollKey.pointer : PollKey → SocketPtr
  | .socket skt => .handle skt
  | .fd _ => .null

/-- The variable `fd`, which stays 0 for a zmq socket. -/
def PollKey.fdValue : PollKey → Int
  | .socket _ => 0
  | .fd n => n

/-- The lookup shared by `modify` and `remove`. -/
def luazmqFindItem (p : ZMQPoller) : PollKey → Except Fault Int
  | .socket skt => pollerFindSockItem p skt
  | .fd n => pollerFindFdItem p n

/-- `luazmq_plr_add`; `events` is a Lua integer stored in a `short`. -/
def luazmqPlrAdd (p : ZMQPoller) (key : PollKey) (events : Int) : Except Fault (Int × ZMQPoller) := do
  let (idx, p) ← pollerGetFreeItem p
  let it ← readItem p.items idx
  let items ← writeItem p.items idx
    { it with socket := key.pointer, fd := key.fdValue, events := Int16.ofInt events }
  .ok (idx, { p with items := items })

/-- `item->socket = sock->skt; item->fd = fd; item->events = events`: the pointer `sock` is NULL for
    a descriptor. -/
def luazmqModifyItem (p : ZMQPoller) (key : PollKey) (events : Int16) (idx : Nat) :
    Except Fault (Int × ZMQPoller) := do
  let it ← readItem p.items idx
  match key with
  | .fd _ => .error .nullDeref
  | .socket skt =>
    let items ← writeItem p.items idx { it with socket := .handle skt, fd := 0, events := events }
    .ok (idx, { p with items := items })

/-- `luazmq_plr_modify` -/
def luazmqPlrModify (p : ZMQPoller) (key : PollKey) (events : Int) :
    Except Fault (Int × ZMQPoller) := do
  let events := Int16.ofInt events
  let idx ← luazmqFindItem p key
  if events ≠ 0 then
    if idx < 0 then
      let (idx, p) ← pollerGetFreeItem p
      luazmqModifyItem p key events idx
    else luazmqModifyItem p key events idx.toNat
  else if 0 ≤ idx then
    let p ← pollerRemoveItem p idx.toNat
    .ok (idx, p)
  else .ok (idx, p)

/-- `luazmq_plr_remove` -/
def luazmqPlrRemove (p : ZMQPoller) (key : PollKey) : Except Fault (Int × ZMQPoller) := do
  let idx ← luazmqFindItem p key
  if 0 ≤ idx then
    let p ← pollerRemoveItem p idx.toNat
    .ok (idx, p)
  else .ok (idx, p)

/-- What `luazmq_plr_poll` returns to Lua: nil and an error, or the number `zmq_poll` returned. -/
inductive PlrPoll
  | fail
  | count (n : Int)
deriving DecidableEq, Repr

/-- `luazmq_plr_poll` -/
def luazmqPlrPoll (p : ZMQPoller) (out : ZmqPoll) : Except Fault (PlrPoll × ZMQPoller) := do
  let (err, p) ← pollerPoll p out
  let p := { p with next := if 0 < err then (p.count : Int) - 1 else -1 }
  if err = -1 then .ok (.fail, p)
  else if 0 ≤ err then .ok (.count err, p)
  else .error .assertion

/-- `luazmq_plr_next_revents_idx` -/
def luazmqPlrNextReventsIdx (p : ZMQPoller) : Except Fault (Int × Int16 × ZMQPoller) :=
  pollerNextRevents p

/-! ## What a lookup accepts -/

/-- The test of the lookup loop, on an item. -/
def PollKey.test : PollKey → Pollitem → Bool
  | .socket skt, it => it.socket == .handle skt
  | .fd n, it => it.fd == n

/-- The same test on the key of a registration: the item of a zmq socket has `fd` 0. -/
def PollKey.accepts : PollKey → PollKey → Bool
  | .socket skt, k => k == .socket skt
  | .fd n, k => k.fdValue == n

/-- The item written for a registration. -/
def newItem (key : PollKey) (events : Int16) : Pollitem :=
  { socket := key.pointer, fd := key.fdValue, events := events, revents := 0 }

theorem luazmqFindItem_eq {p : ZMQPoller} (h : Wf p) (key : PollKey) :
    luazmqFindItem p key = .ok (ofIdx? (p.active.findIdx? key.test)) := by
  cases key with
  | socket skt => exact pollerFindSockItem_eq h skt
  | fd n => exact pollerFindFdItem_eq h n

theorem findIdx?_lt {p : ZMQPoller} (h : Wf p) {test : Pollitem → Bool} {i : Nat}
    (hi : p.active.findIdx? test = some i) : i < p.count := by
  obtain ⟨hlt, -⟩ := findIdx?_split hi
  rwa [h.active_length] at hlt

/-! ## One lemma per method -/

theorem luazmqPlrAdd_spec {p : ZMQPoller} (h : Wf p) (key : PollKey) (events : Int) :
    ∃ p', luazmqPlrAdd p key events = .ok (p.count, p') ∧ Wf p' ∧ p'.next = p.next ∧
      p'.active = p.active ++ [newItem key (Int16.ofInt events)] := by
  obtain ⟨q, hq, hfree, hnext, hcount, hlen, hlt, hitems⟩ := pollerGetFreeItem_spec h
  have hidx : p.count < q.items.length := by
    rw [hitems, List.length_append, h.active_length, List.length_replicate]; omega
  have hzero : q.items[p.count] = Pollitem.zero := by
    simp [hitems, List.getElem_append_right, h.active_length]
  obtain ⟨hwf, hact⟩ := Wf.fill h hfree hnext hcount hlen hlt hitems (newItem key (Int16.ofInt events))
  refine ⟨_, ?_, hwf, hnext, hact⟩
  simp only [luazmqPlrAdd, hq, ok_bind, readItem_ok hidx, hzero, writeItem_ok _ hidx]
  rfl

/-- Both ways of removing: through `remove`, and through `modify` with no events. -/
theorem removeFound_spec {p : ZMQPoller} (h : Wf p) (key : PollKey) :
    (p.active.findIdx? key.test = none ∧ luazmqPlrRemove p key = .ok (-1, p)) ∨
    ∃ i p', p.active.findIdx? key.test = some i ∧ i < p.count ∧
      luazmqPlrRemove p key = .ok (i, p') ∧ Wf p' ∧ p'.next = p.next ∧
      p'.active = (p.active.eraseIdx i).filter Pollitem.live := by
  rw [luazmqPlrRemove, luazmqFindItem_eq h]
  cases hf : p.active.findIdx? key.test with
  | none => exact Or.inl ⟨rfl, rfl⟩
  | some i =>
    have hi := findIdx?_lt h hf
    obtain ⟨p', hp', hwf, hnext, hact⟩ := pollerRemoveItem_spec h hi
    refine Or.inr ⟨i, p', rfl, hi, ?_, hwf, hnext, hact⟩
    simp only [ofIdx?_some, ok_bind, Int.natCast_nonneg, if_true, Int.toNat_natCast, hp']

theorem luazmqPlrModify_zero {p : ZMQPoller} (key : PollKey) {events : Int}
    (hev : Int16.ofInt events = 0) : luazmqPlrModify p key events = luazmqPlrRemove p key := by
  rw [luazmqPlrModify, luazmqPlrRemove]
  congr 1
  funext idx
  rw [if_neg (by rw [hev]; exact fun h => h rfl)]

theorem luazmqPlrModify_socket {p : ZMQPoller} (h : Wf p) (skt : Nat) {events : Int}
    (hev : Int16.ofInt events ≠ 0) :
    (p.active.findIdx? (PollKey.socket skt).test = none ∧
      ∃ p', luazmqPlrModify p (.socket skt) events = .ok (p.count, p') ∧ Wf p' ∧ p'.next = p.next ∧
        p'.active = p.active ++ [newItem (.socket skt) (Int16.ofInt events)]) ∨
    ∃ i p', ∃ hi : i < p.active.length, p.active.findIdx? (PollKey.socket skt).test = some i ∧
      luazmqPlrModify p (.socket skt) events = .ok (i, p') ∧ Wf p' ∧ p'.next = p.next ∧
      p'.active = p.active.set i { p.active[i] with
        socket := .handle skt, fd := 0, events := Int16.ofInt events } := by
  rw [luazmqPlrModify, luazmqFindItem_eq h]
  cases hf : p.active.findIdx? (PollKey.socket skt).test with
  | none =>
    refine Or.inl ⟨rfl, ?_⟩
    obtain ⟨p', hp', hwf, hnext, hact⟩ := luazmqPlrAdd_spec h (.socket skt) events
    refine ⟨p', ?_, hwf, hnext, hact⟩
    rw [← hp']
    simp only [ofIdx?_none, ok_bind, if_pos hev, Int.reduceNeg, Int.reduceLT, if_true]
    rfl
  | some i =>
    have hi := findIdx?_lt h hf
    obtain ⟨hl, ha, hget⟩ := h.active_get hi
    obtain ⟨hwf, hact⟩ := h.overwrite hi { p.active[i] with
      socket := .handle skt, fd := 0, events := Int16.ofInt events }
    refine Or.inr ⟨i, _, ha, rfl, ?_, hwf, rfl, hact⟩
    have hneg : ¬ (i : Int) < 0 := by omega
    simp only [ofIdx?_some, ok_bind, if_pos hev, if_neg hneg, Int.toNat_natCast, luazmqModifyItem,
      readItem_ok hl, hget, writeItem_ok _ hl]

/-- `modify` of a descriptor with events dereferences the NULL `sock`. -/
theorem luazmqPlrModify_fd {p : ZMQPoller} (h : Wf p) (fd : Int) {events : Int}
    (hev : Int16.ofInt events ≠ 0) : luazmqPlrModify p (.fd fd) events = .error .nullDeref := by
  simp only [luazmqPlrModify, luazmqFindItem_eq h, ok_bind, if_pos hev]
  cases hf : p.active.findIdx? (PollKey.fd fd).test with
  | none =>
    obtain ⟨q, hq, -, -, -, -, hlt, hitems⟩ := pollerGetFreeItem_spec h
    have hidx : p.count < q.items.length := by
      rw [hitems, List.length_append, h.active_length, List.length_replicate]; omega
    simp only [ofIdx?_none, Int.reduceNeg, Int.reduceLT, if_true, hq, ok_bind, luazmqModifyItem,
      readItem_ok hidx]
  | some i =>
    obtain ⟨hl, -, -⟩ := h.active_get (findIdx?_lt h hf)
    have hneg : ¬ (i : Int) < 0 := by omega
    simp only [ofIdx?_some, if_neg hneg, Int.toNat_natCast, luazmqModifyItem, readItem_ok hl, ok_bind]

end Lzmq.CPoller
