/-
  The representation of a C poller, along any sequence of calls.

  `Wf` is what holds of the item array between calls.  Here all five methods that work on the array are
  run in any order, with any masks and anything `zmq_poll` may write: `plr_representation` says that `Wf`
  is kept, that no call leaves the array or fails an assertion, and which indices the calls return.

  The cursor `next` is moved by `poll` and `next_revents_idx` only, so a removal may leave it above the
  items in use; it then stops at cleared slots, which have no pending events.  That an item which was
  added after the last poll is not reported is a statement about items that move when others are removed.
  So the array is followed by a list of `Slot`s, items that know whether they are new: each call does to
  the list what its name says, and the array holds the items of the list (`Tracks`).
-/
import Lzmq.CPoller.Dispatch

namespace Lzmq.CPoller

open Lzmq.Steps

/-! ## Calls -/

/-- A call of the binding; `ret` is what `zmq_poll` returns, `none` for -1. -/
inductive PlrOp
  | add (key : PollKey) (events : Int)
  | modify (skt : Nat) (events : Int)
  | remove (key : PollKey)
  | poll (ret : Option Nat) (revents : Nat → Int16)
  | nextReventsIdx

/-- What `zmq_poll` does in such a call. -/
def zmqPoll (ret : Option Nat) (revents : Nat → Int16) : ZmqPoll :=
  ⟨match ret with | none => -1 | some n => n, revents⟩

/-- The method called, with the first number it pushes; a failed poll pushes none. -/
def plrOp (p : ZMQPoller) : PlrOp → Except Fault (Int × ZMQPoller)
  | .add key events => luazmqPlrAdd p key events
  | .modify skt events => luazmqPlrModify p (.socket skt) events
  | .remove key => luazmqPlrRemove p key
  | .poll ret revents => do
    let (r, p) ← luazmqPlrPoll p (zmqPoll ret revents)
    .ok (match r with | .fail => -1 | .count n => n, p)
  | .nextReventsIdx => do
    let (idx, _, p) ← luazmqPlrNextReventsIdx p
    .ok (idx, p)

/-- The calls that register something. -/
def PlrOp.Registers : PlrOp → Prop
  | .add _ _ => True
  | .modify _ events => Int16.ofInt events ≠ 0
  | _ => False

/-! ## Items that know whether they are new -/

/-- An item, and whether it was added after the last poll. -/
structure Slot where
  item : Pollitem
  isNew : Bool

/-- The items with the free tag go along with the one that is removed. -/
def removeSlot (l : List Slot) (key : PollKey) : List Slot :=
  match l.findIdx? fun s => key.test s.item with
  | none => l
  | some i => (l.eraseIdx i).filter fun s => s.item.live

/-- What a call does to the items. -/
def slotsAfter (l : List Slot) : PlrOp → List Slot
  | .add key events => l ++ [⟨newItem key (Int16.ofInt events), true⟩]
  | .modify skt events =>
    if Int16.ofInt events ≠ 0 then
      match l.findIdx? fun s => (PollKey.socket skt).test s.item with
      | none => l ++ [⟨newItem (.socket skt) (Int16.ofInt events), true⟩]
      | some i => l.modify i fun s =>
        { s with item := { s.item with socket := .handle skt, fd := 0, events := Int16.ofInt events } }
    else removeSlot l (.socket skt)
  | .remove key => removeSlot l key
  | .poll _ revents => l.mapIdx fun i s => ⟨{ s.item with revents := revents i }, false⟩
  | .nextReventsIdx => l

/-- A poller, the items it should hold, and the number the last call has pushed. -/
structure Watched where
  poller : ZMQPoller
  slots : List Slot
  idx : Int

def watchedInit (n : Nat) : Watched := ⟨pollerInit n, [], 0⟩

/-- One call; `none` when it crashes. -/
def watchedStep (s : Watched) (op : PlrOp) : Option Watched :=
  match plrOp s.poller op with
  | .error _ => none
  | .ok (idx, p) => some ⟨p, slotsAfter s.slots op, idx⟩

/-! ## What holds between calls -/

/-- The poller is well formed and holds the items of the list; a new item has no pending events. -/
structure Tracks (p : ZMQPoller) (l : List Slot) : Prop where
  wf : Wf p
  next : -1 ≤ p.next
  active : p.active = l.map Slot.item
  quiet : ∀ s ∈ l, s.isNew = true → s.item.revents = 0

/-- What a call should do. -/
structure PlrOpOk (s : Watched) (op : PlrOp) (s' : Watched) : Prop where
  tracks : Tracks s'.poller s'.slots
  /-- A registration returns the index of an item in use, -/
  registered : op.Registers → ∃ i : Nat, s'.idx = i ∧ i < s'.poller.count
  /-- and only items in use that were there at the last poll are reported. -/
  reported : op = .nextReventsIdx → s'.idx = -1 ∨
    ∃ (i : Nat) (slot : Slot), s'.idx = i ∧ i < s'.poller.count ∧ s'.slots[i]? = some slot ∧ slot.isNew = false

theorem tracks_pollerInit (n : Nat) : Tracks (pollerInit n) [] :=
  ⟨wf_pollerInit n, Int.le_refl _, active_pollerInit n, fun _ h => absurd h List.not_mem_nil⟩

/-- Changing an item in place, seen on the items. -/
theorem map_modify {α β : Type} (g : α → β) {f : α → α} {l : List α} {i : Nat} (hi : i < l.length) :
    (l.modify i f).map g = (l.map g).set i (g (f l[i])) := by
  refine List.ext_getElem? fun j => ?_
  rw [List.getElem?_map, List.getElem?_modify, List.getElem?_set, List.length_map, List.getElem?_map]
  by_cases hij : i = j
  · subst hij
    rw [if_pos rfl, if_pos hi, List.getElem?_eq_getElem hi]
    simp
  · rw [if_neg hij]
    simp [hij]

theorem mem_modify {α : Type} {f : α → α} {l : List α} {i : Nat} {a : α} (h : a ∈ l.modify i f) :
    ∃ b ∈ l, a = b ∨ a = f b := by
  obtain ⟨j, hj⟩ := List.mem_iff_getElem?.mp h
  rw [List.getElem?_modify] at hj
  obtain ⟨b, hb, rfl⟩ := Option.map_eq_some_iff.mp hj
  refine ⟨b, List.mem_of_getElem? hb, ?_⟩
  split
  · exact .inr rfl
  · exact .inl rfl

/-- The search for pending events stays below where it starts. -/
theorem nextPending_spec (items : List Pollitem) : ∀ n ≤ items.length,
    nextPending items n = .ok none ∨ ∃ i it, i < n ∧ items[i]? = some it ∧ it.revents ≠ 0 ∧
      nextPending items n = .ok (some (i, it.revents)) := by
  intro n
  induction n with
  | zero => exact fun _ => .inl rfl
  | succ n ih =>
    intro hn
    rw [nextPending, readItem_ok (by omega), ok_bind]
    by_cases hr : items[n].revents = 0
    · rw [if_neg (not_not.mpr hr)]
      rcases ih (by omega) with hnone | ⟨i, it, hi, hit, hpending, heq⟩
      · exact .inl hnone
      · exact .inr ⟨i, it, by omega, hit, hpending, heq⟩
    · rw [if_pos hr]
      exact .inr ⟨n, items[n], by omega, List.getElem?_eq_getElem (by omega), hr, rfl⟩

namespace Tracks

variable {p p' : ZMQPoller} {l : List Slot}

theorem length (h : Tracks p l) : l.length = p.count := by
  rw [← h.wf.active_length, h.active, List.length_map]

theorem findIdx (h : Tracks p l) (key : PollKey) :
    p.active.findIdx? key.test = l.findIdx? fun s => key.test s.item := by
  rw [h.active, List.findIdx?_map]
  rfl

theorem append (h : Tracks p l) {it : Pollitem} (hquiet : it.revents = 0) (hwf : Wf p')
    (hnext : p'.next = p.next) (hact : p'.active = p.active ++ [it]) : Tracks p' (l ++ [⟨it, true⟩]) := by
  refine ⟨hwf, hnext ▸ h.next, by rw [hact, h.active, List.map_append]; rfl, fun s hs hnew => ?_⟩
  rcases List.mem_append.mp hs with hs | hs
  · exact h.quiet s hs hnew
  · rw [List.mem_singleton.mp hs]
    exact hquiet

/-- Both ways of removing. -/
theorem remove (h : Tracks p l) (key : PollKey) :
    ∃ idx p', luazmqPlrRemove p key = .ok (idx, p') ∧ Tracks p' (removeSlot l key) := by
  unfold removeSlot
  rcases removeFound_spec h.wf key with ⟨hnone, hrem⟩ | ⟨i, p', hsome, hi, hrem, hwf, hnext, hact⟩
  · rw [h.findIdx] at hnone
    rw [hnone]
    exact ⟨-1, p, hrem, h⟩
  · rw [h.findIdx] at hsome
    rw [hsome]
    refine ⟨i, p', hrem, hwf, hnext ▸ h.next, ?_, fun s hs hnew => ?_⟩
    · rw [hact, h.active, List.eraseIdx_map, List.filter_map]
      rfl
    · exact h.quiet s (List.mem_of_mem_eraseIdx (List.mem_of_mem_filter hs)) hnew

theorem add (h : Tracks p l) (key : PollKey) (events : Int) :
    ∃ p', luazmqPlrAdd p key events = .ok (p.count, p') ∧ p.count < p'.count ∧
      Tracks p' (l ++ [⟨newItem key (Int16.ofInt events), true⟩]) := by
  obtain ⟨p', hp', hwf, hnext, hact⟩ := luazmqPlrAdd_spec h.wf key events
  refine ⟨p', hp', ?_, h.append rfl hwf hnext hact⟩
  rw [← hwf.active_length, hact, List.length_append, h.wf.active_length]
  exact Nat.lt_succ_self _

theorem modify (h : Tracks p l) (skt : Nat) {events : Int} (hev : Int16.ofInt events ≠ 0) :
    ∃ i p', luazmqPlrModify p (.socket skt) events = .ok ((i : Nat), p') ∧ i < p'.count ∧
      Tracks p' (slotsAfter l (.modify skt events)) := by
  unfold slotsAfter
  dsimp only
  rw [if_pos hev]
  rcases luazmqPlrModify_socket h.wf skt hev with ⟨hnone, p', hp', hwf, hnext, hact⟩ |
    ⟨i, p', hi, hsome, hp', hwf, hnext, hact⟩
  · rw [h.findIdx] at hnone
    rw [hnone]
    refine ⟨p.count, p', hp', ?_, h.append rfl hwf hnext hact⟩
    rw [← hwf.active_length, hact, List.length_append, h.wf.active_length]
    exact Nat.lt_succ_self _
  · rw [h.findIdx] at hsome
    rw [hsome]
    have hlt : i < l.length := by
      rw [h.active, List.length_map] at hi
      exact hi
    have hitem : p.active[i] = l[i].item := by simp [h.active]
    refine ⟨i, p', hp', ?_, hwf, hnext ▸ h.next, ?_, fun s hs hnew => ?_⟩
    · rw [← hwf.active_length, hact, List.length_set]
      exact hi
    · rw [hact, hitem, h.active]
      dsimp only
      rw [map_modify _ hlt]
    · obtain ⟨s₀, hs₀, rfl | rfl⟩ := mem_modify hs
      · exact h.quiet s hs₀ hnew
      · exact h.quiet s₀ hs₀ hnew

theorem poll (h : Tracks p l) (ret : Option Nat) (revents : Nat → Int16) :
    ∃ idx p', plrOp p (.poll ret revents) = .ok (idx, p') ∧
      Tracks p' (slotsAfter l (.poll ret revents)) := by
  have hfree := h.wf.freeList
  have hle := h.wf.count
  have hlen := h.wf.active_length
  have hpoll : ∃ r next, -1 ≤ next ∧ next < (p.len : Int) ∧ luazmqPlrPoll p (zmqPoll ret revents) =
      .ok (r, { p with items := setRevents p.items p.count revents, next := next }) := by
    rw [luazmqPlrPoll, pollerPoll, if_neg (by omega)]
    simp only [ok_bind, zmqPoll]
    cases ret with
    | none => exact ⟨.fail, -1, Int.le_refl _, by omega, rfl⟩
    | some n =>
      refine ⟨.count n, if 0 < (n : Int) then (p.count : Int) - 1 else -1, ?_, ?_, ?_⟩
      · split <;> omega
      · split <;> omega
      · dsimp only
        rw [if_neg (by omega), if_pos (Int.natCast_nonneg n)]
  obtain ⟨r, next, hge, hlt, heq⟩ := hpoll
  obtain ⟨hwf, hact⟩ := Wf.of_items
    (p := { p with items := setRevents p.items p.count revents, next := next })
    (l := p.active.mapIdx fun i it => { it with revents := revents i }) (k := p.len - p.count)
    h.wf.freeList (setRevents_items h.wf revents) (by rw [List.length_mapIdx]; exact hlen.symm)
    (by rw [List.length_mapIdx]; show p.len = _; omega) hlt
  refine ⟨_, _, by rw [plrOp, heq]; rfl, hwf, hge, ?_, fun s hs hnew => ?_⟩
  · rw [hact, h.active]
    refine List.ext_getElem? fun i => ?_
    simp [slotsAfter, List.getElem?_mapIdx, List.getElem?_map, Option.map_map, Function.comp_def]
  · obtain ⟨i, hi, rfl⟩ := List.mem_mapIdx.mp hs
    cases hnew

theorem nextReventsIdx (h : Tracks p l) :
    ∃ idx p', plrOp p .nextReventsIdx = .ok (idx, p') ∧ Tracks p' l ∧ (idx = -1 ∨
      ∃ (i : Nat) (slot : Slot), idx = i ∧ i < p'.count ∧ l[i]? = some slot ∧ slot.isNew = false) := by
  have hge := h.next
  have hlt := h.wf.next
  have hlen := h.wf.length
  have hset : ∀ next : Int, -1 ≤ next → next < p.len → Tracks { p with next := next } l :=
    fun next hge hlt => ⟨h.wf.setNext hlt, hge, h.active, h.quiet⟩
  rw [plrOp, luazmqPlrNextReventsIdx, pollerNextRevents]
  by_cases hneg : p.next < 0
  · rw [if_pos hneg]
    exact ⟨_, _, rfl, h, .inl (by omega)⟩
  rw [if_neg hneg]
  rcases nextPending_spec p.items (p.next.toNat + 1) (by omega) with
    hnone | ⟨i, it, hi, hit, hpending, heq⟩
  · rw [hnone]
    exact ⟨_, _, rfl, hset (-1) (Int.le_refl _) (by omega), .inl rfl⟩
  · rw [heq]
    refine ⟨_, _, rfl, hset _ (by omega) (by omega), .inr ⟨i, ?_⟩⟩
    -- a cleared slot has no pending events
    have hcount : i < p.count := by
      by_contra hout
      rw [h.wf.items_eq, List.getElem?_append_right (by rw [h.wf.active_length]; omega)] at hit
      rw [List.eq_of_mem_replicate (List.mem_of_getElem? hit)] at hpending
      exact hpending rfl
    rw [h.wf.items_eq, List.getElem?_append_left (by rw [h.wf.active_length]; exact hcount), h.active,
      List.getElem?_map] at hit
    obtain ⟨slot, hslot, rfl⟩ := Option.map_eq_some_iff.mp hit
    refine ⟨slot, rfl, hcount, hslot, ?_⟩
    by_contra hnew
    rw [Bool.not_eq_false] at hnew
    exact hpending (h.quiet slot (List.mem_of_getElem? hslot) hnew)

end Tracks

/-! ## Runs -/

theorem watchedStep_ok {s : Watched} {op : PlrOp} {idx : Int} {p : ZMQPoller}
    (h : plrOp s.poller op = .ok (idx, p)) : watchedStep s op = some ⟨p, slotsAfter s.slots op, idx⟩ := by
  rw [watchedStep, h]

/-- **One call.** -/
theorem plrOp_ok {s : Watched} (h : Tracks s.poller s.slots) (op : PlrOp) :
    ∃ s', watchedStep s op = some s' ∧ PlrOpOk s op s' := by
  cases op with
  | add key events =>
    obtain ⟨p', hp', hlt, htracks⟩ := h.add key events
    exact ⟨_, watchedStep_ok hp', htracks, fun _ => ⟨_, rfl, hlt⟩, nofun⟩
  | modify skt events =>
    by_cases hev : Int16.ofInt events = 0
    · obtain ⟨idx, p', hp', htracks⟩ := h.remove (.socket skt)
      refine ⟨_, watchedStep_ok ((luazmqPlrModify_zero _ hev).trans hp'), ?_, fun hreg => absurd hev hreg, nofun⟩
      unfold slotsAfter
      dsimp only
      rw [if_neg (not_not.mpr hev)]
      exact htracks
    · obtain ⟨i, p', hp', hlt, htracks⟩ := h.modify skt hev
      exact ⟨_, watchedStep_ok hp', htracks, fun _ => ⟨i, rfl, hlt⟩, nofun⟩
  | remove key =>
    obtain ⟨idx, p', hp', htracks⟩ := h.remove key
    exact ⟨_, watchedStep_ok hp', htracks, nofun, nofun⟩
  | poll ret revents =>
    obtain ⟨idx, p', hp', htracks⟩ := h.poll ret revents
    exact ⟨_, watchedStep_ok hp', htracks, nofun, nofun⟩
  | nextReventsIdx =>
    obtain ⟨idx, p', hp', htracks, hreported⟩ := h.nextReventsIdx
    exact ⟨_, watchedStep_ok hp', htracks, nofun, fun _ => hreported⟩

/-- **The representation of the C poller.**  From a new poller of any size, in any sequence of calls: every
    call returns, without leaving the array or failing an assertion; after it the free list is empty, the
    counters are in range and the slots that are not in use are cleared; a registration returns the index
    of an item in use; and `next_revents_idx` returns -1 or the index of an item in use that was there at
    the last poll. -/
theorem plr_representation (n : Nat) (ops : List PlrOp) : Tracks (pollerInit n) [] ∧
    Keeps watchedStep PlrOpOk (watchedInit n) ops := by
  have hstep : ∀ (s : Watched) (op : PlrOp), Tracks s.poller s.slots →
      ∃ s', watchedStep s op = some s' ∧ PlrOpOk s op s' ∧ Tracks s'.poller s'.slots := by
    intro s op h
    obtain ⟨s', hs', hok⟩ := plrOp_ok h op
    exact ⟨s', hs', hok, hok.tracks⟩
  refine ⟨tracks_pollerInit n, ?_⟩
  exact keeps_of_inv watchedStep (fun s => Tracks s.poller s.slots) hstep ops (watchedInit n) (tracks_pollerInit n)

end Lzmq.CPoller
