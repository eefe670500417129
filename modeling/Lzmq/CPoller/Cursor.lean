/-
  The cursor of the C poller: `poller_poll` and `poller_next_revents`.

  `poller_poll` lets `zmq_poll` set the `revents` of the items in use and puts the cursor `poller->next`
  on the last of them; each `poller_next_revents` then goes down to the next item with pending events.
    * `AtCursor p n`            the state between two calls: the cursor is below position `n`;
    * `AtCursor.nextReventsIdx` one call: the index is that of `Drain.lastReady` on the items, or -1;
    * `Wf.plrPoll_ready`        after a poll the cursor is above all pending items.
-/
import Lzmq.CPoller.Binding
import Lzmq.Lib.Drain
import Mathlib.Data.List.Induction

namespace Lzmq.CPoller

open Lzmq.Drain

/-! ## The cursor -/

def Pollitem.pending (it : Pollitem) : Bool := it.revents != 0

/-- Between two rounds: the cursor is below position `n`. -/
structure AtCursor (p : ZMQPoller) (n : Nat) : Prop where
  wf : Wf p
  cursor : p.next = (n : Int) - 1

theorem Wf.setNext {p : ZMQPoller} (h : Wf p) {next : Int} (hnext : next < p.len) :
    Wf { p with next := next } :=
  ⟨h.freeList, h.length, h.count, hnext, h.clear⟩

/-- A slot holds an item in use, or is cleared. -/
theorem Wf.slot {p : ZMQPoller} (h : Wf p) {i : Nat} (hi : i < p.items.length) :
    p.items[i] = p.active[i]?.getD Pollitem.zero := by
  have hitems : p.items[i]? =
      (p.active ++ List.replicate (p.len - p.count) Pollitem.zero)[i]? := by rw [← h.items_eq]
  rw [List.getElem?_eq_getElem hi] at hitems
  rcases Nat.lt_or_ge i p.active.length with hlt | hge
  · rw [List.getElem?_append_left hlt] at hitems
    rw [← hitems, Option.getD_some]
  · rw [List.getElem?_append_right hge] at hitems
    rw [List.getElem?_eq_none hge]
    exact List.eq_of_mem_replicate (List.mem_of_getElem? hitems.symm)

/-- The search for pending events is the search for the last pending item. -/
theorem Wf.nextPending_eq {p : ZMQPoller} (h : Wf p) : ∀ n ≤ p.items.length, nextPending p.items n =
    .ok ((lastReady Pollitem.pending p.active n).map fun r => (r.1, r.2.revents)) := by
  intro n
  induction n with
  | zero => intro _; rfl
  | succ n ih =>
    intro hn
    rw [nextPending, readItem_ok (by omega), h.slot (by omega), lastReady, ok_bind]
    cases p.active[n]? with
    | none =>
      rw [Option.getD_none, if_neg (by decide)]
      exact ih (by omega)
    | some it =>
      rw [Option.getD_some]
      simp only
      by_cases hr : it.revents = 0
      · rw [if_neg (not_not.mpr hr), if_neg (by rw [Pollitem.pending, hr]; decide)]
        exact ih (by omega)
      · rw [if_pos hr, if_pos (show it.pending = true from bne_iff_ne.mpr hr)]
        rfl

/-- One call of `next_revents_idx`: the last pending item below the cursor, or index -1. -/
theorem AtCursor.nextReventsIdx {p : ZMQPoller} {n : Nat} (h : AtCursor p n) :
    (lastReady Pollitem.pending p.active n = none ∧ ∃ q, luazmqPlrNextReventsIdx p = .ok (-1, 0, q)) ∨
    ∃ i it q, lastReady Pollitem.pending p.active n = some (i, it) ∧ i < p.count ∧
      luazmqPlrNextReventsIdx p = .ok ((i : Int), it.revents, q) ∧ AtCursor q i ∧
      q.active = p.active ∧ q.count = p.count := by
  have hcursor := h.cursor
  have hnext := h.wf.next
  rw [luazmqPlrNextReventsIdx, pollerNextRevents]
  cases n with
  | zero =>
    rw [if_pos (by omega)]
    exact Or.inl ⟨rfl, _, by rw [hcursor]; rfl⟩
  | succ n =>
    have hlen := h.wf.length
    rw [if_neg (by omega), show p.next.toNat + 1 = n + 1 from by omega,
      h.wf.nextPending_eq (n + 1) (by omega)]
    cases hlast : lastReady Pollitem.pending p.active (n + 1) with
    | none => exact Or.inl ⟨rfl, _, rfl⟩
    | some r =>
      obtain ⟨i, it⟩ := r
      obtain ⟨hi, hget, -⟩ := lastReady_some hlast
      obtain ⟨hlt, -⟩ := List.getElem?_eq_some_iff.mp hget
      rw [h.wf.active_length] at hlt
      refine Or.inr ⟨i, it, _, rfl, hlt, rfl, ⟨h.wf.setNext ?_, rfl⟩, rfl, rfl⟩
      omega

/-! ## The start of a dispatch -/

/-- `zmq_poll` sets the `revents` of the items in use and leaves the cleared slots alone. -/
theorem setRevents_items {p : ZMQPoller} (h : Wf p) (revents : Nat → Int16) :
    setRevents p.items p.count revents =
      (p.active.mapIdx fun i it => { it with revents := revents i }) ++
        List.replicate (p.len - p.count) Pollitem.zero := by
  have hlen := h.active_length
  rw [setRevents]
  refine List.ext_getElem? fun i => ?_
  rw [List.getElem?_mapIdx, h.items_eq]
  rcases Nat.lt_or_ge i p.count with hlt | hge
  · rw [List.getElem?_append_left (by omega), List.getElem?_append_left (by rw [List.length_mapIdx]; omega),
      List.getElem?_mapIdx]
    congr 1
    funext it
    rw [if_pos hlt]
  · rw [List.getElem?_append_right (by omega),
      List.getElem?_append_right (by rw [List.length_mapIdx]; omega), List.length_mapIdx]
    have hid : (fun it : Pollitem => if i < p.count then { it with revents := revents i } else it) = id := by
      funext it
      rw [if_neg (by omega)]
      rfl
    rw [hid, Option.map_id]
    rfl

/-- Counting the ready positions is counting the ready elements. -/
theorem length_ready_mapIdx {α β : Type} (g : Nat → α → β) (ready : β → Bool) (q : Nat → Bool)
    (h : ∀ i a, ready (g i a) = q i) (l : List α) :
    ((l.mapIdx g).filter ready).length = (List.range l.length).countP q := by
  induction l using List.reverseRecOn with
  | nil => rfl
  | append_singleton l a ih =>
    rw [List.mapIdx_append, List.filter_append, List.length_append, ih, List.length_append,
      List.length_singleton, List.range_succ, List.countP_append, ← List.countP_eq_length_filter]
    simp only [List.mapIdx_cons, List.mapIdx_nil, List.countP_cons, List.countP_nil, h, Nat.zero_add]

/-- The poller with the `revents` of a poll and its cursor below position `n`. -/
def loaded (p : ZMQPoller) (out : ZmqPoll) (n : Nat) : ZMQPoller :=
  { p with items := setRevents p.items p.count out.revents, next := (n : Int) - 1 }

theorem Wf.loaded {p : ZMQPoller} (h : Wf p) (out : ZmqPoll) {n : Nat} (hn : n ≤ p.count) :
    AtCursor (loaded p out n) n ∧
      (CPoller.loaded p out n).active =
        p.active.mapIdx fun i it => { it with revents := out.revents i } := by
  have hlen := h.active_length
  have hle := h.count
  obtain ⟨hwf, hact⟩ := Wf.of_items (p := CPoller.loaded p out n)
    (l := p.active.mapIdx fun i it => { it with revents := out.revents i })
    (k := p.len - p.count) h.freeList (setRevents_items h out.revents)
    (by rw [List.length_mapIdx]; exact hlen.symm)
    (by rw [List.length_mapIdx]; show p.len = _; omega)
    (by show (n : Int) - 1 < (p.len : Int); omega)
  exact ⟨⟨hwf, rfl⟩, hact⟩

/-- A poll that returns the number of ready items puts the cursor above them. -/
theorem Wf.plrPoll_ready {p : ZMQPoller} (h : Wf p) (out : ZmqPoll) {k : Nat} (hret : out.ret = k) :
    ∃ q n, (k = 0 ∨ n = p.count) ∧ luazmqPlrPoll p out = .ok (.count k, q) ∧ AtCursor q n ∧
      q.active = p.active.mapIdx fun i it => { it with revents := out.revents i } := by
  have hfree := h.freeList
  have hpoll : luazmqPlrPoll p out =
      .ok (.count out.ret, CPoller.loaded p out (if 0 < out.ret then p.count else 0)) := by
    rw [luazmqPlrPoll, pollerPoll, if_neg (by omega)]
    simp only [ok_bind]
    rw [if_neg (by omega), if_pos (by omega), CPoller.loaded]
    split <;> rfl
  obtain ⟨hat, hact⟩ := h.loaded out (n := if 0 < out.ret then p.count else 0) (by split <;> omega)
  refine ⟨_, _, ?_, by rw [hpoll, hret], hat, hact⟩
  by_cases hpos : 0 < out.ret
  · exact Or.inr (if_pos hpos)
  · exact Or.inl (by omega)

/-- A failed poll puts the cursor below all items. -/
theorem Wf.plrPoll_fail {p : ZMQPoller} (h : Wf p) (out : ZmqPoll) (hret : out.ret = -1) :
    ∃ q, luazmqPlrPoll p out = .ok (.fail, q) ∧ AtCursor q 0 ∧ q.count = p.count := by
  have hfree := h.freeList
  refine ⟨_, ?_, (h.loaded out (Nat.zero_le _)).1, rfl⟩
  rw [luazmqPlrPoll, pollerPoll, if_neg (by omega)]
  simp only [ok_bind]
  rw [if_pos hret, if_neg (by omega)]
  rfl

end Lzmq.CPoller
