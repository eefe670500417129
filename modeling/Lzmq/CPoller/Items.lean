/-
  The item array of the C poller (`poller.c`).

  A `ZMQ_Poller` owns a growable array of `zmq_pollitem_t`.  Free slots are encoded IN-BAND: a slot is
  free when its `events` field holds `FREE_ITEM_EVENTS_TAG` (`(short)0xFFFF`), and its `socket`
  pointer then links to the next free slot.  Every removal is followed by a compaction, so between
  calls the free list is empty; `Wf` states this and what else holds between calls.

  Memory is explicit: the array is a list of `len` slots, every read and write is bounds checked
  (`readItem`, `writeItem`), and a function returns `Except Fault`, so that "the code does not leave
  the array" is a theorem and not a modelling convention.  Assumed: `realloc` and `calloc` succeed.

  Each loop of the source is a recursion on the number of iterations left, followed by one lemma
  saying what the loop computes; `pollerRemoveItem_spec` and `pollerGetFreeItem_spec` are what the
  callers use, stated over `active`, the first `count` slots.
-/
import Mathlib.Data.List.Basic

namespace Lzmq.CPoller

/-! ## Items -/

/-- What the `void *socket` field can hold: NULL, the handle of a zmq socket, or the address of
    another slot (the free list's link). -/
inductive SocketPtr
  | null
  | handle (skt : Nat)
  | slot (idx : Nat)
deriving DecidableEq, Repr

/-- `zmq_pollitem_t`; `short` is `Int16`. -/
structure Pollitem where
  socket : SocketPtr
  fd : Int
  events : Int16
  revents : Int16
deriving DecidableEq, Repr

/-- A slot cleared by `memset` or `calloc`. -/
def Pollitem.zero : Pollitem := ⟨.null, 0, 0, 0⟩

/-- `#define FREE_ITEM_EVENTS_TAG ((short)0xFFFF)` -/
def freeItemEventsTag : Int16 := Int16.ofInt 0xFFFF

/-- The compaction's test for a slot that is in use. -/
def Pollitem.live (it : Pollitem) : Bool := it.events != freeItemEventsTag

/-- What a C function may do instead of returning. -/
inductive Fault
  | outOfBounds
  | nullDeref
  | wildPointer
  | assertion
deriving DecidableEq, Repr

/-- `items[i]` -/
def readItem (items : List Pollitem) (i : Nat) : Except Fault Pollitem :=
  match items[i]? with
  | some it => .ok it
  | none => .error .outOfBounds

/-- `items[i] = it` -/
def writeItem (items : List Pollitem) (i : Nat) (it : Pollitem) : Except Fault (List Pollitem) :=
  if i < items.length then .ok (items.set i it) else .error .outOfBounds

@[simp] theorem ok_bind {α β : Type} (a : α) (f : α → Except Fault β) :
    (Except.ok a >>= f) = f a := rfl

theorem readItem_ok {items : List Pollitem} {i : Nat} (h : i < items.length) :
    readItem items i = .ok items[i] := by
  rw [readItem, List.getElem?_eq_getElem h]

theorem writeItem_ok {items : List Pollitem} {i : Nat} (it : Pollitem) (h : i < items.length) :
    writeItem items i it = .ok (items.set i it) := by
  rw [writeItem, if_pos h]

/-- `struct ZMQ_Poller`.  `items` is the allocated array. -/
structure ZMQPoller where
  items : List Pollitem
  next : Int
  count : Nat
  freeList : Int
  len : Nat
deriving DecidableEq, Repr

/-- The slots in use: `items[0 .. count-1]`. -/
def ZMQPoller.active (p : ZMQPoller) : List Pollitem := p.items.take p.count

/-! ## Creation and growth -/

def pollerInit (length : Nat) : ZMQPoller where
  items := List.replicate length Pollitem.zero
  next := -1
  count := 0
  len := length
  freeList := -1

/-- `poller_resize_items`: grow to `len` slots, the new ones cleared; never shrink. -/
def pollerResizeItems (p : ZMQPoller) (len : Nat) : ZMQPoller :=
  let len := if p.len ≤ len then len else p.len
  if p.len = len then p
  else { p with items := p.items ++ List.replicate (len - p.len) Pollitem.zero, len := len }

/-! ## Lookup -/

/-- The loop shared by the two finders, at index `n` with `k` slots left to look at. -/
def findItem (items : List Pollitem) (test : Pollitem → Bool) : Nat → Nat → Except Fault Int
  | _, 0 => .ok (-1)
  | n, k + 1 => do
    let it ← readItem items n
    if test it then .ok n else findItem items test (n + 1) k

def pollerFindSockItem (p : ZMQPoller) (sock : Nat) : Except Fault Int :=
  findItem p.items (fun it => it.socket == .handle sock) 0 p.count

def pollerFindFdItem (p : ZMQPoller) (fd : Int) : Except Fault Int :=
  findItem p.items (fun it => it.fd == fd) 0 p.count

/-! ## Compaction and removal -/

/-- "find first free slot" -/
def firstFree (items : List Pollitem) : Nat → Nat → Except Fault Nat
  | next, 0 => .ok next
  | next, k + 1 => do
    let it ← readItem items next
    if it.live then firstFree items (next + 1) k else .ok next

/-- "move non-free slots into free slot": `count` slots are kept so far, `next` is the slot under
    inspection and `k` slots are left. -/
def moveLive (items : List Pollitem) (count next : Nat) :
    Nat → Except Fault (List Pollitem × Nat)
  | 0 => .ok (items, count)
  | k + 1 => do
    let it ← readItem items next
    if it.live then
      let items ← writeItem items count it
      moveLive items (count + 1) (next + 1) k
    else moveLive items count (next + 1) k

/-- `memset(&(items[count]), 0, k * sizeof(zmq_pollitem_t))` -/
def clearItems (items : List Pollitem) (count : Nat) : Nat → Except Fault (List Pollitem)
  | 0 => .ok items
  | k + 1 => do
    let items ← writeItem items count Pollitem.zero
    clearItems items (count + 1) k

def pollerCompactItems (p : ZMQPoller) : Except Fault ZMQPoller :=
  if p.freeList < 0 then .ok p
  else do
    let next ← firstFree p.items 0 p.count
    let (items, count) ← moveLive p.items next (next + 1) (p.count - (next + 1))
    let items ← clearItems items count (p.count - count)
    if count ≤ p.len then .ok { p with items := items, count := count, freeList := -1 }
    else .error .assertion

def pollerRemoveItem (p : ZMQPoller) (idx : Nat) : Except Fault ZMQPoller :=
  if p.count ≤ idx ∨ p.count = 0 then .ok p
  else do
    let link := if 0 ≤ p.freeList ∧ p.freeList < p.count then .slot p.freeList.toNat else .null
    let it ← readItem p.items idx
    let items ← writeItem p.items idx
      { it with socket := link, events := freeItemEventsTag, revents := 0 }
    pollerCompactItems { p with items := items, freeList := idx }

/-! ## Allocation -/

def pollerGetFreeItem (p : ZMQPoller) : Except Fault (Nat × ZMQPoller) :=
  if 0 ≤ p.freeList ∧ p.freeList < p.count then do
    let idx := p.freeList.toNat
    let curr ← readItem p.items idx
    if curr.live then .error .assertion
    else
      let items ← writeItem p.items idx Pollitem.zero
      match curr.socket with
      | .null => .ok (idx, { p with items := items, freeList := -1 })
      | .slot next => .ok (idx, { p with items := items, freeList := next })
      -- ITEM_TO_INDEX on a pointer that is not into the array
      | .handle _ => .error .wildPointer
  else
    let count := p.count + 1
    let q := { p with count := count }
    .ok (p.count, if q.len ≤ count then pollerResizeItems q (q.len + 10) else q)

/-! ## Polling -/

/-- One outcome of `zmq_poll`: its return value and the `revents` it leaves in each slot. -/
structure ZmqPoll where
  ret : Int
  revents : Nat → Int16

/-- `zmq_poll` writes `revents` into the `count` slots it was given. -/
def setRevents (items : List Pollitem) (count : Nat) (revents : Nat → Int16) : List Pollitem :=
  items.mapIdx fun i it => if i < count then { it with revents := revents i } else it

def pollerPoll (p : ZMQPoller) (out : ZmqPoll) : Except Fault (Int × ZMQPoller) := do
  let p ← if 0 ≤ p.freeList then pollerCompactItems p else .ok p
  .ok (out.ret, { p with items := setRevents p.items p.count out.revents })

/-- "find next item with pending events", from slot `n - 1` downwards. -/
def nextPending (items : List Pollitem) : Nat → Except Fault (Option (Nat × Int16))
  | 0 => .ok none
  | n + 1 => do
    let it ← readItem items n
    if it.revents ≠ 0 then .ok (some (n, it.revents)) else nextPending items n

/-- Returns the index, the value left in `*revents` (the caller's 0 when there is no event) and the
    poller. -/
def pollerNextRevents (p : ZMQPoller) : Except Fault (Int × Int16 × ZMQPoller) :=
  if p.next < 0 then .ok (p.next, 0, p)
  else do
    match ← nextPending p.items (p.next.toNat + 1) with
    | some (idx, revents) => .ok (idx, revents, { p with next := (idx : Int) - 1 })
    | none => .ok (-1, 0, { p with next := -1 })

/-! ## What the loops compute -/

/-- An index found by a search, as the C code returns it. -/
def ofIdx? : Option Nat → Int
  | some n => n
  | none => -1

@[simp] theorem ofIdx?_none : ofIdx? none = -1 := rfl
@[simp] theorem ofIdx?_some (i : Nat) : ofIdx? (some i) = i := rfl

/-- The finder loop is `findIdx?` on the slots it is given. -/
theorem findItem_eq (items : List Pollitem) (test : Pollitem → Bool) :
    ∀ (k n : Nat), n + k ≤ items.length →
      findItem items test n k = .ok (ofIdx? ((((items.drop n).take k).findIdx? test).map (n + ·))) := by
  intro k
  induction k with
  | zero => intro n _; rfl
  | succ k ih =>
    intro n hn
    have hlt : n < items.length := by omega
    rw [findItem, readItem_ok hlt, List.drop_eq_getElem_cons hlt, List.take_succ_cons,
      List.findIdx?_cons]
    show (if test items[n] = true then _ else _) = _
    by_cases ht : test items[n] = true
    · rw [if_pos ht, if_pos ht]; rfl
    · rw [if_neg ht, if_neg ht, ih (n + 1) (by omega), Option.map_map]
      congr 3
      funext i
      exact Nat.add_right_comm n 1 i

/-- The first loop of the compaction stops at a slot before which every slot is live. -/
theorem firstFree_spec (items : List Pollitem) :
    ∀ (k n : Nat), n + k ≤ items.length → (∀ it ∈ items.take n, it.live = true) →
      ∃ m, firstFree items n k = .ok m ∧ m ≤ n + k ∧ (∀ it ∈ items.take m, it.live = true) ∧
        (∀ h : m < items.length, m < n + k → items[m].live = false) := by
  intro k
  induction k with
  | zero => intro n _ hl; exact ⟨n, rfl, by omega, hl, fun _ h => absurd h (by omega)⟩
  | succ k ih =>
    intro n hn hl
    have hlt : n < items.length := by omega
    rw [firstFree, readItem_ok hlt]
    show ∃ m, (if items[n].live = true then _ else _) = _ ∧ _
    by_cases ht : items[n].live = true
    · have hl' : ∀ it ∈ items.take (n + 1), it.live = true := by
        intro it hit
        rw [List.take_add_one, List.getElem?_eq_getElem hlt, List.mem_append] at hit
        rcases hit with hit | hit
        · exact hl it hit
        · rw [Option.toList_some, List.mem_singleton] at hit; exact hit ▸ ht
      obtain ⟨m, hm, hle, hlm, hfree⟩ := ih (n + 1) (by omega) hl'
      rw [if_pos ht]
      exact ⟨m, hm, by omega, hlm, fun h h' => hfree h (by omega)⟩
    · rw [if_neg ht]
      exact ⟨n, rfl, by omega, hl, fun _ _ => by simpa using ht⟩

/-- The second loop of the compaction.  Its invariant: the first `count` slots are the live ones
    among the `next` slots inspected so far, and the slots from `next` on are still untouched. -/
theorem moveLive_spec (orig : List Pollitem) :
    ∀ (k : Nat) (items : List Pollitem) (count next : Nat), next + k ≤ orig.length → count < next →
      items.length = orig.length → items.take count = (orig.take next).filter Pollitem.live →
      items.drop next = orig.drop next →
      ∃ items' count', moveLive items count next k = .ok (items', count') ∧ count' < next + k ∧
        items'.length = orig.length ∧
        items'.take count' = (orig.take (next + k)).filter Pollitem.live ∧
        items'.drop (next + k) = orig.drop (next + k) := by
  intro k
  induction k with
  | zero => intro items count next _ hc hlen ht hd; exact ⟨items, count, rfl, hc, hlen, ht, hd⟩
  | succ k ih =>
    intro items count next hn hc hlen ht hd
    have hlt : next < items.length := by omega
    have hlo : next < orig.length := by omega
    have hget : items[next] = orig[next] := by
      rw [List.drop_eq_getElem_cons hlt, List.drop_eq_getElem_cons hlo] at hd
      exact (List.cons.inj hd).1
    have hdrop : items.drop (next + 1) = orig.drop (next + 1) := by
      rw [← List.drop_drop, hd, List.drop_drop]
    have htake : orig.take (next + 1) = orig.take next ++ [orig[next]] := by
      rw [List.take_add_one, List.getElem?_eq_getElem hlo]; rfl
    rw [moveLive, readItem_ok hlt, hget]
    show ∃ items' count', (if orig[next].live = true then _ else _) = _ ∧ _
    rw [show next + (k + 1) = next + 1 + k from by omega]
    by_cases hlive : orig[next].live = true
    · have hcl : count < items.length := by omega
      rw [if_pos hlive, writeItem_ok _ hcl]
      refine ih (items.set count orig[next]) (count + 1) (next + 1) (by omega) (by omega)
        (by rw [List.length_set]; exact hlen) ?_ ?_
      · rw [List.take_add_one, List.take_set_of_le (Nat.le_refl count), ht, htake,
          List.filter_append, List.getElem?_set_self hcl]
        simp [hlive]
      · rw [List.drop_set_of_lt (show count < next + 1 by omega), hdrop]
    · rw [if_neg hlive]
      refine ih items count (next + 1) (by omega) (by omega) hlen ?_ hdrop
      rw [ht, htake, List.filter_append]
      simp [hlive]

theorem clearItems_eq :
    ∀ (k : Nat) (items : List Pollitem) (count : Nat), count + k ≤ items.length →
      clearItems items count k =
        .ok (items.take count ++ List.replicate k Pollitem.zero ++ items.drop (count + k)) := by
  intro k
  induction k with
  | zero => intro items count _; simp [clearItems]
  | succ k ih =>
    intro items count h
    have hlt : count < items.length := by omega
    rw [clearItems, writeItem_ok _ hlt]
    show clearItems (items.set count Pollitem.zero) (count + 1) k = _
    rw [ih (items.set count Pollitem.zero) (count + 1) (by rw [List.length_set]; omega),
      List.take_add_one,
      List.take_set_of_le (Nat.le_refl count), List.getElem?_set_self hlt,
      List.drop_set_of_lt (by omega), List.replicate_succ,
      show count + 1 + k = count + (k + 1) from by omega]
    simp

/-- **Compaction** keeps the live slots in their order and clears the rest of the used space. -/
theorem pollerCompactItems_spec {p : ZMQPoller} (hlen : p.items.length = p.len)
    (hc : p.count ≤ p.len) (hfree : 0 ≤ p.freeList) :
    pollerCompactItems p = .ok
      { p with
        items := p.active.filter Pollitem.live ++
          List.replicate (p.count - (p.active.filter Pollitem.live).length) Pollitem.zero ++
          p.items.drop p.count
        count := (p.active.filter Pollitem.live).length
        freeList := -1 } := by
  obtain ⟨m, hm, hmle, hlive, hfst⟩ := firstFree_spec p.items p.count 0 (by omega) (by simp)
  have hkeep : (p.items.take m).filter Pollitem.live = p.items.take m := List.filter_eq_self.mpr hlive
  -- both loops together: the live slots in front, the slots above `p.count` untouched
  obtain ⟨items, count, hmove, hcount, hlen', htake, hdrop⟩ : ∃ items count,
      moveLive p.items m (m + 1) (p.count - (m + 1)) = .ok (items, count) ∧ count ≤ p.count ∧
        items.length = p.items.length ∧ items.take count = p.active.filter Pollitem.live ∧
        items.drop p.count = p.items.drop p.count := by
    rcases Nat.lt_or_ge m p.count with hlt | hge
    · have hm1 : m < p.items.length := by omega
      have htk : p.items.take m = (p.items.take (m + 1)).filter Pollitem.live := by
        rw [List.take_add_one, List.filter_append, hkeep, List.getElem?_eq_getElem hm1]
        simp [hfst hm1 (by omega)]
      obtain ⟨items, count, h1, h2, h3, h4, h5⟩ := moveLive_spec p.items (p.count - (m + 1)) p.items m
        (m + 1) (by omega) (by omega) rfl htk rfl
      rw [show m + 1 + (p.count - (m + 1)) = p.count from by omega] at h2 h4 h5
      exact ⟨items, count, h1, by omega, h3, h4, h5⟩
    · have hmc : m = p.count := by omega
      rw [show p.count - (m + 1) = 0 from by omega]
      exact ⟨p.items, m, rfl, by omega, rfl, by rw [ZMQPoller.active, ← hmc, hkeep], rfl⟩
  have hcl : (p.active.filter Pollitem.live).length = count := by
    rw [← htake, List.length_take]; omega
  rw [pollerCompactItems, if_neg (by omega), hm]
  show (do
    let r ← moveLive p.items m (m + 1) (p.count - (m + 1))
    let items ← clearItems r.1 r.2 (p.count - r.2)
    if r.2 ≤ p.len then Except.ok { p with items := items, count := r.2, freeList := -1 }
    else .error .assertion) = _
  rw [hmove]
  show (do
    let items ← clearItems items count (p.count - count)
    if count ≤ p.len then Except.ok { p with items := items, count := count, freeList := -1 }
    else .error .assertion) = _
  rw [clearItems_eq _ _ _ (by omega), hcl, htake, show count + (p.count - count) = p.count from by omega,
    hdrop]
  show (if count ≤ p.len then _ else _) = _
  rw [if_pos (by omega)]

end Lzmq.CPoller
