/-
  A callback that polls again: nested dispatches of one C poller.

  `poller_mt:poll` keeps the number of rounds it still owes in a Lua local, while the cursor and the
  `revents` fields live in the shared C poller, where a nested poll overwrites them.  A nested dispatch
  leaves the cursor below every pending item, so a dispatch that still owes rounds when its callback comes
  back gets index -1 from `next_revents_idx`.

  A run is a tree: a poll with what `zmq_poll` reported, and for each callback it dispatches the polls
  made from inside that callback.  How they are made (`poller:poll`, `loop:poll`, `loop:sleep_ex`,
  `loop:flush`, from the callback or from a time event that the nested loop fires) makes no difference
  to the poller: each is a `poller:poll`.  Nothing is assumed of the callbacks table.  `Poll.Tail` says
  that at every level each ready item has a callback stored under its index and only the last callback
  polls; `exec_ok_iff` shows that this is exactly when every dispatch of the tree finishes normally.
-/
import Lzmq.CPoller.Served
import Lzmq.Lib.Lua

namespace Lzmq.CPoller

open Lzmq.Drain

/-! ## Trees of polls -/

/-- An outcome of `zmq_poll`: it fails, or it reports pending events. -/
inductive PollResult
  | fail (revents : Nat → Int16)
  | ready (revents : Nat → Int16)

/-- `zmq_poll` on `count` items returns -1, or the number of items with nonzero `revents`. -/
def PollResult.zmqPoll (count : Nat) : PollResult → ZmqPoll
  | .fail revents => ⟨-1, revents⟩
  | .ready revents => ⟨(List.range count).countP fun i => revents i != 0, revents⟩

/-- A poll, and for each callback it dispatches the polls that callback makes.  A callback that is not
    listed makes none. -/
inductive Poll
  | mk (out : PollResult) (callbacks : List (List Poll))

/-- A round of a dispatch: the index taken, the poller's `count` and the callback found there. -/
structure Round (C : Type) where
  id : Int
  count : Nat
  entry : Option (Closure C)
deriving DecidableEq

/-- The poller and the rounds so far. -/
structure Session (C : Type) where
  self : PollerMt C
  log : List (Round C)

variable {C : Type}

def Session.setPoller (s : Session C) (poller : ZMQPoller) : Session C :=
  { s with self := { s.self with poller := poller } }

/-- `self.poller:poll(timeout)` -/
def plrPoll (out : PollResult) : Lua (Session C) PlrPoll := fun s =>
  match luazmqPlrPoll s.self.poller (out.zmqPoll s.self.poller.count) with
  | .error _ => .abort
  | .ok (count, poller) => .ret count (s.setPoller poller)

/-- `poller:next_revents_idx()` -/
def plrNextReventsIdx : Lua (Session C) Int := fun s =>
  match luazmqPlrNextReventsIdx s.self.poller with
  | .error _ => .abort
  | .ok (id, _, poller) => .ret id (s.setPoller poller)

/-- `local id, revents = poller:next_revents_idx(); callbacks[id](revents)`, up to the callback's body. -/
def takeNext : Lua (Session C) Unit := do
  let id ← plrNextReventsIdx
  let entry ← Lua.read fun s => s.self.callbacks.get id
  Lua.modify fun s => { s with log := s.log ++ [⟨id, s.self.poller.count, entry⟩] }
  if entry.isSome then pure () else Lua.raise

/-- The rounds of a dispatch whose callbacks make no polls. -/
def dispatchIdle : Nat → Lua (Session C) Unit
  | 0 => pure ()
  | k + 1 => do
    takeNext
    dispatchIdle k

mutual

/-- `poller_mt:poll` -/
def Poll.exec : Poll → Lua (Session C) Unit
  | .mk out callbacks => do
    let n ← plrPoll out
    match n with
    | .fail => pure ()
    | .count n => dispatch callbacks n.toNat

/-- The polls of one callback; an error ends it. -/
def callback : List Poll → Lua (Session C) Unit
  | [] => pure ()
  | t :: ts => do
    t.exec
    callback ts

/-- The rounds of a dispatch, `k` of them. -/
def dispatch : List (List Poll) → Nat → Lua (Session C) Unit
  | [], k => dispatchIdle k
  | _ :: _, 0 => pure ()
  | b :: bs, k + 1 => do
    takeNext
    callback b
    dispatch bs k

end

/-! ## The condition -/

/-- The number of ready items. -/
def readyItems (count : Nat) (revents : Nat → Int16) : Nat := (List.range count).countP fun i => revents i != 0

mutual

/-- At every level each ready item has a callback stored under its index, and only the last callback
    dispatched makes polls; a failed poll dispatches none. -/
def Poll.Tail (count : Nat) (table : LuaTable (Closure C)) : Poll → Prop
  | .mk (.fail _) _ => True
  | .mk (.ready revents) callbacks =>
    (∀ i < count, revents i ≠ 0 → table.get i ≠ none) ∧
      TailCallbacks count table callbacks (readyItems count revents)

def TailCallback (count : Nat) (table : LuaTable (Closure C)) : List Poll → Prop
  | [] => True
  | t :: ts => t.Tail count table ∧ TailCallback count table ts

/-- `k` callbacks are still to be dispatched. -/
def TailCallbacks (count : Nat) (table : LuaTable (Closure C)) : List (List Poll) → Nat → Prop
  | [], _ => True
  | _ :: _, 0 => True
  | b :: bs, k + 1 => TailCallback count table b ∧ (k = 0 ∨ b = []) ∧ TailCallbacks count table bs k

end

/-- Every round so far took an index in range with a callback. -/
def RoundsOk (log : List (Round C)) : Prop :=
  ∀ d ∈ log, 0 ≤ d.id ∧ d.id < d.count ∧ d.entry ≠ none

/-- Every dispatch of the run finished normally: no error, every index in range and no nil callback. -/
def NestedOk (r : Ending (Session C) Unit) : Prop := ∃ s, r = .ret () s ∧ RoundsOk s.log

/-! ## Rounds are not forgotten -/

/-- Code after which all rounds are fine only if those before it were. -/
def Keeps (x : Lua (Session C) Unit) : Prop := ∀ s, NestedOk (x s) → RoundsOk s.log

/-- A run that went well did so up to any point. -/
theorem NestedOk.of_andThen {r : Ending (Session C) Unit} {f : Unit → Lua (Session C) Unit}
    (h : NestedOk (Lua.andThen r f)) : ∃ s, r = .ret () s ∧ NestedOk (f () s) := by
  cases r with
  | ret a s => exact ⟨s, rfl, h⟩
  | raise s =>
    obtain ⟨t, ht, -⟩ := h
    cases ht
  | abort =>
    obtain ⟨t, ht, -⟩ := h
    cases ht

theorem keeps_pure : Keeps (pure () : Lua (Session C) Unit) := by
  rintro s ⟨t, ht, hok⟩
  rw [Lua.run_pure] at ht
  cases ht
  exact hok

theorem Keeps.bind {x y : Lua (Session C) Unit} (hx : Keeps x) (hy : Keeps y) : Keeps (do x; y) := by
  intro s h
  rw [Lua.run_bind] at h
  obtain ⟨t, ht, hok⟩ := h.of_andThen
  exact hx s ⟨t, ht, hy t hok⟩

/-- The session after a round that took the index `id`. -/
def Session.took (s : Session C) (id : Int) (poller : ZMQPoller) : Session C :=
  { s.setPoller poller with log := s.log ++ [⟨id, poller.count, s.self.callbacks.get id⟩] }

theorem run_takeNext {s : Session C} {id : Int} {revents : Int16} {poller : ZMQPoller}
    (hnext : luazmqPlrNextReventsIdx s.self.poller = .ok (id, revents, poller)) :
    takeNext s = if (s.self.callbacks.get id).isSome then .ret () (s.took id poller)
      else .raise (s.took id poller) := by
  rw [takeNext, Lua.run_bind, plrNextReventsIdx, hnext]
  cases hentry : s.self.callbacks.get id with
  | none =>
    simp only [Lua.andThen_ret, Lua.run_bind, Lua.run_read, Lua.run_modify, Session.took, hentry,
      show (s.setPoller poller).self.callbacks = s.self.callbacks from rfl]
    rfl
  | some c =>
    simp only [Lua.andThen_ret, Lua.run_bind, Lua.run_read, Lua.run_modify, Session.took, hentry,
      show (s.setPoller poller).self.callbacks = s.self.callbacks from rfl]
    rfl

theorem keeps_takeNext : Keeps (takeNext : Lua (Session C) Unit) := by
  rintro s ⟨t, ht, hok⟩
  cases hnext : luazmqPlrNextReventsIdx s.self.poller with
  | error f =>
    rw [takeNext, Lua.run_bind, plrNextReventsIdx, hnext] at ht
    cases ht
  | ok r =>
    obtain ⟨id, revents, poller⟩ := r
    rw [run_takeNext hnext] at ht
    split at ht
    · cases ht
      exact fun d hd => hok d (List.mem_append_left _ hd)
    · cases ht

theorem keeps_dispatchIdle : ∀ k, Keeps (dispatchIdle k : Lua (Session C) Unit)
  | 0 => keeps_pure
  | k + 1 => keeps_takeNext.bind (keeps_dispatchIdle k)

mutual

theorem keeps_exec : ∀ t : Poll, Keeps (t.exec : Lua (Session C) Unit)
  | .mk out callbacks => by
    intro s h
    rw [Poll.exec, Lua.run_bind, plrPoll] at h
    cases hpoll : luazmqPlrPoll s.self.poller (out.zmqPoll s.self.poller.count) with
    | error f =>
      rw [hpoll] at h
      obtain ⟨t, ht, -⟩ := h
      cases ht
    | ok r =>
      obtain ⟨n, poller⟩ := r
      rw [hpoll] at h
      cases n with
      | fail => exact keeps_pure (s.setPoller poller) h
      | count n => exact keeps_dispatch callbacks n.toNat (s.setPoller poller) h

theorem keeps_callback : ∀ ts : List Poll, Keeps (callback ts : Lua (Session C) Unit)
  | [] => by
    rw [callback]
    exact keeps_pure
  | t :: ts => by
    rw [callback]
    exact (keeps_exec t).bind (keeps_callback ts)

theorem keeps_dispatch : ∀ (bs : List (List Poll)) (k : Nat), Keeps (dispatch bs k : Lua (Session C) Unit)
  | [], k => by
    rw [dispatch]
    exact keeps_dispatchIdle k
  | _ :: _, 0 => by
    rw [dispatch]
    exact keeps_pure
  | b :: bs, k + 1 => by
    rw [dispatch]
    exact keeps_takeNext.bind ((keeps_callback b).bind (keeps_dispatch bs k))

end

/-! ## The state between rounds -/

section Pending

variable (count : Nat) (table : LuaTable (Closure C))

/-- In the middle of a dispatch: the cursor is below position `n` and `k` items are pending there. -/
structure Pending (s : Session C) (n k : Nat) : Prop extends AtCursor s.self.poller n where
  count : s.self.poller.count = count
  table : s.self.callbacks = table
  pending : (readyBelow Pollitem.pending s.self.poller.active n).length = k

/-- Each pending item below position `n` has a callback stored under its index. -/
def Stored (items : List Pollitem) (n : Nat) : Prop :=
  ∀ i < n, ∀ it, items[i]? = some it → it.pending = true → table.get i ≠ none

variable {count table}

/-- Above the last pending item there is nothing to store. -/
theorem stored_iff {items : List Pollitem} {n i : Nat} {it : Pollitem}
    (h : lastReady Pollitem.pending items n = some (i, it)) :
    Stored table items n ↔ table.get i ≠ none ∧ Stored table items i := by
  obtain ⟨hlt, hget, hready, -, -⟩ := lastReady_some h
  constructor
  · intro hs
    exact ⟨hs i hlt it hget hready, fun j hj => hs j (Nat.lt_trans hj hlt)⟩
  · rintro ⟨hi, hs⟩ j hj x hx hr
    rcases Nat.lt_trichotomy j i with hji | rfl | hij
    · exact hs j hji x hx hr
    · exact hi
    · rw [lastReady_above h j x hij hj hx] at hr
      cases hr

/-- With pending items a round takes the index of the last of them.  It fails if no callback is stored
    there, and leaves one pending item less if there is one. -/
theorem takeNext_pending {s : Session C} {n k : Nat} (h : Pending count table s n (k + 1)) :
    ∃ i : Nat, (Stored table s.self.poller.active n ↔
        table.get i ≠ none ∧ Stored table s.self.poller.active i) ∧
      (table.get i = none → ∃ t, takeNext s = .raise t) ∧
      (table.get i ≠ none → ∃ t, takeNext s = .ret () t ∧ (RoundsOk s.log → RoundsOk t.log) ∧
        t.self.poller.active = s.self.poller.active ∧ Pending count table t i k) := by
  have hk := h.pending
  rcases h.toAtCursor.nextReventsIdx with ⟨hlast, -⟩ | ⟨i, it, q, hlast, hi, hnext, hat, hact, hcount⟩
  · rw [lastReady_none hlast] at hk
    cases hk
  · obtain ⟨-, hget, -, hbelow, -⟩ := lastReady_some hlast
    rw [run_takeNext hnext, h.table]
    refine ⟨i, stored_iff hlast, fun hnone => ⟨s.took i q, ?_⟩, fun hsome => ⟨s.took i q, ?_, ?_, hact, ?_⟩⟩
    · rw [hnone]
      rfl
    · rw [if_pos (Option.isSome_iff_ne_none.mpr hsome)]
    · intro hlog d hd
      rcases List.mem_append.mp hd with hd | hd
      · exact hlog d hd
      · rw [List.mem_singleton.mp hd, h.table]
        exact ⟨Int.natCast_nonneg i, by show (i : Int) < (q.count : Int); omega, hsome⟩
    · refine ⟨hat, hcount.trans h.count, h.table, ?_⟩
      rw [hbelow, List.length_append, List.length_singleton] at hk
      show (readyBelow Pollitem.pending q.active i).length = k
      rw [hact]
      exact Nat.add_right_cancel hk

/-- With nothing pending a round takes the index -1, whatever is stored there. -/
theorem takeNext_spent {s : Session C} {n : Nat} (h : Pending count table s n 0) :
    ¬ NestedOk (takeNext s) := by
  rintro ⟨t, ht, hok⟩
  rcases h.toAtCursor.nextReventsIdx with ⟨-, q, hnext⟩ | ⟨i, it, q, hlast, -⟩
  · rw [run_takeNext hnext] at ht
    split at ht
    · cases ht
      have hround := hok _ (List.mem_append_right _ (List.mem_singleton.mpr rfl))
      exact absurd (show (0 : Int) ≤ -1 from hround.1) (by decide)
    · cases ht
  · obtain ⟨-, -, -, hbelow, -⟩ := lastReady_some hlast
    have hk := h.pending
    rw [hbelow] at hk
    simp at hk

/-- Nothing pending, nothing to store. -/
theorem Pending.stored {s : Session C} {n : Nat} (h : Pending count table s n 0) :
    Stored table s.self.poller.active n := by
  intro i hi it hget hr
  have hnil := List.length_eq_zero_iff.mp h.pending
  have hmem : it ∈ readyBelow Pollitem.pending s.self.poller.active n := by
    refine mem_readyBelow.mpr ⟨List.mem_of_getElem? (i := i) ?_, hr⟩
    rw [List.getElem?_take_of_lt hi]
    exact hget
  rw [hnil] at hmem
  exact absurd hmem List.not_mem_nil

/-- The items after a poll that reported `revents`. -/
def reported (items : List Pollitem) (revents : Nat → Int16) : List Pollitem :=
  items.mapIdx fun i it => { it with revents := revents i }

/-- Below the cursor there is a callback for each item that was reported ready; if none was, the cursor need not
    stand above the items. -/
theorem stored_reported_iff {items : List Pollitem} (hlen : items.length = count) {revents : Nat → Int16} {n : Nat}
    (hn : readyItems count revents = 0 ∨ n = count) :
    Stored table (reported items revents) n ↔ ∀ i < count, revents i ≠ 0 → table.get i ≠ none := by
  have hget : ∀ i < count, ∃ it, (reported items revents)[i]? = some it ∧ it.revents = revents i := by
    intro i hi
    rw [reported, List.getElem?_mapIdx, List.getElem?_eq_getElem (by omega)]
    exact ⟨_, rfl, rfl⟩
  constructor
  · intro hs i hi hr
    have hn' : n = count := hn.resolve_left fun hzero => by
      rw [readyItems, List.countP_eq_zero] at hzero
      exact hzero i (List.mem_range.mpr hi) (bne_iff_ne.mpr hr)
    obtain ⟨it, hit, hrev⟩ := hget i hi
    exact hs i (by omega) it hit (by rw [Pollitem.pending, hrev]; exact bne_iff_ne.mpr hr)
  · intro hs i _ it hit hr
    have hi : i < count := by
      obtain ⟨hlt, -⟩ := List.getElem?_eq_some_iff.mp hit
      rw [reported, List.length_mapIdx, hlen] at hlt
      exact hlt
    obtain ⟨it', hit', hrev⟩ := hget i hi
    obtain rfl : it = it' := Option.some.inj (hit.symm.trans hit')
    refine hs i hi ?_
    rw [← hrev]
    exact bne_iff_ne.mp hr

/-- A poll starts a dispatch with as many pending items as `zmq_poll` reported. -/
theorem plrPoll_pending {s : Session C} (hwf : Wf s.self.poller) (hcount : s.self.poller.count = count)
    (htable : s.self.callbacks = table) (revents : Nat → Int16) :
    ∃ t n, plrPoll (.ready revents) s = .ret (.count (readyItems count revents : Nat)) t ∧ t.log = s.log ∧
      Pending count table t n (readyItems count revents) ∧
      (Stored table t.self.poller.active n ↔ ∀ i < count, revents i ≠ 0 → table.get i ≠ none) := by
  obtain ⟨q, n, hn, hpoll, hat, hact⟩ := hwf.plrPoll_ready
    ((PollResult.ready revents).zmqPoll s.self.poller.count) (k := readyItems count revents)
    (by rw [hcount]; rfl)
  have hlen : (s.self.poller.active).length = count := hwf.active_length.trans hcount
  have hall : (q.active.filter Pollitem.pending).length = readyItems count revents := by
    rw [hact, length_ready_mapIdx _ Pollitem.pending (fun i => revents i != 0) (fun _ _ => rfl), hlen]
    rfl
  have hqlen : q.active.length = count := by rw [hact, List.length_mapIdx, hlen]
  have hbelow : readyBelow Pollitem.pending q.active n = q.active.filter Pollitem.pending := by
    rcases hn with hzero | rfl
    · rw [hzero] at hall
      rw [List.length_eq_zero_iff.mp hall]
      have hsub : (readyBelow Pollitem.pending q.active n).Sublist (q.active.filter Pollitem.pending) :=
        (List.take_sublist n _).filter _
      rw [List.length_eq_zero_iff.mp hall] at hsub
      exact List.sublist_nil.mp hsub
    · rw [readyBelow, hcount, ← hqlen, List.take_length]
  have hpend : Pending count table (s.setPoller q) n (readyItems count revents) :=
    ⟨hat, hat.wf.active_length.symm.trans hqlen, htable, by rw [← hall, ← hbelow]; rfl⟩
  refine ⟨s.setPoller q, n, by rw [plrPoll, hpoll], rfl, hpend, ?_⟩
  rw [← stored_reported_iff hlen (hcount ▸ hn)]
  exact (congrArg (fun items => Stored table items n) hact).to_iff

/-- A failed poll leaves nothing pending. -/
theorem plrPoll_fail {s : Session C} (hwf : Wf s.self.poller) (hcount : s.self.poller.count = count)
    (htable : s.self.callbacks = table) (revents : Nat → Int16) :
    ∃ t, plrPoll (.fail revents) s = .ret .fail t ∧ t.log = s.log ∧ Pending count table t 0 0 := by
  obtain ⟨q, hpoll, hat, hq⟩ := hwf.plrPoll_fail ((PollResult.fail revents).zmqPoll s.self.poller.count) rfl
  exact ⟨s.setPoller q, by rw [plrPoll, hpoll], rfl, hat, hq.trans hcount, htable, rfl⟩

end Pending

/-! ## The tree -/

/-- What is proved of a run: it goes well exactly when `P` holds, and then nothing is pending. -/
structure Finishes (count : Nat) (table : LuaTable (Closure C)) (P : Prop)
    (r : Ending (Session C) Unit) : Prop where
  well : P → ∃ s n, r = .ret () s ∧ RoundsOk s.log ∧ Pending count table s n 0
  only : NestedOk r → P

section Tree

variable {count : Nat} {table : LuaTable (Closure C)}

theorem Finishes.congr {P Q : Prop} {r : Ending (Session C) Unit} (h : Finishes count table P r)
    (hPQ : P ↔ Q) : Finishes count table Q r := ⟨fun hQ => h.well (hPQ.mpr hQ), fun hr => hPQ.mp (h.only hr)⟩

/-- A run that went well goes on from a state with nothing pending. -/
theorem Finishes.andThen {P Q : Prop} {r : Ending (Session C) Unit} {x : Lua (Session C) Unit}
    (hx : Keeps x) (h : Finishes count table P r)
    (hf : ∀ s n, RoundsOk s.log → Pending count table s n 0 → Finishes count table Q (x s)) :
    Finishes count table (P ∧ Q) (Lua.andThen r fun _ => x) := by
  constructor
  · rintro ⟨hP, hQ⟩
    obtain ⟨s, n, rfl, hlog, hpend⟩ := h.well hP
    exact (hf s n hlog hpend).well hQ
  · intro hok
    obtain ⟨s, hr, hs⟩ := hok.of_andThen
    have hP := h.only ⟨s, hr, hx s hs⟩
    obtain ⟨s', n, hr', hlog, hpend⟩ := h.well hP
    rw [hr] at hr'
    cases hr'
    exact ⟨hP, (hf s n hlog hpend).only hs⟩

/-- A round, and what follows it. -/
theorem Finishes.round {Q : Prop} {s : Session C} {n k : Nat} (h : Pending count table s n (k + 1))
    (hlog : RoundsOk s.log) {x : Lua (Session C) Unit}
    (hf : ∀ t i, RoundsOk t.log → Pending count table t i k →
      Finishes count table (Stored table t.self.poller.active i ∧ Q) (x t)) :
    Finishes count table (Stored table s.self.poller.active n ∧ Q)
      (Lua.andThen (takeNext s) fun _ => x) := by
  obtain ⟨i, hstored, hnone, hsome⟩ := takeNext_pending h
  by_cases hi : table.get i = none
  · obtain ⟨t, ht⟩ := hnone hi
    rw [ht, Lua.andThen_raise]
    exact ⟨fun hP => absurd hi (hstored.mp hP.1).1, fun ⟨_, hno, _⟩ => by cases hno⟩
  · obtain ⟨t, ht, hok, hact, hpend⟩ := hsome hi
    rw [ht, Lua.andThen_ret]
    refine (hf t i (hok hlog) hpend).congr ?_
    rw [hact, hstored]
    exact and_congr_left fun _ => (and_iff_right hi).symm

theorem dispatchIdle_finishes : ∀ (k : Nat) (s : Session C) (n : Nat), Pending count table s n k →
    RoundsOk s.log → Finishes count table (Stored table s.self.poller.active n ∧ True) (dispatchIdle k s)
  | 0, s, n, h, hlog => ⟨fun _ => ⟨s, n, rfl, hlog, h⟩, fun _ => ⟨h.stored, trivial⟩⟩
  | k + 1, s, n, h, hlog => by
    rw [dispatchIdle, Lua.run_bind]
    exact Finishes.round h hlog fun t i ht hpend => dispatchIdle_finishes k t i hpend ht

/-- With rounds owed and nothing pending, a dispatch does not go well. -/
theorem dispatch_spent {s : Session C} {n : Nat} (h : Pending count table s n 0) (bs : List (List Poll))
    (k : Nat) : ¬ NestedOk (dispatch bs (k + 1) s) := by
  intro hok
  cases bs with
  | nil =>
    rw [dispatch, dispatchIdle, Lua.run_bind] at hok
    obtain ⟨t, ht, hrest⟩ := hok.of_andThen
    exact takeNext_spent h ⟨t, ht, keeps_dispatchIdle k t hrest⟩
  | cons b bs =>
    rw [dispatch, Lua.run_bind] at hok
    obtain ⟨t, ht, hrest⟩ := hok.of_andThen
    exact takeNext_spent h ⟨t, ht, ((keeps_callback b).bind (keeps_dispatch bs k)) t hrest⟩

mutual

theorem exec_finishes : ∀ (t : Poll) (s : Session C), Wf s.self.poller → s.self.poller.count = count →
    s.self.callbacks = table → RoundsOk s.log → Finishes count table (t.Tail count table) (t.exec s)
  | .mk (.fail revents) bodies, s, hwf, hcount, htable, hlog => by
    obtain ⟨t, hpoll, ht, hpend⟩ := plrPoll_fail hwf hcount htable revents
    rw [Poll.exec, Lua.run_bind, hpoll, Poll.Tail]
    exact ⟨fun _ => ⟨t, 0, rfl, ht ▸ hlog, hpend⟩, fun _ => trivial⟩
  | .mk (.ready revents) bodies, s, hwf, hcount, htable, hlog => by
    obtain ⟨t, n, hpoll, ht, hpend, hstored⟩ := plrPoll_pending hwf hcount htable revents
    rw [Poll.exec, Lua.run_bind, hpoll, Poll.Tail, ← hstored]
    exact dispatch_finishes bodies _ t n hpend (ht ▸ hlog)

theorem callback_finishes : ∀ (ts : List Poll) (s : Session C), Wf s.self.poller →
    s.self.poller.count = count → s.self.callbacks = table → RoundsOk s.log → ts ≠ [] →
    Finishes count table (TailCallback count table ts) (callback ts s)
  | [], _, _, _, _, _, hne => absurd rfl hne
  | t :: ts, s, hwf, hcount, htable, hlog, _ => by
    rw [callback, TailCallback, Lua.run_bind]
    refine (exec_finishes t s hwf hcount htable hlog).andThen (keeps_callback ts)
      fun s' n hlog' hpend => ?_
    by_cases hts : ts = []
    · rw [hts, callback, TailCallback]
      exact ⟨fun _ => ⟨s', n, rfl, hlog', hpend⟩, fun _ => trivial⟩
    · exact callback_finishes ts s' hpend.wf hpend.count hpend.table hlog' hts

theorem dispatch_finishes : ∀ (bs : List (List Poll)) (k : Nat) (s : Session C) (n : Nat),
    Pending count table s n k → RoundsOk s.log →
    Finishes count table (Stored table s.self.poller.active n ∧ TailCallbacks count table bs k)
      (dispatch bs k s)
  | [], k, s, n, h, hlog => by
    rw [dispatch, TailCallbacks]
    exact dispatchIdle_finishes k s n h hlog
  | _ :: _, 0, s, n, h, hlog => by
    rw [dispatch, TailCallbacks]
    exact ⟨fun _ => ⟨s, n, rfl, hlog, h⟩, fun _ => ⟨h.stored, trivial⟩⟩
  | b :: bs, k + 1, s, n, h, hlog => by
    rw [dispatch, TailCallbacks, Lua.run_bind]
    refine Finishes.round h hlog fun t i ht hpend => ?_
    rw [Lua.run_bind]
    by_cases hb : b = []
    · rw [hb, callback, Lua.run_pure, Lua.andThen_ret, TailCallback]
      exact (dispatch_finishes bs k t i hpend ht).congr (by simp)
    · have hcb := callback_finishes b t hpend.wf hpend.count hpend.table ht hb
      cases k with
      | zero =>
        have hlast : Finishes count table (TailCallback count table b ∧ TailCallbacks count table bs 0)
            (Lua.andThen (callback b t) fun _ => dispatch bs 0) :=
          hcb.andThen (keeps_dispatch bs 0) fun s' m hs hspent =>
            (dispatch_finishes bs 0 s' m hspent hs).congr (and_iff_right hspent.stored)
        exact hlast.congr ⟨fun hP => ⟨hpend.stored, hP.1, Or.inl rfl, hP.2⟩, fun hP => ⟨hP.2.1, hP.2.2.2⟩⟩
      | succ k =>
        -- the callback polled and the dispatch still owes rounds
        refine ⟨fun hP => ?_, fun hok => ?_⟩
        · rcases hP.2.2.1 with hk | hnil
          · cases hk
          · exact absurd hnil hb
        · obtain ⟨s', hr, hrest⟩ := hok.of_andThen
          obtain ⟨s'', m, hr', -, hspent⟩ := hcb.well (hcb.only ⟨s', hr, keeps_dispatch bs (k + 1) s' hrest⟩)
          rw [hr] at hr'
          cases hr'
          exact absurd hrest (dispatch_spent hspent bs k)

end

end Tree

/-- **Nested dispatch, exactly.**  From every well-formed poller and with every callbacks table, all
    dispatches of a tree of polls finish normally iff at every level the ready items have callbacks and
    only the last callback dispatched polls again. -/
theorem exec_ok_iff {self : PollerMt C} (h : Wf self.poller) (t : Poll) :
    NestedOk (t.exec ⟨self, []⟩) ↔ t.Tail self.poller.count self.callbacks := by
  have hfin := exec_finishes t ⟨self, []⟩ h rfl rfl fun _ hd => absurd hd List.not_mem_nil
  constructor
  · exact hfin.only
  · intro htail
    obtain ⟨s, -, hrun, hlog, -⟩ := hfin.well htail
    exact ⟨s, hrun, hlog⟩

/-- Aligned tables hold a callback for every item. -/
theorem TraceInv.stored {s : Traced C} (h : TraceInv s) {i : Nat} (hi : i < s.self.poller.count) :
    s.self.callbacks.get i ≠ none := by
  rw [h.holds.get_nat, List.getElem?_eq_getElem (by rw [h.given]; exact hi)]
  exact Option.some_ne_none _

/-- The last of two callbacks polls again. -/
theorem exec_ok_last : NestedOk ((Poll.mk (.ready fun i => if i < 2 then 1 else 0)
    [[], [.mk (.ready fun _ => 0) []]]).exec ⟨threeSockets.self, []⟩) := by
  refine (exec_ok_iff traceInv_threeSockets.wf _).mpr ?_
  rw [Poll.Tail]
  refine ⟨fun i hi _ => traceInv_threeSockets.stored hi, ?_⟩
  rw [show readyItems threeSockets.self.poller.count (fun i => if i < 2 then 1 else 0) = 2 from by decide]
  simp [TailCallbacks, TailCallback, Poll.Tail]

/-- The first of two callbacks polls again, with nothing ready: the second is not dispatched, and the
    outer dispatch takes the index -1. -/
theorem not_exec_ok_first : ¬ NestedOk ((Poll.mk (.ready fun _ => 1)
    [[.mk (.ready fun _ => 0) []]]).exec ⟨twoSockets.self, []⟩) := by
  rintro ⟨s, hs, -⟩
  cases hs

end Lzmq.CPoller
