/-
  The Lua wrapper of the C poller (`lzmq/poller.lua`): two tables that have to stay aligned.

  The wrapper keeps its callbacks in a Lua table whose keys are the C indices 0, 1, …  `add` and `modify`
  store a callback at the index the C call returned; `remove` shifts the callbacks above the returned
  index down by one, where C compacts its array.  `remove` does not look for the -1 that C returns when
  the socket is not registered, so its loop then starts at key -1 and moves every callback.

  `Traced` adds a history variable: the callback GIVEN for the registration in each C item, moved only
  as C moves its items.  `Aligned` compares the Lua table with it.  `traceStep_iff` finds the exact
  condition on one call, `aligned_iff_meets` lifts it to every sequence of calls.
-/
import Lzmq.CPoller.Binding
import Lzmq.Lib.Table
import Mathlib.Data.List.InsertIdx

namespace Lzmq.CPoller

open Lzmq.Registry Lzmq.Steps

/-! ## The wrapper -/

/-- `function(revents) return cb(sock, revents) end` -/
structure Closure (C : Type) where
  sock : Nat
  cb : C
deriving DecidableEq

/-- A wrapper object: `self.poller` and `self.callbacks`. -/
structure PollerMt (C : Type) where
  poller : ZMQPoller
  callbacks : LuaTable (Closure C)

/-- How a method call ends: it returns, it raises a Lua error (in the state reached so far), or the C
    code faults. -/
inductive Outcome (σ : Type)
  | ret (s : σ)
  | raise (s : σ)
  | crash (f : Fault)

/-- The state after the call, returned or raised. -/
def Outcome.state {σ : Type} : Outcome σ → Option σ
  | .ret s => some s
  | .raise s => some s
  | .crash _ => none

/-- The state after a call that returned. -/
def Outcome.returned {σ : Type} : Outcome σ → Option σ
  | .ret s => some s
  | .raise _ => none
  | .crash _ => none

namespace PollerMt

variable {C : Type}

/-- `M.new(pre_alloc)` -/
def new (n : Nat) : PollerMt C := ⟨pollerInit n, LuaTable.empty⟩

/-- `poller_mt:add`; a missing callback is nil. -/
def add (self : PollerMt C) (sock : Nat) (events : Int) (cb : Option C) : Outcome (PollerMt C) :=
  match cb with
  | none => .raise self -- assert(cb ~= nil)
  | some cb =>
    match luazmqPlrAdd self.poller (.socket sock) events with
    | .error f => .crash f
    | .ok (id, poller) => .ret ⟨poller, self.callbacks.set id (some ⟨sock, cb⟩)⟩

/-- `poller_mt:remove` -/
def remove (self : PollerMt C) (sock : Nat) : Outcome (PollerMt C) :=
  match luazmqPlrRemove self.poller (.socket sock) with
  | .error f => .crash f
  | .ok (id, poller) =>
    if id ≤ self.callbacks.border then .ret ⟨poller, self.callbacks.shiftFrom id⟩
    else .raise ⟨poller, self.callbacks⟩ -- assert(id <= #self.callbacks)

/-- `poller_mt:modify` -/
def modify (self : PollerMt C) (sock : Nat) (events : Int) (cb : Option C) : Outcome (PollerMt C) :=
  match cb with
  | none => self.remove sock
  | some cb =>
    if events ≠ 0 then
      match luazmqPlrModify self.poller (.socket sock) events with
      | .error f => .crash f
      | .ok (id, poller) => .ret ⟨poller, self.callbacks.set id (some ⟨sock, cb⟩)⟩
    else self.remove sock

end PollerMt

/-! ## Calls and the history variable -/

/-- A call on a zmq socket; `events` is any Lua integer. -/
inductive Call (C : Type)
  | add (sock : Nat) (events : Int) (cb : Option C)
  | modify (sock : Nat) (events : Int) (cb : Option C)
  | remove (sock : Nat)

variable {C : Type}

def Call.run (self : PollerMt C) : Call C → Outcome (PollerMt C)
  | .add sock events cb => self.add sock events cb
  | .modify sock events cb => self.modify sock events cb
  | .remove sock => self.remove sock

/-- The index of the first item of a socket. -/
def ZMQPoller.indexOf (p : ZMQPoller) (sock : Nat) : Option Nat :=
  p.active.findIdx? (PollKey.socket sock).test

/-- The callbacks of the items that survive a C removal of `sock`: the found item goes, and so does
    every item the compaction takes for a free slot. -/
def givenAfterRemove (p : ZMQPoller) (sock : Nat) (given : List (Closure C)) : List (Closure C) :=
  match p.indexOf sock with
  | none => given
  | some i => (((p.active.zip given).eraseIdx i).filter fun x => x.1.live).map Prod.snd

/-- The callback given for the registration in each C item, after a call. -/
def givenAfter (p : ZMQPoller) (given : List (Closure C)) : Call C → List (Closure C)
  | .add _ _ none => given
  | .add sock _ (some cb) => given ++ [⟨sock, cb⟩]
  | .remove sock => givenAfterRemove p sock given
  | .modify sock _ none => givenAfterRemove p sock given
  | .modify sock events (some cb) =>
    if Int16.ofInt events ≠ 0 then
      match p.indexOf sock with
      | none => given ++ [⟨sock, cb⟩]
      | some i => given.set i ⟨sock, cb⟩
    else givenAfterRemove p sock given

/-- A wrapper with the callbacks given for its C items. -/
structure Traced (C : Type) where
  self : PollerMt C
  given : List (Closure C)

def traceStep (s : Traced C) (c : Call C) : Option (Traced C) :=
  (c.run s.self).state.map fun self => ⟨self, givenAfter s.self.poller s.given c⟩

def traceInit (n : Nat) : Traced C := ⟨PollerMt.new n, []⟩

/-- The two tables are aligned: for every index below `count` the Lua table holds the callback given for
    the registration in that C item, and it holds no other integer key. -/
structure Aligned (s : Traced C) : Prop where
  inside : ∀ i : Nat, i < s.self.poller.count →
    ∃ c, s.given[i]? = some c ∧ s.self.callbacks.get i = some c
  outside : ∀ j : Int, (j < 0 ∨ (s.self.poller.count : Int) ≤ j) → s.self.callbacks.get j = none

/-! ## The exact condition -/

/-- A removal keeps the tables aligned when the socket is registered (or nothing is), and no OTHER item
    has the mask `0xFFFF`. -/
def RemoveAligned (p : ZMQPoller) (sock : Nat) : Prop :=
  match p.indexOf sock with
  | none => p.count = 0
  | some i => ∀ it ∈ p.active.eraseIdx i, it.live = true

/-- The condition on a call.  A `modify` that is not a removal for Lua (`events ~= 0 and cb`) must not be
    one for C, whose `short` keeps the low 16 bits of `events`. -/
def CallOk (s : Traced C) : Call C → Prop
  | .add _ _ _ => True
  | .remove sock => RemoveAligned s.self.poller sock
  | .modify sock _ none => RemoveAligned s.self.poller sock
  | .modify sock events (some _) =>
    if events ≠ 0 then Int16.ofInt events ≠ 0 else RemoveAligned s.self.poller sock

/-! ## Invariants of the traced wrapper -/

/-- What every call preserves, aligned or not. -/
structure TraceWf (s : Traced C) : Prop where
  wf : Wf s.self.poller
  given : s.given.length = s.self.poller.count

/-- With one callback given for each item, `Aligned` says that the Lua table holds the given list. -/
theorem aligned_iff_holds {s : Traced C} (h : TraceWf s) : Aligned s ↔ s.self.callbacks.Holds s.given := by
  have hlen := h.given
  constructor
  · intro ha j
    by_cases hj : 0 ≤ j
    · rw [if_pos hj]
      by_cases hlt : j < s.self.poller.count
      · obtain ⟨c, hc, hget⟩ := ha.inside j.toNat (by omega)
        rw [Int.toNat_of_nonneg hj] at hget
        rw [hget, hc]
      · rw [ha.outside j (Or.inr (by omega)), List.getElem?_eq_none (by omega)]
    · rw [if_neg hj, ha.outside j (Or.inl (by omega))]
  · intro hh
    refine ⟨fun i hi => ?_, fun j hj => ?_⟩
    · have hlt : i < s.given.length := by omega
      exact ⟨s.given[i], List.getElem?_eq_getElem hlt, by rw [hh.get_nat, List.getElem?_eq_getElem hlt]⟩
    · rcases hj with hj | hj
      · exact hh.get_neg hj
      · rw [hh, if_pos (by omega), List.getElem?_eq_none (by omega)]

/-- The state in which runs are analysed. -/
structure TraceInv (s : Traced C) : Prop extends TraceWf s where
  holds : s.self.callbacks.Holds s.given

theorem traceInv_init (n : Nat) : TraceInv (traceInit n : Traced C) where
  wf := wf_pollerInit n
  given := rfl
  holds := LuaTable.holds_empty

theorem length_givenAfterRemove {p p' : ZMQPoller} {given : List (Closure C)} {sock i : Nat}
    (hp : Wf p) (hlen : given.length = p.count) (hi : p.indexOf sock = some i) (hp' : Wf p')
    (hact : p'.active = (p.active.eraseIdx i).filter Pollitem.live) :
    (givenAfterRemove p sock given).length = p'.count := by
  have hfst : (p.active.zip given).map Prod.fst = p.active :=
    List.map_fst_zip (Nat.le_of_eq (by rw [hp.active_length, hlen]))
  have hmap : (((p.active.zip given).eraseIdx i).filter fun x => x.1.live).map Prod.fst =
      (p.active.eraseIdx i).filter Pollitem.live := by
    conv_rhs => rw [← hfst, List.eraseIdx_map, List.filter_map]
    rfl
  rw [givenAfterRemove, hi, ← hp'.active_length, hact, ← hmap, List.length_map, List.length_map]

theorem eraseIdx_zip_snd {p : ZMQPoller} {given : List (Closure C)} (hp : Wf p)
    (hlen : given.length = p.count) {sock i : Nat} (hi : p.indexOf sock = some i)
    (hall : ∀ it ∈ p.active.eraseIdx i, it.live = true) :
    givenAfterRemove p sock given = given.eraseIdx i := by
  have hfst : (p.active.zip given).map Prod.fst = p.active :=
    List.map_fst_zip (Nat.le_of_eq (by rw [hp.active_length, hlen]))
  have hsnd : (p.active.zip given).map Prod.snd = given :=
    List.map_snd_zip (Nat.le_of_eq (by rw [hp.active_length, hlen]))
  rw [givenAfterRemove, hi]
  show (((p.active.zip given).eraseIdx i).filter _).map Prod.snd = _
  rw [List.filter_eq_self.mpr, ← List.eraseIdx_map, hsnd]
  intro x hx
  apply hall x.1
  rw [← hfst, List.eraseIdx_map]
  exact List.mem_map_of_mem hx

/-! ## One call -/

theorem traceStep_of_state {s : Traced C} {c : Call C} (self : PollerMt C)
    (h : (c.run s.self).state = some self) :
    traceStep s c = some ⟨self, givenAfter s.self.poller s.given c⟩ := by
  rw [traceStep, h]; rfl

/-- A removing call on a socket that is not registered: C returns -1 and changes nothing, Lua shifts from
    key -1. -/
theorem remove_traceStep_absent {s : Traced C} (h : TraceInv s) {sock : Nat} {c : Call C}
    (hrun : c.run s.self = s.self.remove sock)
    (hgiven : givenAfter s.self.poller s.given c = givenAfterRemove s.self.poller sock s.given)
    (hnone : s.self.poller.indexOf sock = none)
    (hrem : luazmqPlrRemove s.self.poller (.socket sock) = .ok (-1, s.self.poller)) :
    ∃ s', traceStep s c = some s' ∧ TraceWf s' ∧ (Aligned s' ↔ s.self.poller.count = 0) := by
  have hborder := h.holds.border_eq
  have hlen := h.given
  have hret : s.self.remove sock = .ret ⟨s.self.poller, s.self.callbacks.shiftFrom (-1)⟩ := by
    rw [PollerMt.remove, hrem]
    show (if (-1 : Int) ≤ _ then _ else _) = _
    rw [if_pos (by omega)]
  have hg : givenAfterRemove s.self.poller sock s.given = s.given := by rw [givenAfterRemove, hnone]
  have hwf' : TraceWf (⟨⟨s.self.poller, s.self.callbacks.shiftFrom (-1)⟩, s.given⟩ : Traced C) :=
    ⟨h.wf, h.given⟩
  refine ⟨_, by rw [traceStep_of_state _ (by rw [hrun, hret]; rfl), hgiven, hg], hwf', fun ha => ?_,
    fun hz => ?_⟩
  · -- the first callback has moved to key -1
    have hneg := ha.outside (-1) (Or.inl (by decide))
    have hmoved : s.given[0]? = none := h.holds.get_shiftFrom_neg.symm.trans hneg
    rw [List.getElem?_eq_none_iff] at hmoved
    omega
  · have hnil : s.given = [] := List.length_eq_zero_iff.mp (by omega)
    refine (aligned_iff_holds hwf').mpr fun j => ?_
    have hno : ∀ k : Int, s.self.callbacks.get k = none := by
      intro k
      rw [h.holds k, hnil]
      split <;> rfl
    show (s.self.callbacks.shiftFrom (-1)).get j = if 0 ≤ j then s.given[j.toNat]? else none
    rw [LuaTable.shiftFrom, LuaTable.get_shiftDown, hno, hno, hnil]
    split <;> split <;> rfl

/-- A removing call on a registered socket: C erases the item, Lua the callback at the same index. -/
theorem remove_traceStep_found {s : Traced C} (h : TraceInv s) {sock i : Nat} {c : Call C} {p' : ZMQPoller}
    (hrun : c.run s.self = s.self.remove sock)
    (hgiven : givenAfter s.self.poller s.given c = givenAfterRemove s.self.poller sock s.given)
    (hsome : s.self.poller.indexOf sock = some i) (hi : i < s.self.poller.count)
    (hrem : luazmqPlrRemove s.self.poller (.socket sock) = .ok (i, p')) (hwf : Wf p')
    (hact : p'.active = (s.self.poller.active.eraseIdx i).filter Pollitem.live) :
    ∃ s', traceStep s c = some s' ∧ TraceWf s' ∧
      (Aligned s' ↔ ∀ it ∈ s.self.poller.active.eraseIdx i, it.live = true) := by
  have hborder := h.holds.border_eq
  have hlen := h.given
  have hret : s.self.remove sock = .ret ⟨p', s.self.callbacks.shiftFrom i⟩ := by
    rw [PollerMt.remove, hrem]
    show (if (i : Int) ≤ _ then _ else _) = _
    rw [if_pos (by omega)]
  have hig : i < s.given.length := by omega
  have hwf' : TraceWf (⟨⟨p', s.self.callbacks.shiftFrom i⟩,
      givenAfterRemove s.self.poller sock s.given⟩ : Traced C) :=
    ⟨hwf, length_givenAfterRemove h.wf hlen hsome hwf hact⟩
  have hshift := h.holds.shiftFrom hig
  refine ⟨_, by rw [traceStep_of_state _ (by rw [hrun, hret]; rfl), hgiven], hwf', fun ha => ?_,
    fun hall => ?_⟩
  · -- the Lua table still has `count - 1` entries, so C must have dropped nothing else
    have hcount : p'.count = ((s.self.poller.active.eraseIdx i).filter Pollitem.live).length := by
      rw [← hact, hwf.active_length]
    have herase : (s.self.poller.active.eraseIdx i).length = s.given.length - 1 := by
      rw [List.length_eraseIdx_of_lt (by rw [h.wf.active_length]; exact hi), h.wf.active_length, hlen]
    apply List.length_filter_eq_length_iff.mp
    have hle := List.length_filter_le Pollitem.live (s.self.poller.active.eraseIdx i)
    by_contra hne
    have hout := ha.outside (p'.count : Int) (Or.inr (Int.le_refl _))
    have hlast : (s.given.eraseIdx i)[p'.count]? = none := (hshift.get_nat p'.count).symm.trans hout
    rw [List.getElem?_eq_none_iff, List.length_eraseIdx_of_lt hig] at hlast
    omega
  · refine (aligned_iff_holds hwf').mpr ?_
    show (s.self.callbacks.shiftFrom i).Holds (givenAfterRemove s.self.poller sock s.given)
    rw [eraseIdx_zip_snd h.wf hlen hsome hall]
    exact hshift

/-- A removing call: it returns a well-formed state, which is aligned iff the condition holds. -/
theorem remove_traceStep {s : Traced C} (h : TraceInv s) (sock : Nat) {c : Call C}
    (hrun : c.run s.self = s.self.remove sock)
    (hgiven : givenAfter s.self.poller s.given c = givenAfterRemove s.self.poller sock s.given) :
    ∃ s', traceStep s c = some s' ∧ TraceWf s' ∧
      (Aligned s' ↔ RemoveAligned s.self.poller sock) := by
  rcases removeFound_spec h.wf (.socket sock) with ⟨hnone, hrem⟩ | ⟨i, p', hsome, hi, hrem, hwf, -, hact⟩
  · have hnone' : s.self.poller.indexOf sock = none := hnone
    rw [RemoveAligned, hnone']
    exact remove_traceStep_absent h hrun hgiven hnone' hrem
  · have hsome' : s.self.poller.indexOf sock = some i := hsome
    rw [RemoveAligned, hsome']
    exact remove_traceStep_found h hrun hgiven hsome' hi hrem hwf hact

/-- Storing a callback for an appended item. -/
theorem append_traceStep {s : Traced C} (h : TraceInv s) (sock : Nat) (cb : C) {c : Call C}
    {p' : ZMQPoller} {it : Pollitem} (hwf : Wf p') (hact : p'.active = s.self.poller.active ++ [it])
    (hrun : c.run s.self =
      .ret ⟨p', s.self.callbacks.set s.self.poller.count (some ⟨sock, cb⟩)⟩)
    (hgiven : givenAfter s.self.poller s.given c = s.given ++ [⟨sock, cb⟩]) :
    ∃ s', traceStep s c = some s' ∧ TraceWf s' ∧ Aligned s' := by
  have hcount : p'.count = s.self.poller.count + 1 := by
    rw [← hwf.active_length, hact, List.length_append, h.wf.active_length]; rfl
  have hwf' : TraceWf (⟨⟨p', s.self.callbacks.set s.self.poller.count (some ⟨sock, cb⟩)⟩,
      s.given ++ [⟨sock, cb⟩]⟩ : Traced C) :=
    ⟨hwf, by rw [List.length_append, h.given, hcount]; rfl⟩
  refine ⟨_, by rw [traceStep_of_state _ (by rw [hrun]; rfl), hgiven], hwf',
    (aligned_iff_holds hwf').mpr ?_⟩
  have happ := h.holds.append (⟨sock, cb⟩ : Closure C)
  rw [h.given] at happ
  exact happ

theorem add_traceStep {s : Traced C} (h : TraceInv s) (sock : Nat) (events : Int) (cb : Option C) :
    ∃ s', traceStep s (.add sock events cb) = some s' ∧ TraceWf s' ∧ Aligned s' := by
  cases cb with
  | none => exact ⟨s, rfl, ⟨h.wf, h.given⟩, (aligned_iff_holds ⟨h.wf, h.given⟩).mpr h.holds⟩
  | some cb =>
    obtain ⟨p', hp', hwf, -, hact⟩ := luazmqPlrAdd_spec h.wf (.socket sock) events
    refine append_traceStep h sock cb hwf hact ?_ rfl
    rw [Call.run, PollerMt.add, hp']

/-- A `modify` that C carries out as an update. -/
theorem modify_traceStep {s : Traced C} (h : TraceInv s) (sock : Nat) {events : Int} (cb : C)
    (hev : events ≠ 0) (hev' : Int16.ofInt events ≠ 0) :
    ∃ s', traceStep s (.modify sock events (some cb)) = some s' ∧ TraceWf s' ∧ Aligned s' := by
  rcases luazmqPlrModify_socket h.wf sock hev' with ⟨hnone, p', hp', hwf, -, hact⟩ |
    ⟨i, p', hi, hsome, hp', hwf, -, hact⟩
  · refine append_traceStep h sock cb hwf hact ?_ ?_
    · rw [Call.run, PollerMt.modify, if_pos hev, hp']
    · rw [givenAfter, if_pos hev', ZMQPoller.indexOf, hnone]
  · have hcount : p'.count = s.self.poller.count := by
      rw [← hwf.active_length, hact, List.length_set, h.wf.active_length]
    have hig : i < s.given.length := by rw [h.given, ← h.wf.active_length]; exact hi
    have hwf' : TraceWf (⟨⟨p', s.self.callbacks.set i (some ⟨sock, cb⟩)⟩,
        s.given.set i ⟨sock, cb⟩⟩ : Traced C) := ⟨hwf, by rw [List.length_set, h.given, hcount]⟩
    refine ⟨_, ?_, hwf', (aligned_iff_holds hwf').mpr (h.holds.set hig _)⟩
    rw [traceStep_of_state (c := .modify sock events (some cb))
      ⟨p', s.self.callbacks.set i (some ⟨sock, cb⟩)⟩
      (by rw [Call.run, PollerMt.modify, if_pos hev, hp']; rfl), givenAfter, if_pos hev',
        ZMQPoller.indexOf, hsome]

/-- A `modify` that Lua takes for an update and C for a removal: C has one item less, Lua keeps all
    its keys (or stores one at -1). -/
theorem modify_truncated {s : Traced C} (h : TraceInv s) (sock : Nat) {events : Int} (cb : C)
    (hev : events ≠ 0) (hev' : Int16.ofInt events = 0) :
    ∃ s', traceStep s (.modify sock events (some cb)) = some s' ∧ TraceWf s' ∧ ¬ Aligned s' := by
  have hlen := h.given
  have hgiven : givenAfter s.self.poller s.given (.modify sock events (some cb)) =
      givenAfterRemove s.self.poller sock s.given := by
    rw [givenAfter, if_neg (not_not.mpr hev')]
  rcases removeFound_spec h.wf (.socket sock) with ⟨hnone, hrem⟩ | ⟨i, p', hsome, hi, hrem, hwf, -, hact⟩
  · have hnone' : s.self.poller.indexOf sock = none := hnone
    have hstep : traceStep s (.modify sock events (some cb)) =
        some ⟨⟨s.self.poller, s.self.callbacks.set (-1) (some ⟨sock, cb⟩)⟩, s.given⟩ := by
      rw [traceStep_of_state ⟨s.self.poller, s.self.callbacks.set (-1) (some ⟨sock, cb⟩)⟩
        (by rw [Call.run, PollerMt.modify, if_pos hev, luazmqPlrModify_zero _ hev', hrem]; rfl),
        hgiven, givenAfterRemove, hnone']
    refine ⟨_, hstep, ⟨h.wf, h.given⟩, fun ha => ?_⟩
    have hneg := ha.outside (-1) (Or.inl (by decide))
    rw [LuaTable.get_set, if_pos rfl] at hneg
    cases hneg
  · have hsome' : s.self.poller.indexOf sock = some i := hsome
    have hstep : traceStep s (.modify sock events (some cb)) =
        some ⟨⟨p', s.self.callbacks.set i (some ⟨sock, cb⟩)⟩,
          givenAfterRemove s.self.poller sock s.given⟩ := by
      rw [traceStep_of_state ⟨p', s.self.callbacks.set i (some ⟨sock, cb⟩)⟩
        (by rw [Call.run, PollerMt.modify, if_pos hev, luazmqPlrModify_zero _ hev', hrem]; rfl), hgiven]
    refine ⟨_, hstep, ⟨hwf, length_givenAfterRemove h.wf hlen hsome' hwf hact⟩, fun ha => ?_⟩
    have hcount : p'.count ≤ s.given.length - 1 := by
      have hle := List.length_filter_le Pollitem.live (s.self.poller.active.eraseIdx i)
      rw [← hact, hwf.active_length,
        List.length_eraseIdx_of_lt (by rw [h.wf.active_length]; exact hi), h.wf.active_length] at hle
      omega
    have hig : i < s.given.length := by omega
    have hlast := ha.outside ((s.given.length - 1 : Nat) : Int) (Or.inr (by show (p'.count : Int) ≤ _; omega))
    have hkept := (h.holds.set hig (⟨sock, cb⟩ : Closure C)).get_nat (s.given.length - 1)
    rw [List.getElem?_eq_getElem (by rw [List.length_set]; omega)] at hkept
    cases hlast.symm.trans hkept

/-- **One call** from an aligned state reaches an aligned state iff it meets `CallOk`, and every call
    preserves `TraceWf`. -/
theorem traceStep_spec {s : Traced C} (h : TraceInv s) (c : Call C) :
    ∃ s', traceStep s c = some s' ∧ TraceWf s' ∧ (Aligned s' ↔ CallOk s c) := by
  cases c with
  | add sock events cb =>
    obtain ⟨s', hs', hw, ha⟩ := add_traceStep h sock events cb
    exact ⟨s', hs', hw, fun _ => trivial, fun _ => ha⟩
  | remove sock => exact remove_traceStep h sock rfl rfl
  | modify sock events cb =>
    cases cb with
    | none => exact remove_traceStep h sock rfl rfl
    | some cb =>
      by_cases hev : events = 0
      · rw [CallOk, if_neg (not_not.mpr hev)]
        refine remove_traceStep h sock ?_ ?_
        · rw [Call.run, PollerMt.modify, if_neg (not_not.mpr hev)]
        · rw [givenAfter, if_neg (by rw [hev]; decide)]
      · rw [CallOk, if_pos hev]
        by_cases hev' : Int16.ofInt events = 0
        · obtain ⟨s', hs', hw, ha⟩ := modify_truncated h sock cb hev hev'
          exact ⟨s', hs', hw, fun hal => absurd hal ha, fun hne => absurd hev' hne⟩
        · obtain ⟨s', hs', hw, ha⟩ := modify_traceStep h sock cb hev hev'
          exact ⟨s', hs', hw, fun _ => hev', fun _ => ha⟩

theorem traceStep_iff (s : Traced C) (c : Call C) (h : TraceInv s) :
    (∃ s', traceStep s c = some s' ∧ Aligned s') ↔ CallOk s c := by
  obtain ⟨s', hs', -, hiff⟩ := traceStep_spec h c
  constructor
  · rintro ⟨t, ht, ha⟩
    obtain rfl : s' = t := Option.some.inj (hs'.symm.trans ht)
    exact hiff.mp ha
  · exact fun hok => ⟨s', hs', hiff.mpr hok⟩

/-! ## Sequences of calls -/

/-- **Alignment, exactly.**  In a sequence of calls on a new poller the two tables are aligned after
    every call iff every call meets `CallOk` in the state it is made in. -/
theorem aligned_iff_meets (n : Nat) (calls : List (Call C)) :
    Keeps traceStep (fun _ _ s' => Aligned s') (traceInit n) calls ↔
      Meets traceStep CallOk (traceInit n) calls := by
  refine keeps_iff_meets traceStep TraceInv traceStep_iff ?_ calls (traceInit n) (traceInv_init n)
  intro s c s' h hs' ha
  obtain ⟨t, ht, hw, -⟩ := traceStep_spec h c
  obtain rfl : t = s' := Option.some.inj (ht.symm.trans hs')
  exact ⟨hw, (aligned_iff_holds hw).mp ha⟩

/-- Removing an unregistered socket from a poller with one registration moves its callback to key -1. -/
theorem not_aligned_remove_unregistered :
    ¬ Keeps traceStep (fun _ _ s' => Aligned s') (traceInit 10 : Traced Unit)
      [.add 1 1 (some ()), .remove 2] := by
  rintro ⟨s, hs, -, t, ht, ha, -⟩
  have hadd : s = (traceStep (traceInit 10) (.add 1 1 (some ()))).get (by decide) := by
    exact Option.some.inj (hs.symm.trans (Option.some_get _).symm)
  subst hadd
  have hrem := Option.some.inj (ht.symm.trans (Option.some_get (by decide)).symm)
  subst hrem
  exact absurd (ha.outside (-1) (Or.inl (by decide))) (by decide)

end Lzmq.CPoller
