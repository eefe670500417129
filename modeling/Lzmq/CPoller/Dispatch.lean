/-
  Dispatch in the C poller's wrapper: `poller_mt:poll`.

  After `zmq_poll` the wrapper asks the C poller `count` times for the next item with pending events,
  from the end of the array downwards, and calls the callback stored under its index.  `count` is read
  once and the cursor `poller->next` is an index, while a callback may remove registrations and so move
  the items above the gap down, under a cursor that stays where it is.

  `pollLoop` is that loop; a callback is what it removes, given the callbacks run before it, and the run
  is recorded as a log.  `DispatchOk` says what a dispatch should do.  `Sim` ties the two tables to one
  list of entries (item, callback): a removal that leaves no item with the free tag erases one entry
  (`Sim.removals`), any other leaves Lua with more callbacks than C has items (`Sim.remove_tagged`).
-/
import Lzmq.CPoller.Cursor
import Lzmq.CPoller.Wrapper

namespace Lzmq.CPoller

open Lzmq.Drain Lzmq.Registry

/-! ## The loop -/

/-- What happens during a dispatch: a callback is called, `callbacks[id]` is nil, or a callback removes
    a socket.  A removal records the callback stored for the registration it removes, if there is one. -/
inductive Ev (C : Type)
  | call (c : Closure C) (revents : Int16)
  | absent (id : Int)
  | removed (sock : Nat) (entry : Option (Closure C))
deriving DecidableEq

variable {C : Type}

/-- The callback an event calls. -/
def Ev.calls : Ev C → Option (Closure C)
  | .call c _ => some c
  | _ => none

/-- The registration an event removes. -/
def Ev.removes : Ev C → Option (Closure C)
  | .removed _ entry => entry
  | _ => none

/-- The callbacks called, in order. -/
def called (log : List (Ev C)) : List (Closure C) := log.filterMap Ev.calls

/-- The registrations removed, in order. -/
def removedIn (log : List (Ev C)) : List (Closure C) := log.filterMap Ev.removes

/-- The callback stored under the index that the lookup of `sock` returns. -/
def PollerMt.entryOf (self : PollerMt C) (sock : Nat) : Option (Closure C) :=
  self.callbacks.get (ofIdx? (self.poller.indexOf sock))

/-- The removals a callback makes, one `poller:remove(sock)` after the other. -/
def removals (self : PollerMt C) (log : List (Ev C)) : List Nat → Outcome (PollerMt C) × List (Ev C)
  | [] => (.ret self, log)
  | sock :: socks =>
    let log := log ++ [.removed sock (self.entryOf sock)]
    match self.remove sock with
    | .ret self => removals self log socks
    | .raise self => (.raise self, log)
    | .crash f => (.crash f, log)

/-- `for i=1,count do local id, revents = poller:next_revents_idx(); callbacks[id](revents) end`.
    `act` says which sockets a callback removes, from the callbacks called so far and itself. -/
def pollLoop (act : List (Closure C) → List Nat) :
    Nat → PollerMt C → List (Ev C) → Outcome (PollerMt C) × List (Ev C)
  | 0, self, log => (.ret self, log)
  | k + 1, self, log =>
    match luazmqPlrNextReventsIdx self.poller with
    | .error f => (.crash f, log)
    | .ok (id, revents, poller) =>
      match self.callbacks.get id with
      | none => (.raise { self with poller := poller }, log ++ [.absent id])
      | some c =>
        match removals { self with poller := poller } (log ++ [.call c revents])
            (act (called log ++ [c])) with
        | (.ret self, log) => pollLoop act k self log
        | (.raise self, log) => (.raise self, log)
        | (.crash f, log) => (.crash f, log)

/-- A call of `poller_mt:poll`: how it ends, the count it returns (nil for a failed poll) and its log. -/
structure PollRun (C : Type) where
  outcome : Outcome (PollerMt C)
  count : Option Int
  log : List (Ev C)

/-- `poller_mt:poll` -/
def PollerMt.poll (self : PollerMt C) (out : ZmqPoll) (act : List (Closure C) → List Nat) : PollRun C :=
  match luazmqPlrPoll self.poller out with
  | .error f => ⟨.crash f, none, []⟩
  | .ok (.fail, poller) => ⟨.ret { self with poller := poller }, none, []⟩
  | .ok (.count count, poller) =>
    let (outcome, log) := pollLoop act count.toNat { self with poller := poller } []
    ⟨outcome, some count, log⟩

/-! ## What a dispatch should do -/

/-- The property of one dispatch, for the registrations `s.given` and the ready set of `out`. -/
structure DispatchOk (s : Traced C) (out : ZmqPoll) (r : PollRun C) : Prop where
  /-- It returns, -/
  returns : ∃ self, r.outcome = .ret self
  /-- calls no absent entry, -/
  present : ∀ id, Ev.absent id ∉ r.log
  /-- runs no callback twice, -/
  once : (called r.log).Nodup
  /-- runs the callback of every ready registration that is not removed before it ends -/
  served : ∀ (i : Nat) (c : Closure C), s.given[i]? = some c → out.revents i ≠ 0 →
    c ∉ removedIn r.log → c ∈ called r.log
  /-- and no callback of a registration removed before. -/
  live : r.log.Pairwise fun a b => ∀ c, a.removes = some c → b.calls ≠ some c

/-- Assumed of libzmq: the number of items whose `revents` are left nonzero. -/
def readyCount (s : Traced C) (out : ZmqPoll) : Nat :=
  (List.range s.self.poller.count).countP fun i => out.revents i != 0

/-- Callbacks remove registered sockets only: each removal finds an entry. -/
def RemovesRegistered (log : List (Ev C)) : Prop := ∀ sock, Ev.removed sock none ∉ log

/-! ## The dispatch as draining a list -/

/-- An item with the callback stored for it. -/
abbrev Entry (C : Type) := Pollitem × Closure C

def Entry.ready (e : Entry C) : Bool := e.1.revents != 0

/-- The entries after `zmq_poll`. -/
def entries (s : Traced C) (out : ZmqPoll) : List (Entry C) :=
  (s.self.poller.active.zip s.given).mapIdx fun i e => ({ e.1 with revents := out.revents i }, e.2)

def removeEntry (z : List (Entry C)) (sock : Nat) : List (Entry C) :=
  z.eraseP fun e => (PollKey.socket sock).test e.1

/-- What the removals of a callback leave of the entries. -/
def removeEntries (act : List (Closure C) → List Nat) (served z : List (Entry C)) : List (Entry C) :=
  (act (served.map Prod.snd)).foldl removeEntry z

/-! ## Logs -/

theorem called_append (l m : List (Ev C)) : called (l ++ m) = called l ++ called m :=
  List.filterMap_append

theorem removedIn_append (l m : List (Ev C)) : removedIn (l ++ m) = removedIn l ++ removedIn m :=
  List.filterMap_append

theorem prefix_removals : ∀ (socks : List Nat) (self : PollerMt C) (log : List (Ev C)),
    log <+: (removals self log socks).2 := by
  intro socks
  induction socks with
  | nil => intro self log; exact List.prefix_rfl
  | cons sock socks ih =>
    intro self log
    have hlog := List.prefix_append log [Ev.removed sock (self.entryOf sock)]
    rw [removals]
    cases self.remove sock with
    | ret self' => exact hlog.trans (ih self' _)
    | raise self' => exact hlog
    | crash f => exact hlog

theorem prefix_pollLoop (act : List (Closure C) → List Nat) :
    ∀ (k : Nat) (self : PollerMt C) (log : List (Ev C)), log <+: (pollLoop act k self log).2 := by
  intro k
  induction k with
  | zero => intro self log; exact List.prefix_rfl
  | succ k ih =>
    intro self log
    rw [pollLoop]
    cases luazmqPlrNextReventsIdx self.poller with
    | error f => exact List.prefix_rfl
    | ok r =>
      obtain ⟨id, revents, poller⟩ := r
      simp only
      cases self.callbacks.get id with
      | none => exact List.prefix_append log _
      | some c =>
        have hrem := (List.prefix_append log [Ev.call c revents]).trans
          (prefix_removals (act (called log ++ [c])) { self with poller := poller } _)
        simp only
        generalize removals { self with poller := poller } (log ++ [Ev.call c revents])
          (act (called log ++ [c])) = r at hrem ⊢
        obtain ⟨o, log'⟩ := r
        cases o with
        | ret self' => exact hrem.trans (ih self' log')
        | raise self' => exact hrem
        | crash f => exact hrem

/-! ## The tables and the entries -/

/-- The tables hold the entries `z`, and the cursor is below position `n`. -/
structure Sim (mt : PollerMt C) (z : List (Entry C)) (n : Nat) : Prop extends AtCursor mt.poller n where
  active : mt.poller.active = z.map Prod.fst
  holds : mt.callbacks.Holds (z.map Prod.snd)

/-- The tables, aligned or not: Lua holds the callbacks `cs`, no fewer than C has items. -/
structure Held (mt : PollerMt C) (cs : List (Closure C)) (n : Nat) : Prop extends AtCursor mt.poller n where
  holds : mt.callbacks.Holds cs
  count_le : mt.poller.count ≤ cs.length

theorem Sim.held {self : PollerMt C} {z : List (Entry C)} {n : Nat} (h : Sim self z n) :
    Held self (z.map Prod.snd) n where
  toAtCursor := h.toAtCursor
  holds := h.holds
  count_le := by
    apply Nat.le_of_eq
    rw [← h.wf.active_length, h.active, List.length_map, List.length_map]

theorem Sim.nextReventsIdx {self : PollerMt C} {z : List (Entry C)} {n : Nat} (h : Sim self z n) :
    (lastReady Entry.ready z n = none ∧
      ∃ p, luazmqPlrNextReventsIdx self.poller = .ok (-1, 0, p)) ∨
    ∃ i e p, lastReady Entry.ready z n = some (i, e) ∧
      luazmqPlrNextReventsIdx self.poller = .ok ((i : Int), e.1.revents, p) ∧
      Sim { self with poller := p } z i := by
  have hmap : lastReady Pollitem.pending self.poller.active n =
      (lastReady Entry.ready z n).map fun r => (r.1, r.2.1) := by
    rw [h.active, lastReady_map]
    rfl
  rcases h.toAtCursor.nextReventsIdx with ⟨hlast, hnext⟩ | ⟨i, it, p, hlast, -, hnext, hat, hact, -⟩
  · rw [hmap, Option.map_eq_none_iff] at hlast
    exact Or.inl ⟨hlast, hnext⟩
  · rw [hmap, Option.map_eq_some_iff] at hlast
    obtain ⟨⟨j, e⟩, hlast, heq⟩ := hlast
    obtain ⟨rfl, rfl⟩ := Prod.mk.inj heq
    exact Or.inr ⟨j, e, p, hlast, hnext, hat, hact.trans h.active, h.holds⟩

/-- With ready entries below the cursor the last of them is next, and its callback is there. -/
theorem Sim.nextReady {self : PollerMt C} {z : List (Entry C)} {n k : Nat} (h : Sim self z n)
    (hk : (readyBelow Entry.ready z n).length = k + 1) :
    ∃ (i : Nat) (e : Entry C) (p : ZMQPoller), luazmqPlrNextReventsIdx self.poller = .ok (i, e.1.revents, p) ∧
      Sim { self with poller := p } z i ∧ z[i]? = some e ∧ self.callbacks.get i = some e.2 ∧
      lastReady Entry.ready z n = some (i, e) ∧
      readyBelow Entry.ready z n = readyBelow Entry.ready z i ++ [e] ∧
      (readyBelow Entry.ready z i).length = k := by
  rcases h.nextReventsIdx with ⟨hlast, -⟩ | ⟨i, e, p, hlast, hnext, hsim⟩
  · rw [lastReady_none hlast] at hk
    cases hk
  · obtain ⟨-, hget, -, hbelow, -⟩ := lastReady_some hlast
    refine ⟨i, e, p, hnext, hsim, hget, ?_, hlast, hbelow, ?_⟩
    · rw [h.holds.get_nat, List.getElem?_map, hget]
      rfl
    · rw [hbelow, List.length_append, List.length_singleton] at hk
      exact Nat.add_right_cancel hk

/-! ## Removals -/

/-- A removal of a registered socket returns.  C erases the item found and drops every item with the
    free tag; Lua erases the callback at the same index. -/
theorem Held.remove {self : PollerMt C} {cs : List (Closure C)} {n : Nat} (h : Held self cs n) {sock : Nat}
    (hreg : self.entryOf sock ≠ none) :
    ∃ i c self', self.poller.active.findIdx? (PollKey.socket sock).test = some i ∧ cs[i]? = some c ∧
      self.entryOf sock = some c ∧ self.remove sock = .ret self' ∧ Held self' (cs.eraseIdx i) n ∧
      self'.poller.active = (self.poller.active.eraseIdx i).filter Pollitem.live := by
  rcases removeFound_spec h.wf (.socket sock) with ⟨hnone, -⟩ | ⟨i, p', hsome, hi, hrem, hwf, hnext, hact⟩
  · have hnone' : self.poller.indexOf sock = none := hnone
    rw [PollerMt.entryOf, hnone', ofIdx?_none, h.holds.get_neg (by decide)] at hreg
    exact absurd rfl hreg
  · have hsome' : self.poller.indexOf sock = some i := hsome
    have hle := h.count_le
    have hlt : i < cs.length := by omega
    have hget : cs[i]? = some cs[i] := List.getElem?_eq_getElem hlt
    have hcount : p'.count ≤ self.poller.count - 1 := by
      have hfilter := List.length_filter_le Pollitem.live (self.poller.active.eraseIdx i)
      rw [← hact, hwf.active_length, List.length_eraseIdx_of_lt (by rw [h.wf.active_length]; exact hi),
        h.wf.active_length] at hfilter
      exact hfilter
    refine ⟨i, cs[i], ⟨p', self.callbacks.shiftFrom i⟩, hsome, hget, ?_, ?_,
      ⟨⟨hwf, hnext.trans h.cursor⟩, h.holds.shiftFrom hlt, ?_⟩, hact⟩
    · rw [PollerMt.entryOf, hsome', ofIdx?_some, h.holds.get_nat, hget]
    · rw [PollerMt.remove, hrem, h.holds.border_eq]
      show (if (i : Int) ≤ _ then _ else _) = _
      rw [if_pos (by omega)]
    · show p'.count ≤ _
      rw [List.length_eraseIdx_of_lt hlt]
      omega

theorem removeEntry_sublist (z : List (Entry C)) (sock : Nat) : (removeEntry z sock).Sublist z :=
  List.eraseP_sublist

/-- The entry of the item that C finds is the one removed. -/
theorem Sim.removeEntry_eq {self : PollerMt C} {z : List (Entry C)} {n : Nat} (h : Sim self z n)
    {sock i : Nat} (hi : self.poller.active.findIdx? (PollKey.socket sock).test = some i) :
    removeEntry z sock = z.eraseIdx i := by
  rw [h.active, List.findIdx?_map] at hi
  rw [removeEntry, List.eraseP_eq_eraseIdx]
  have hi' : z.findIdx? (fun e => (PollKey.socket sock).test e.1) = some i := hi
  rw [hi']

/-- Where the removal leaves no item with the free tag, the tables stay aligned. -/
theorem Sim.remove {self : PollerMt C} {z : List (Entry C)} {n : Nat} (h : Sim self z n) {sock : Nat}
    (hlive : ∀ e ∈ removeEntry z sock, e.1.live = true) (hnd : (z.map Prod.snd).Nodup)
    (hreg : self.entryOf sock ≠ none) :
    ∃ c self', self.entryOf sock = some c ∧ self.remove sock = .ret self' ∧
      Sim self' (removeEntry z sock) n ∧ c ∉ (removeEntry z sock).map Prod.snd := by
  obtain ⟨i, c, self', hi, hc, hentry, hrem, hheld, hact⟩ := h.held.remove hreg
  have herase := h.removeEntry_eq hi
  rw [herase] at hlive ⊢
  refine ⟨c, self', hentry, hrem, ⟨hheld.toAtCursor, ?_, ?_⟩, ?_⟩
  · rw [hact, h.active, List.eraseIdx_map, List.filter_eq_self]
    intro it hit
    obtain ⟨e, he, rfl⟩ := List.mem_map.mp hit
    exact hlive e he
  · rw [← List.eraseIdx_map]
    exact hheld.holds
  · rw [← List.eraseIdx_map]
    obtain ⟨hlt, hget⟩ := List.getElem?_eq_some_iff.mp hc
    intro hmem
    obtain ⟨j, hj, hne, hjc⟩ := List.mem_eraseIdx_iff_getElem.mp hmem
    exact hne (hnd.getElem_inj_iff.mp (hjc.trans hget.symm))

/-- Where it leaves one, C drops it and Lua does not. -/
theorem Sim.remove_tagged {self : PollerMt C} {z : List (Entry C)} {n : Nat} (h : Sim self z n) {sock : Nat}
    (htag : ¬ ∀ e ∈ removeEntry z sock, e.1.live = true) (hreg : self.entryOf sock ≠ none) :
    ∃ self' cs, self.remove sock = .ret self' ∧ Held self' cs n ∧ self'.poller.count < cs.length := by
  obtain ⟨i, c, self', hi, hc, -, hrem, hheld, hact⟩ := h.held.remove hreg
  refine ⟨self', _, hrem, hheld, Nat.lt_of_le_of_ne hheld.count_le fun heq => htag ?_⟩
  rw [h.removeEntry_eq hi]
  have hall : ((self.poller.active.eraseIdx i).filter Pollitem.live).length =
      (self.poller.active.eraseIdx i).length := by
    rw [← hact, hheld.wf.active_length, heq, h.active, List.eraseIdx_map, List.eraseIdx_map,
      List.length_map, List.length_map]
  rw [List.length_filter_eq_length_iff, h.active, List.eraseIdx_map] at hall
  exact fun e he => hall e.1 (List.mem_map_of_mem he)

/-- What a log must satisfy: no absent entry was called, and nothing removed was called afterwards. -/
structure LogWf (log : List (Ev C)) : Prop where
  present : ∀ id, Ev.absent id ∉ log
  live : log.Pairwise fun a b => ∀ c, a.removes = some c → b.calls ≠ some c

/-- While the entries `z` are left, the registrations removed are not among them. -/
structure LogInv (z : List (Entry C)) (log : List (Ev C)) : Prop extends LogWf log where
  gone : ∀ c ∈ removedIn log, c ∉ z.map Prod.snd

theorem logInv_nil (z : List (Entry C)) : LogInv z [] where
  present := fun _ => List.not_mem_nil
  live := List.Pairwise.nil
  gone := fun _ hc => absurd hc List.not_mem_nil

/-- One more event, which calls nothing that was removed. -/
theorem LogWf.append {log : List (Ev C)} (h : LogWf log) {e : Ev C} (he : ∀ id, e ≠ .absent id)
    (hlive : ∀ a ∈ log, ∀ c, a.removes = some c → e.calls ≠ some c) : LogWf (log ++ [e]) where
  present id hmem := by
    rcases List.mem_append.mp hmem with hmem | hmem
    · exact h.present id hmem
    · exact he id (List.mem_singleton.mp hmem).symm
  live := by
    refine List.pairwise_append.mpr ⟨h.live, List.pairwise_singleton _ _, ?_⟩
    intro a ha b hb
    rw [List.mem_singleton.mp hb]
    exact hlive a ha

/-- Calling the callback of an entry that is left. -/
theorem LogInv.call {z : List (Entry C)} {log : List (Ev C)} (h : LogInv z log) {e : Entry C}
    (he : e ∈ z) (revents : Int16) : LogInv z (log ++ [.call e.2 revents]) where
  toLogWf := by
    refine h.toLogWf.append (fun _ hno => by cases hno) fun a ha c hac hcall => ?_
    obtain rfl : e.2 = c := Option.some.inj hcall
    exact h.gone e.2 (List.mem_filterMap.mpr ⟨a, ha, hac⟩) (List.mem_map_of_mem he)
  gone c hc := by
    rw [removedIn_append] at hc
    exact h.gone c (by simpa [removedIn, Ev.removes] using hc)

/-- A removal calls nothing. -/
theorem LogWf.removed {log : List (Ev C)} (h : LogWf log) (sock : Nat) (entry : Option (Closure C)) :
    LogWf (log ++ [.removed sock entry]) :=
  h.append (fun _ hno => by cases hno) fun _ _ _ _ hcall => by cases hcall

theorem LogInv.removed {z : List (Entry C)} {log : List (Ev C)} (h : LogInv z log) {sock : Nat}
    {c : Closure C} (hc : c ∉ (removeEntry z sock).map Prod.snd) :
    LogInv (removeEntry z sock) (log ++ [.removed sock (some c)]) where
  toLogWf := h.toLogWf.removed sock (some c)
  gone d hd := by
    rw [removedIn_append, List.mem_append] at hd
    rcases hd with hd | hd
    · exact fun hmem => h.gone d hd (((removeEntry_sublist z sock).map Prod.snd).subset hmem)
    · obtain rfl : d = c := by simpa [removedIn, Ev.removes] using hd
      exact hc

theorem RemovesRegistered.mono {l m : List (Ev C)} (h : RemovesRegistered m) (hpre : l <+: m) :
    RemovesRegistered l := fun sock hmem => h sock (hpre.subset hmem)

/-- The first removal of a callback finds an entry. -/
theorem RemovesRegistered.entryOf {self : PollerMt C} {log : List (Ev C)} {sock : Nat} {socks : List Nat}
    (h : RemovesRegistered (removals self log (sock :: socks)).2) : self.entryOf sock ≠ none := by
  intro hnone
  have hpre : log ++ [Ev.removed sock (self.entryOf sock)] <+: (removals self log (sock :: socks)).2 := by
    rw [removals]
    cases self.remove sock with
    | ret self' => exact prefix_removals socks self' _
    | raise self' => exact List.prefix_rfl
    | crash f => exact List.prefix_rfl
  rw [hnone] at hpre
  exact h.mono hpre sock (List.mem_append_right _ (List.mem_singleton.mpr rfl))

/-- One callback: its removals return and erase the entries of the removed sockets. -/
theorem Sim.removals {n : Nat} : ∀ (socks : List Nat) (self : PollerMt C) (z : List (Entry C))
    (log : List (Ev C)), Sim self z n →
    (∀ sock rest, socks = sock :: rest → ∀ e ∈ removeEntry z sock, e.1.live = true) →
    (z.map Prod.snd).Nodup → LogInv z log → RemovesRegistered (removals self log socks).2 →
    ∃ self' log', CPoller.removals self log socks = (.ret self', log') ∧
      Sim self' (socks.foldl removeEntry z) n ∧ LogInv (socks.foldl removeEntry z) log' ∧
      called log' = called log := by
  intro socks
  induction socks with
  | nil => intro self z log h _ _ hlog _; exact ⟨self, log, rfl, h, hlog, rfl⟩
  | cons sock socks ih =>
    intro self z log h hlive hnd hlog hreg
    have hlive' := hlive sock socks rfl
    obtain ⟨c, self', hc, hrem, hsim, hgone⟩ := h.remove hlive' hnd hreg.entryOf
    rw [CPoller.removals, hc, hrem] at hreg
    -- after the first removal no item carries the tag
    obtain ⟨self'', log'', hrun, hsim', hlog', hcalled⟩ := ih self' (removeEntry z sock) _ hsim
      (fun sock' _ _ e he => hlive' e ((removeEntry_sublist _ sock').subset he))
      (((removeEntry_sublist z sock).map Prod.snd).nodup hnd) (hlog.removed hgone) hreg
    refine ⟨self'', log'', ?_, hsim', hlog', ?_⟩
    · rw [CPoller.removals, hc, hrem]
      exact hrun
    · rw [hcalled, called_append]
      exact List.append_nil _

/-- Removals of registered sockets return, whatever items the compaction drops, and misaligned tables
    stay misaligned. -/
theorem Held.removals {n : Nat} : ∀ (socks : List Nat) (self : PollerMt C) (cs : List (Closure C))
    (log : List (Ev C)), Held self cs n → RemovesRegistered (removals self log socks).2 →
    ∃ self' log' cs', CPoller.removals self log socks = (.ret self', log') ∧ Held self' cs' n ∧
      (self.poller.count < cs.length → self'.poller.count < cs'.length) ∧
      (LogWf log → LogWf log') ∧ called log' = called log := by
  intro socks
  induction socks with
  | nil => intro self cs log h _; exact ⟨self, log, cs, rfl, h, id, id, rfl⟩
  | cons sock socks ih =>
    intro self cs log h hreg
    obtain ⟨i, c, self', hi, hc, -, hrem, hheld, hact⟩ := h.remove hreg.entryOf
    have hlt : self.poller.count < cs.length → self'.poller.count < (cs.eraseIdx i).length := by
      intro hlt
      obtain ⟨hic, -⟩ := List.getElem?_eq_some_iff.mp hc
      have hfilter := List.length_filter_le Pollitem.live (self.poller.active.eraseIdx i)
      rw [← hact, hheld.wf.active_length,
        List.length_eraseIdx_of_lt (findIdx?_split hi).1, h.wf.active_length] at hfilter
      have hpos := (findIdx?_split hi).1
      rw [h.wf.active_length] at hpos
      rw [List.length_eraseIdx_of_lt hic]
      omega
    rw [CPoller.removals, hrem] at hreg
    obtain ⟨self'', log', cs', hrun, hheld', hmis, hlog, hcalled⟩ := ih self' _ _ hheld hreg
    refine ⟨self'', log', cs', ?_, hheld', fun h => hmis (hlt h), fun h => hlog (h.removed sock _), ?_⟩
    · rw [CPoller.removals, hrem]
      exact hrun
    · rw [hcalled, called_append]
      exact List.append_nil _

/-! ## One round -/

/-- A round of the loop that finds a callback. -/
theorem pollLoop_call {act : List (Closure C) → List Nat} {k : Nat} {self : PollerMt C}
    {log : List (Ev C)} {id : Int} {revents : Int16} {p : ZMQPoller} {c : Closure C}
    (hnext : luazmqPlrNextReventsIdx self.poller = .ok (id, revents, p))
    (hget : self.callbacks.get id = some c) :
    pollLoop act (k + 1) self log =
      match removals { self with poller := p } (log ++ [.call c revents]) (act (called log ++ [c])) with
      | (.ret self, log) => pollLoop act k self log
      | (.raise self, log) => (.raise self, log)
      | (.crash f, log) => (.crash f, log) := by
  rw [pollLoop, hnext]
  simp only
  rw [hget]

/-- If a loop removes registered sockets only, so does its first callback. -/
theorem RemovesRegistered.of_call {act : List (Closure C) → List Nat} {k : Nat} {self : PollerMt C}
    {log : List (Ev C)} {id : Int} {revents : Int16} {p : ZMQPoller} {c : Closure C}
    (h : RemovesRegistered (pollLoop act (k + 1) self log).2)
    (hnext : luazmqPlrNextReventsIdx self.poller = .ok (id, revents, p))
    (hget : self.callbacks.get id = some c) :
    RemovesRegistered (removals { self with poller := p } (log ++ [.call c revents])
      (act (called log ++ [c]))).2 := by
  rw [pollLoop_call hnext hget] at h
  generalize removals { self with poller := p } (log ++ [.call c revents])
    (act (called log ++ [c])) = r at h ⊢
  obtain ⟨o, log'⟩ := r
  cases o with
  | ret self' => exact h.mono (prefix_pollLoop act k self' log')
  | raise self' => exact h
  | crash f => exact h

end Lzmq.CPoller
