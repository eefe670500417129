/-
  When a dispatch of the C poller serves every ready registration once.

    * While no removal drops an item that carries the free tag (`TagsAside`), the loop simulates
      `Drain.drain` on the list of entries (item, callback), and a dispatch does what it should iff the
      removals spare the places below the cursor (`Spared`).
    * Otherwise a removal shifts C and Lua differently while rounds are still owed, and the dispatch ends,
      if it returns, with misaligned tables.
  Both conditions speak of the entries at the start and of what the callbacks remove, in the order in
  which the ready entries are due.
-/
import Lzmq.CPoller.Dispatch

namespace Lzmq.CPoller

open Lzmq.Drain Lzmq.Registry

variable {C : Type}

/-! ## The condition -/

/-- The ready entries, in the order of the dispatch: from the last index to the first. -/
def order (s : Traced C) (out : ZmqPoll) : List (Entry C) := ((entries s out).filter Entry.ready).reverse

/-- Their callbacks. -/
def queue (s : Traced C) (out : ZmqPoll) : List (Closure C) := (order s out).map Prod.snd

/-- The sockets that the callbacks `cs` remove when they are called in this order, after `done`. -/
def socketsRemoved (act : List (Closure C) → List Nat) : List (Closure C) → List (Closure C) → List Nat
  | _, [] => []
  | done, c :: cs => act (done ++ [c]) ++ socketsRemoved act (done ++ [c]) cs

/-- If a callback other than the last removes anything, the first removal leaves no item with the free
    tag, the mask `0xFFFF`. -/
def TagsAside (s : Traced C) (out : ZmqPoll) (act : List (Closure C) → List Nat) : Prop :=
  ∀ sock socks, socketsRemoved act [] (queue s out).dropLast = sock :: socks →
    ∀ e ∈ removeEntry (entries s out) sock, e.1.live = true

/-- When a callback other than the last is done, the ready items at the indices below its own are those
    that are still to be served. -/
def Spared (s : Traced C) (out : ZmqPoll) (act : List (Closure C) → List Nat) : Prop :=
  ∀ pre e post, order s out = pre ++ e :: post → post ≠ [] →
    ∀ i, (left (removeEntries act) [] pre (entries s out))[i]? = some e →
      readyBelow Entry.ready (left (removeEntries act) [] (pre ++ [e]) (entries s out)) i = post.reverse

/-- The tables are misaligned: Lua holds more callbacks than C has items. -/
def Misaligned (self : PollerMt C) : Prop :=
  ∃ cs, self.callbacks.Holds cs ∧ self.poller.count < cs.length

/-! ## The loop drains the entries -/

theorem foldl_removeEntry_sublist (socks : List Nat) (z : List (Entry C)) :
    (socks.foldl removeEntry z).Sublist z := by
  induction socks generalizing z with
  | nil => exact List.Sublist.refl z
  | cons sock socks ih => exact (ih _).trans (removeEntry_sublist z sock)

theorem removeEntries_sublist (act : List (Closure C) → List Nat) (served z : List (Entry C)) :
    (removeEntries act served z).Sublist z := foldl_removeEntry_sublist _ z

/-- Removing entries is the shrinking that `Lzmq.Drain` asks for. -/
theorem removeEntries_shrinks (act : List (Closure C) → List Nat) : Shrinks (removeEntries act) := by
  intro served A B
  rw [removeEntries]
  generalize act (served.map Prod.snd) = socks
  suffices h : ∀ A' B' : List (Entry C), A'.Sublist A → B'.Sublist B → ∃ A'' B'',
      socks.foldl removeEntry (A' ++ B') = A'' ++ B'' ∧ A''.Sublist A ∧ B''.Sublist B from
    h A B (List.Sublist.refl A) (List.Sublist.refl B)
  induction socks with
  | nil => exact fun A' B' hA hB => ⟨A', B', rfl, hA, hB⟩
  | cons sock socks ih =>
    intro A' B' hA hB
    rw [List.foldl_cons]
    by_cases hex : ∃ e ∈ A', (PollKey.socket sock).test e.1 = true
    · obtain ⟨e, he, ht⟩ := hex
      rw [removeEntry, List.eraseP_append_left (p := fun e => (PollKey.socket sock).test e.1) ht B' he]
      exact ih _ _ (List.eraseP_sublist.trans hA) hB
    · rw [removeEntry, List.eraseP_append_right]
      · exact ih _ _ hA (List.eraseP_sublist.trans hB)
      · exact fun e he ht => hex ⟨e, he, ht⟩

/-- What a loop shows of the drain it simulates: it returns what was served, and where the drain runs
    dry it calls an absent entry. -/
structure Shows (d : Option (List (Entry C) × List (Entry C)))
    (r : Outcome (PollerMt C) × List (Ev C)) : Prop where
  dry : d = none → Ev.absent (-1) ∈ r.2
  served : ∀ x, d = some x → ∃ self log, r = (.ret self, log) ∧ called log = x.1.map Prod.snd ∧ LogWf log

/-- **Simulation.**  With live items the loop drains the entries. -/
theorem pollLoop_drain (act : List (Closure C) → List Nat) : ∀ (k : Nat) (self : PollerMt C)
    (z : List (Entry C)) (n : Nat) (log : List (Ev C)) (served : List (Entry C)), Sim self z n →
    (∀ e ∈ z, e.1.live = true) → (z.map Prod.snd).Nodup → LogInv z log →
    called log = served.map Prod.snd → RemovesRegistered (pollLoop act k self log).2 →
    Shows (drain Entry.ready (removeEntries act) k z n served) (pollLoop act k self log) := by
  intro k
  induction k with
  | zero =>
    intro self z n log served _ _ _ hlog hcalled _
    refine ⟨fun h => (by cases h), fun x h => ?_⟩
    rw [drain, Option.some.injEq] at h
    rw [← h]
    exact ⟨self, log, rfl, hcalled, hlog.toLogWf⟩
  | succ k ih =>
    intro self z n log served h hlive hnd hlog hcalled hreg
    rcases h.nextReventsIdx with ⟨hlast, p, hnext⟩ | ⟨i, e, p, hlast, hnext, hsim⟩
    · rw [drain, hlast, pollLoop, hnext]
      simp only
      rw [h.holds.get_neg (by decide)]
      exact ⟨fun _ => List.mem_append_right _ (List.mem_singleton.mpr rfl), fun x hx => by cases hx⟩
    · obtain ⟨-, hget, -⟩ := lastReady_some hlast
      have hcall : self.callbacks.get i = some e.2 := by
        rw [h.holds.get_nat, List.getElem?_map, hget]; rfl
      have hserved : called log ++ [e.2] = (served ++ [e]).map Prod.snd := by
        rw [hcalled, List.map_append]; rfl
      have hsub := removeEntries_sublist act (served ++ [e]) z
      have hreg' := hreg.of_call hnext hcall
      rw [pollLoop_call hnext hcall] at hreg ⊢
      rw [hserved] at hreg hreg' ⊢
      obtain ⟨self', log', hrun, hsim', hlog', hcalled'⟩ := Sim.removals _ _ z _ hsim
        (fun sock _ _ x hx => hlive x ((removeEntry_sublist z sock).subset hx)) hnd
        (hlog.call (List.mem_of_getElem? hget) e.1.revents) hreg'
      rw [hrun] at hreg ⊢
      rw [drain, hlast]
      refine ih self' _ i log' (served ++ [e]) hsim' (fun x hx => hlive x (hsub.subset hx))
        ((hsub.map Prod.snd).nodup hnd) hlog' ?_ hreg
      rw [hcalled', called_append, ← hserved]
      rfl

/-! ## Items with the free tag -/

/-- The callbacks of the ready entries below the cursor, in the order of the dispatch. -/
def waiting (z : List (Entry C)) (n : Nat) : List (Closure C) :=
  (readyBelow Entry.ready z n).reverse.map Prod.snd

/-- `TagsAside` in the middle of a dispatch that has removed nothing yet. -/
def AsideBelow (act : List (Closure C) → List Nat) (z : List (Entry C)) (n : Nat)
    (done : List (Closure C)) : Prop :=
  ∀ sock socks, socketsRemoved act done (waiting z n).dropLast = sock :: socks →
    ∀ e ∈ removeEntry z sock, e.1.live = true

theorem waiting_cons {z : List (Entry C)} {n i : Nat} {e : Entry C}
    (h : readyBelow Entry.ready z n = readyBelow Entry.ready z i ++ [e]) :
    waiting z n = e.2 :: waiting z i := by
  rw [waiting, waiting, h, List.reverse_append]
  rfl

theorem length_waiting (z : List (Entry C)) (n : Nat) :
    (waiting z n).length = (readyBelow Entry.ready z n).length := by
  rw [waiting, List.length_map, List.length_reverse]

/-- The sockets removed by the next callback come first. -/
theorem socketsRemoved_waiting (act : List (Closure C) → List Nat) {z : List (Entry C)} {n i k : Nat}
    {e : Entry C} (h : readyBelow Entry.ready z n = readyBelow Entry.ready z i ++ [e])
    (hk : (readyBelow Entry.ready z i).length = k + 1) (done : List (Closure C)) :
    socketsRemoved act done (waiting z n).dropLast =
      act (done ++ [e.2]) ++ socketsRemoved act (done ++ [e.2]) (waiting z i).dropLast := by
  have hne : waiting z i ≠ [] := by
    intro hnil
    rw [← length_waiting, hnil] at hk
    cases hk
  rw [waiting_cons h, List.dropLast_cons_of_ne_nil hne, socketsRemoved]

/-- A dispatch with the tags aside drains the entries too: before the first removal nothing changes, and
    after it all items are live.  The removals of the last callback are the end of the dispatch. -/
theorem pollLoop_aside (act : List (Closure C) → List Nat) : ∀ (k : Nat) (self : PollerMt C)
    (z : List (Entry C)) (n : Nat) (log : List (Ev C)) (served : List (Entry C)), Sim self z n →
    (readyBelow Entry.ready z n).length = k → AsideBelow act z n (served.map Prod.snd) →
    (z.map Prod.snd).Nodup → LogInv z log → called log = served.map Prod.snd →
    RemovesRegistered (pollLoop act k self log).2 →
    Shows (drain Entry.ready (removeEntries act) k z n served) (pollLoop act k self log) := by
  intro k
  induction k with
  | zero =>
    intro self z n log served _ _ _ _ hlog hcalled _
    refine ⟨fun h => (by cases h), fun x h => ?_⟩
    rw [drain, Option.some.injEq] at h
    rw [← h]
    exact ⟨self, log, rfl, hcalled, hlog.toLogWf⟩
  | succ k ih =>
    intro self z n log served h hk haside hnd hlog hcalled hreg
    obtain ⟨i, e, p, hnext, hsim, hget, hcall, hlast, hbelow, hk⟩ := h.nextReady hk
    have hlog' := hlog.call (List.mem_of_getElem? hget) e.1.revents
    have hserved : called log ++ [e.2] = (served ++ [e]).map Prod.snd := by
      rw [hcalled, List.map_append]; rfl
    have hcalled' : called (log ++ [Ev.call e.2 e.1.revents]) = (served ++ [e]).map Prod.snd := by
      rw [called_append, ← hserved]; rfl
    have hreg' := hreg.of_call hnext hcall
    rw [pollLoop_call hnext hcall] at hreg ⊢
    rw [hserved] at hreg hreg' ⊢
    rw [drain, hlast]
    cases k with
    | zero =>
      obtain ⟨self', log', cs, hrun, -, -, hwf, hsame⟩ := Held.removals _ _ _ _ hsim.held hreg'
      rw [hrun]
      refine ⟨fun h => (by cases h), fun x hx => ?_⟩
      simp only [drain, Option.some.injEq] at hx
      rw [← hx]
      exact ⟨self', log', rfl, hsame.trans hcalled', hwf hlog'.toLogWf⟩
    | succ k =>
      rw [AsideBelow, ← hcalled, socketsRemoved_waiting act hbelow hk, hserved] at haside
      cases hact : act ((served ++ [e]).map Prod.snd) with
      | nil =>
        -- nothing removed
        rw [hact] at hreg haside
        simp only [removeEntries, hact, List.foldl_nil]
        exact ih _ z i _ (served ++ [e]) hsim hk haside hnd hlog' hcalled' hreg
      | cons sock socks =>
        rw [hact] at hreg hreg' haside
        have hlive := haside sock _ rfl
        obtain ⟨self', log', hrun, hsim', hinv, hsame⟩ := Sim.removals _ _ z _ hsim
          (fun sock' rest heq => by rw [← (List.cons.inj heq).1]; exact hlive) hnd hlog' hreg'
        have hsub := removeEntries_sublist act (served ++ [e]) z
        have hleft : removeEntries act (served ++ [e]) z = (sock :: socks).foldl removeEntry z := by
          rw [removeEntries, hact]
        have hlive' : ∀ x ∈ removeEntries act (served ++ [e]) z, x.1.live = true := by
          intro x hx
          rw [hleft, List.foldl_cons] at hx
          exact hlive x ((foldl_removeEntry_sublist socks _).subset hx)
        rw [hrun] at hreg ⊢
        rw [← hleft] at hsim' hinv
        exact pollLoop_drain act _ self' _ i log' (served ++ [e]) hsim' hlive'
          ((hsub.map Prod.snd).nodup hnd) hinv (hsame.trans hcalled') hreg

/-- Misaligned tables stay misaligned to the end of the dispatch. -/
theorem pollLoop_misaligned (act : List (Closure C) → List Nat) : ∀ (k : Nat) (self : PollerMt C)
    (cs : List (Closure C)) (n : Nat) (log : List (Ev C)), Held self cs n →
    self.poller.count < cs.length → RemovesRegistered (pollLoop act k self log).2 →
    ∀ self' log', pollLoop act k self log = (.ret self', log') → Misaligned self' := by
  intro k
  induction k with
  | zero =>
    intro self cs n log h hlt _ self' log' hret
    obtain ⟨hself, -⟩ := Prod.mk.inj hret
    cases hself
    exact ⟨cs, h.holds, hlt⟩
  | succ k ih =>
    intro self cs n log h hlt hreg self' log' hret
    rcases h.toAtCursor.nextReventsIdx with ⟨-, p, hnext⟩ | ⟨i, it, p, -, hi, hnext, hat, -, hcount⟩
    · rw [pollLoop, hnext] at hret
      simp only at hret
      rw [h.holds.get_neg (by decide)] at hret
      cases hret
    · have hget : cs[i]? = some cs[i] := List.getElem?_eq_getElem (Nat.lt_trans hi hlt)
      have hcall : self.callbacks.get i = some cs[i] := by rw [h.holds.get_nat, hget]
      have hreg' := hreg.of_call hnext hcall
      have hheld : Held { self with poller := p } cs i := ⟨hat, h.holds, Nat.le_of_lt (hcount ▸ hlt)⟩
      obtain ⟨self'', log'', cs', hrun, hheld', hmis, -, -⟩ := Held.removals _ _ _ _ hheld hreg'
      rw [pollLoop_call hnext hcall, hrun] at hreg hret
      exact ih self'' cs' i log'' hheld' (hmis (hcount ▸ hlt)) hreg self' log' hret

/-- A dispatch in which a callback but the last drops a tag ends with misaligned tables. -/
theorem pollLoop_tagged (act : List (Closure C) → List Nat) : ∀ (k : Nat) (self : PollerMt C)
    (z : List (Entry C)) (n : Nat) (log : List (Ev C)), Sim self z n →
    (readyBelow Entry.ready z n).length = k → ¬ AsideBelow act z n (called log) →
    RemovesRegistered (pollLoop act k self log).2 →
    ∀ self' log', pollLoop act k self log = (.ret self', log') → Misaligned self' := by
  intro k
  induction k with
  | zero =>
    intro self z n log _ hk haside _
    refine absurd (fun sock socks heq => ?_) haside
    rw [waiting, List.length_eq_zero_iff.mp hk] at heq
    cases heq
  | succ k ih =>
    intro self z n log h hk haside hreg self' log' hret
    obtain ⟨i, e, p, hnext, hsim, hget, hcall, -, hbelow, hk⟩ := h.nextReady hk
    have hcalled : called (log ++ [Ev.call e.2 e.1.revents]) = called log ++ [e.2] := by
      rw [called_append]; rfl
    have hreg' := hreg.of_call hnext hcall
    rw [pollLoop_call hnext hcall] at hreg hret
    cases k with
    | zero =>
      refine absurd (fun sock socks heq => ?_) haside
      rw [waiting_cons hbelow, List.length_eq_zero_iff.mp ((length_waiting z i).trans hk)] at heq
      cases heq
    | succ k =>
      rw [AsideBelow, socketsRemoved_waiting act hbelow hk] at haside
      cases hact : act (called log ++ [e.2]) with
      | nil =>
        rw [hact] at hreg hret haside
        exact ih _ z i _ hsim hk (by rw [hcalled]; exact haside) hreg self' log' hret
      | cons sock socks =>
        rw [hact] at hreg hreg' hret haside
        -- the first removal of this callback is the first of all
        have htag : ¬ ∀ x ∈ removeEntry z sock, x.1.live = true := by
          intro hlive
          refine haside fun sock' rest heq => ?_
          rw [← (List.cons.inj heq).1]
          exact hlive
        obtain ⟨self₁, cs, hrem, hheld, hlt⟩ := hsim.remove_tagged htag hreg'.entryOf
        rw [removals, hrem] at hreg hreg' hret
        obtain ⟨self₂, log₂, cs', hrun, hheld', hmis, -, -⟩ := Held.removals _ _ _ _ hheld hreg'
        simp only [hrun] at hreg hret
        exact pollLoop_misaligned act _ self₂ cs' i log₂ hheld' (hmis hlt) hreg self' log' hret

/-! ## The start of a dispatch -/

variable {s : Traced C}

theorem length_entries (hs : TraceInv s) (out : ZmqPoll) : (entries s out).length = s.self.poller.count := by
  rw [entries, List.length_mapIdx, List.length_zip, hs.wf.active_length, hs.given, Nat.min_self]

theorem entries_fst (hs : TraceInv s) (out : ZmqPoll) : (entries s out).map Prod.fst =
    s.self.poller.active.mapIdx fun i it => { it with revents := out.revents i } := by
  have hfst : (s.self.poller.active.zip s.given).map Prod.fst = s.self.poller.active :=
    List.map_fst_zip (Nat.le_of_eq (by rw [hs.wf.active_length, hs.given]))
  conv_rhs => rw [← hfst]
  refine List.ext_getElem? fun i => ?_
  rw [entries, List.getElem?_map, List.getElem?_mapIdx, List.getElem?_mapIdx, List.getElem?_map,
    Option.map_map, Option.map_map]
  rfl

theorem entries_snd (hs : TraceInv s) (out : ZmqPoll) : (entries s out).map Prod.snd = s.given := by
  have hsnd : (s.self.poller.active.zip s.given).map Prod.snd = s.given :=
    List.map_snd_zip (Nat.le_of_eq (by rw [hs.wf.active_length, hs.given]))
  conv_rhs => rw [← hsnd]
  refine List.ext_getElem? fun i => ?_
  rw [entries, List.getElem?_map, List.getElem?_mapIdx, List.getElem?_map, Option.map_map]
  rfl

theorem readyBelow_entries (hs : TraceInv s) (out : ZmqPoll) :
    readyBelow Entry.ready (entries s out) s.self.poller.count = (entries s out).filter Entry.ready := by
  rw [readyBelow, ← length_entries hs out, List.take_length]

theorem length_ready_entries (hs : TraceInv s) (out : ZmqPoll) :
    ((entries s out).filter Entry.ready).length = readyCount s out := by
  rw [entries, length_ready_mapIdx _ Entry.ready (fun i => out.revents i != 0) (fun i e => rfl),
    List.length_zip, hs.wf.active_length, hs.given, Nat.min_self]
  rfl

theorem ready_of_given (hs : TraceInv s) {out : ZmqPoll} {i : Nat} {c : Closure C}
    (hc : s.given[i]? = some c) (hr : out.revents i ≠ 0) :
    c ∈ ((entries s out).filter Entry.ready).map Prod.snd := by
  rw [← entries_snd hs out, List.getElem?_map, Option.map_eq_some_iff] at hc
  obtain ⟨e, he, rfl⟩ := hc
  refine List.mem_map_of_mem (List.mem_filter.mpr ⟨List.mem_of_getElem? he, ?_⟩)
  rw [entries, List.getElem?_mapIdx, Option.map_eq_some_iff] at he
  obtain ⟨e₀, -, rfl⟩ := he
  exact bne_iff_ne.mpr hr

/-- After `zmq_poll` the tables hold the entries. -/
theorem sim_polled (hs : TraceInv s) (out : ZmqPoll) {q : ZMQPoller} {n : Nat} (hat : AtCursor q n)
    (hact : q.active = s.self.poller.active.mapIdx fun i it => { it with revents := out.revents i }) :
    Sim ⟨q, s.self.callbacks⟩ (entries s out) n where
  toAtCursor := hat
  active := hact.trans (entries_fst hs out).symm
  holds := by
    rw [entries_snd hs]
    exact hs.holds

/-- Such a poll runs the loop on the entries. -/
theorem poll_eq (hs : TraceInv s) {out : ZmqPoll} (hret : out.ret = readyCount s out)
    (act : List (Closure C) → List Nat) :
    ∃ self n, (readyCount s out = 0 ∨ n = s.self.poller.count) ∧ Sim self (entries s out) n ∧
      (s.self.poll out act).outcome = (pollLoop act (readyCount s out) self []).1 ∧
      (s.self.poll out act).log = (pollLoop act (readyCount s out) self []).2 := by
  obtain ⟨q, n, hn, hpoll, hat, hact⟩ := hs.wf.plrPoll_ready out hret
  refine ⟨⟨q, s.self.callbacks⟩, n, hn, sim_polled hs out hat hact, ?_, ?_⟩
  · rw [PollerMt.poll, hpoll]
    rfl
  · rw [PollerMt.poll, hpoll]
    rfl

/-! ## The exact condition -/

/-- A dispatch that calls the queue and returns does what it should. -/
theorem dispatchOk_of_queue (hs : TraceInv s) (hnd : s.given.Nodup) {out : ZmqPoll} {r : PollRun C}
    {self : PollerMt C} (hret : r.outcome = .ret self) (hlog : LogWf r.log)
    (hcalled : called r.log = queue s out) : DispatchOk s out r where
  returns := ⟨self, hret⟩
  present := hlog.present
  live := hlog.live
  once := by
    rw [hcalled, queue, order, List.map_reverse, List.nodup_reverse]
    rw [← entries_snd hs out] at hnd
    exact ((List.filter_sublist).map Prod.snd).nodup hnd
  served i c hc hr _ := by
    rw [hcalled, queue, order, List.map_reverse, List.mem_reverse]
    exact ready_of_given hs hc hr

/-- `Spared` is the condition of `Lzmq.Drain` on the entries. -/
theorem spared_iff (hs : TraceInv s) (out : ZmqPoll) (act : List (Closure C) → List Nat) :
    Spared s out act ↔
      Undisturbed Entry.ready (removeEntries act) (entries s out) s.self.poller.count [] := by
  rw [Undisturbed, readyBelow_entries hs out]
  exact Iff.rfl

/-- What a loop that simulates the drain of the entries shows: it does what it should iff the removals
    spare the places below the cursor. -/
theorem dispatchOk_iff_spared (hs : TraceInv s) (hnd : s.given.Nodup) {out : ZmqPoll}
    {act : List (Closure C) → List Nat} {r : PollRun C}
    (h : Shows (drain Entry.ready (removeEntries act) (readyCount s out) (entries s out)
      s.self.poller.count []) (r.outcome, r.log)) :
    DispatchOk s out r ↔ Spared s out act := by
  have hready := length_ready_entries hs out
  have hbelow := readyBelow_entries hs out
  have hnd' : ((entries s out).map Prod.snd).Nodup := by rw [entries_snd hs]; exact hnd
  rw [spared_iff hs]
  constructor
  · intro hok
    cases hdrain : drain Entry.ready (removeEntries act) (readyCount s out) (entries s out)
        s.self.poller.count [] with
    | none => exact absurd (h.dry hdrain) (hok.present (-1))
    | some x =>
      obtain ⟨self, log, hr, hcalled, -⟩ := h.served x hdrain
      have honce := hok.once
      rw [(Prod.mk.inj hr).2, hcalled] at honce
      refine undisturbed_of_drain (removeEntries_shrinks act) _ _ _ _ x hnd'.of_map ?_
        (by rw [hbelow, hready]) hdrain honce.of_map
      -- at the start there is nothing above the cursor
      intro e he
      rw [List.drop_eq_nil_of_le (Nat.le_of_eq (length_entries hs out))] at he
      exact absurd he List.not_mem_nil
  · intro hu
    obtain ⟨l', hdrain⟩ := drain_of_undisturbed (removeEntries_shrinks act) _ _ _ _ hnd'.of_map
      (by rw [hbelow, hready]) hu
    obtain ⟨self, log, hr, hcalled, hwf⟩ := h.served _ hdrain
    obtain ⟨hret, hlog⟩ := Prod.mk.inj hr
    refine dispatchOk_of_queue hs hnd hret (by rw [hlog]; exact hwf) ?_
    rw [hlog, hcalled, hbelow]
    rfl

/-- **Dispatch.**  From aligned tables, with callbacks that remove registered sockets only: while the
    removals of all callbacks but the last put the free tags aside, a dispatch does what it should iff
    they spare the places below the cursor; otherwise it ends, if it returns, with misaligned tables. -/
theorem poll_dispatchOk (hs : TraceInv s) (hnd : s.given.Nodup) (out : ZmqPoll)
    (hret : out.ret = readyCount s out) (act : List (Closure C) → List Nat)
    (hreg : RemovesRegistered (s.self.poll out act).log) :
    (TagsAside s out act → (DispatchOk s out (s.self.poll out act) ↔ Spared s out act)) ∧
    (¬ TagsAside s out act → ∀ self, (s.self.poll out act).outcome = .ret self → Misaligned self) := by
  obtain ⟨self, n, hn, hsim, houtcome, hlog⟩ := poll_eq hs hret act
  rw [hlog] at hreg
  have hready := length_ready_entries hs out
  have hnd' : ((entries s out).map Prod.snd).Nodup := by rw [entries_snd hs]; exact hnd
  rcases hn with hzero | rfl
  · -- nothing is ready: nothing is called
    have hnone : (entries s out).filter Entry.ready = [] := List.length_eq_zero_iff.mp (hready.trans hzero)
    refine ⟨fun _ => dispatchOk_iff_spared hs hnd ?_, fun htag => absurd (fun sock socks heq => ?_) htag⟩
    · rw [houtcome, hlog, hzero]
      refine ⟨fun h => (by cases h), fun x hx => ?_⟩
      rw [drain, Option.some.injEq] at hx
      rw [← hx]
      exact ⟨self, [], rfl, rfl, (logInv_nil []).toLogWf⟩
    · rw [queue, order, hnone] at heq
      cases heq
  have hbelow := readyBelow_entries hs out
  have hk : (readyBelow Entry.ready (entries s out) s.self.poller.count).length = readyCount s out := by
    rw [hbelow, hready]
  have haside : TagsAside s out act ↔ AsideBelow act (entries s out) s.self.poller.count [] := by
    rw [AsideBelow, waiting, hbelow]
    exact Iff.rfl
  constructor
  · intro h
    refine dispatchOk_iff_spared hs hnd ?_
    rw [houtcome, hlog]
    exact pollLoop_aside act _ self _ _ [] [] hsim hk (haside.mp h) hnd' (logInv_nil _) rfl hreg
  · intro h self' hret'
    rw [houtcome] at hret'
    exact pollLoop_tagged act _ self _ _ [] hsim hk (fun h' => h (haside.mpr h')) hreg self' _
      (Prod.ext hret' rfl)

/-! ## Two and three sockets -/

/-- Registering sockets keeps the tables aligned. -/
theorem traceInv_adds {n : Nat} {calls : List (Call C)} (hadd : ∀ c ∈ calls, ∃ sock events cb,
    c = .add sock events cb) {s : Traced C} (hrun : Steps.run traceStep (traceInit n) calls = some s) :
    TraceInv s := by
  refine Steps.run_invariant_of traceStep (P := fun c => ∃ sock events cb, c = .add sock events cb)
    ?_ calls (traceInit n) s hadd (traceInv_init n) hrun
  rintro t _ t' ⟨sock, events, cb, rfl⟩ ht hstep
  obtain ⟨u, hu, hw, ha⟩ := add_traceStep ht sock events cb
  obtain rfl : u = t' := Option.some.inj (hu.symm.trans hstep)
  exact ⟨hw, (aligned_iff_holds hw).mp ha⟩

/-- A poller with the sockets 1 and 2 registered for input. -/
def twoSockets : Traced Unit :=
  (Steps.run traceStep (traceInit 10) [.add 1 1 (some ()), .add 2 1 (some ())]).get (by decide)

/-- A third socket, registered with the mask -1: its item carries the free tag. -/
def threeSockets : Traced Unit :=
  (Steps.run traceStep (traceInit 10)
    [.add 1 1 (some ()), .add 2 1 (some ()), .add 3 (-1) (some ())]).get (by decide)

theorem traceInv_threeSockets : TraceInv threeSockets := by
  have hrun : Steps.run traceStep (traceInit 10)
      [.add 1 1 (some ()), .add 2 1 (some ()), .add 3 (-1) (some ())] = some threeSockets :=
    (Option.some_get _).symm
  exact traceInv_adds (by simp) hrun

/-- The sockets 1 and 2 are ready. -/
def bothReady : ZmqPoll := ⟨2, fun i => if i < 2 then 1 else 0⟩

/-- The first callback removes socket 3, whose item is above the cursor and carries the tag: both ready
    registrations are served once. -/
theorem poll_dispatchOk_above : DispatchOk threeSockets bothReady
    (threeSockets.self.poll bothReady fun served => if served.length = 1 then [3] else []) := by
  refine ((poll_dispatchOk traceInv_threeSockets (by decide) bothReady (by decide) _ ?_).1 ?_).mpr ?_
  · intro sock hmem
    rw [show (threeSockets.self.poll bothReady fun served => if served.length = 1 then [3] else []).log =
      [.call ⟨2, ()⟩ 1, .removed 3 (some ⟨3, ()⟩), .call ⟨1, ()⟩ 1] from by decide] at hmem
    simp at hmem
  · intro sock socks heq
    rw [show socketsRemoved (fun served => if served.length = 1 then [3] else []) []
      (queue threeSockets bothReady).dropLast = [3] from by decide] at heq
    obtain ⟨rfl, -⟩ := List.cons.inj heq
    decide
  · intro pre e post hsplit hpost i hi
    rw [show order threeSockets bothReady = [(⟨.handle 2, 0, 1, 1⟩, ⟨2, ()⟩), (⟨.handle 1, 0, 1, 1⟩, ⟨1, ()⟩)]
      from by decide] at hsplit
    rcases pre with _ | ⟨x, _ | ⟨y, pre⟩⟩
    · obtain ⟨rfl, rfl⟩ := List.cons.inj hsplit
      -- the entry of socket 2 is at index 1
      rcases i with _ | _ | _ | i
      · exact absurd hi (by decide)
      · decide
      · exact absurd hi (by decide)
      · exact absurd hi (by simp [left, show (entries threeSockets bothReady).length = 3 from by decide])
    · obtain ⟨-, hrest⟩ := List.cons.inj hsplit
      exact absurd (List.cons.inj hrest).2.symm hpost
    · simp at hsplit

/-- Socket 2 is dispatched first and removes socket 1: its item moves down under the cursor and its
    callback runs a second time. -/
theorem not_dispatchOk_removed_below : ∃ act : List (Closure Unit) → List Nat,
    bothReady.ret = readyCount twoSockets bothReady ∧ twoSockets.given.Nodup ∧
    RemovesRegistered (twoSockets.self.poll bothReady act).log ∧
    ¬ DispatchOk twoSockets bothReady (twoSockets.self.poll bothReady act) := by
  refine ⟨fun served => if served.length = 1 then [1] else [], by decide, by decide, ?_, fun hok => ?_⟩
  · intro sock hmem
    rw [show (twoSockets.self.poll bothReady fun served => if served.length = 1 then [1] else []).log =
      [.call ⟨2, ()⟩ 1, .removed 1 (some ⟨1, ()⟩), .call ⟨2, ()⟩ 1] from by decide] at hmem
    simp at hmem
  · exact absurd hok.once (by decide)

end Lzmq.CPoller
