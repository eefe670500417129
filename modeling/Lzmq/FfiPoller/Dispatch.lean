/-
  Dispatch in the FFI poller: `Poller:poll`.

  After `zmq_poll` the loop walks the item array downwards, from the `nitems` it had before the first
  callback, and calls the callback that the table `sockets` has for the key it finds at each position
  with nonzero `revents`.  A callback may remove registrations: `remove` copies the socket of the last
  item into the hole but leaves the `revents` there, so a socket may be found at a position that was
  reported ready for another one.

  Each position of the walk is one step of `scanStep`.  The invariant `Arr` says where a registered
  socket can be found: always still at its first position (`home`), and besides that only at lower ones
  (`fromAbove`).  `InPlace` is the condition on a step: the socket found is the one reported ready there,
  or is no longer registered.  `poll_dispatchOk_iff` shows that a dispatch does what it should iff every
  step meets it.
-/
import Lzmq.FfiPoller.Registry

namespace Lzmq.FfiPoller

open Lzmq.Steps Lzmq.Positions

variable {C : Type}

/-! ## The loop -/

/-- A callback is called, for the registration of a key, or it removes a key. -/
inductive Ev (C : Type)
  | call (k : Key) (cb : C) (revents : Int16)
  | removed (k : Key)
deriving DecidableEq

/-- The key an event calls the callback of. -/
def Ev.calls : Ev C → Option Key
  | .call k _ _ => some k
  | .removed _ => none

def called (log : List (Ev C)) : List Key := log.filterMap Ev.calls

/-- The removals a callback makes. -/
def removals (self : Poller C) (log : List (Ev C)) : List Pollee → Except Err (Poller C × List (Ev C))
  | [] => .ok (self, log)
  | skt :: skts =>
    match self.remove skt with
    | .error e => .error e
    | .ok self => removals self (log ++ [.removed (skt2id (getSocket skt))]) skts

/-- The state of the loop: the poller, what was called and removed, and the count `n`. -/
structure Scan (C : Type) where
  self : Poller C
  log : List (Ev C)
  n : Nat

/-- One position of `for i = nitems-1, 0, -1`.  `act` says what a callback removes, from the keys whose
    callbacks were called so far and its own. -/
def scanStep (act : List Key → List Pollee) (s : Scan C) (i : Nat) : Option (Scan C) :=
  match s.self.items[i]? with
  | none => none
  | some item =>
    if item.revents ≠ 0 then
      match s.self.sockets (item2id item) with
      | none => some { s with n := s.n + 1 }
      | some params =>
        match removals s.self (s.log ++ [.call (item2id item) params.cb item.revents])
            (act (called s.log ++ [item2id item])) with
        | .error _ => none
        | .ok (self, log) => some ⟨self, log, s.n + 1⟩
    else some s

/-- `zmq_poll` writes the `revents` of the items it was given. -/
def setRevents (items : List Item) (nitems : Nat) (revents : Nat → Int16) : List Item :=
  items.mapIdx fun i it => if i < nitems then { it with revents := revents i } else it

/-- The loop before its first position. -/
def scanInit (self : Poller C) (revents : Nat → Int16) : Scan C :=
  ⟨{ self with items := setRevents self.items self.nitems revents }, [], 0⟩

/-- The positions of the loop. -/
def positions (nitems : Nat) : List Nat := (List.range nitems).reverse

/-- `Poller:poll`, for what `zmq_poll` returns and the `revents` it leaves: the count returned (nil for a
    failed poll) and the final state; `none` when an error is raised. -/
def Poller.poll (self : Poller C) (ret : Int) (revents : Nat → Int16) (act : List Key → List Pollee) :
    Option (Option Nat × Scan C) :=
  if ret = -1 then some (none, scanInit self revents)
  else (run (scanStep act) (scanInit self revents) (positions self.nitems)).map fun s => (some s.n, s)

/-! ## What a dispatch should do -/

/-- The property of one dispatch from the state `s`. -/
structure DispatchOk (s : Traced C) (revents : Nat → Int16) (t : Scan C) : Prop where
  /-- No callback runs twice, -/
  once : (called t.log).Nodup
  /-- each runs with the events reported for its own socket, -/
  own : ∀ k cb r, Ev.call k cb r ∈ t.log →
    ∃ i : Nat, s.self.keys[i]? = some k ∧ s.self.cbOf k = some cb ∧ revents i = r
  /-- every ready registration that is not removed is served, -/
  served : ∀ (i : Nat) (k : Key), s.self.keys[i]? = some k → revents i ≠ 0 → Ev.removed k ∉ t.log →
    k ∈ called t.log
  /-- and no removed one. -/
  live : t.log.Pairwise fun a b => ∀ k, a = .removed k → b.calls ≠ some k

/-- The condition on the step at position `i`: a registered socket found there with pending events is
    the one that was there when the poll started. -/
def InPlace (keys : List Key) (s : Scan C) (i : Nat) : Prop :=
  ∀ item, s.self.items[i]? = some item → item.revents ≠ 0 → s.self.cbOf (item2id item) ≠ none →
    keys[i]? = some (item2id item)

/-! ## Where a registered socket is found -/

/-- The array during a dispatch that started with the keys `keys`. -/
structure Arr (keys : List Key) (revents : Nat → Int16) (p : Poller C) : Prop where
  cap : p.Cap
  indexed : Indexed p.keys p.pos
  nodup : p.keys.Nodup
  nitems : p.nitems ≤ keys.length
  /-- a registered socket is still at its first position, -/
  home : ∀ (q : Nat) (k : Key), keys[q]? = some k → p.cbOf k ≠ none →
    ∃ item, p.items[q]? = some item ∧ item2id item = k
  /-- and otherwise only below it; -/
  fromAbove : ∀ (q : Nat) (item : Item), q < keys.length → p.items[q]? = some item →
    p.cbOf (item2id item) ≠ none → ∃ m : Nat, q ≤ m ∧ keys[m]? = some (item2id item)
  /-- `revents` stay where `zmq_poll` wrote them. -/
  revents : ∀ q < keys.length, ∃ item, p.items[q]? = some item ∧ item.revents = revents q

theorem cbOf_eq_none {p : Poller C} {k : Key} : p.cbOf k = none ↔ p.pos k = none := by
  rw [Poller.cbOf, Poller.pos, Option.map_eq_none_iff, Option.map_eq_none_iff]

/-- What is still registered without `k`. -/
theorem registered_of_update {f : Key → Option C} {k j : Key} (h : Function.update f k none j ≠ none) :
    j ≠ k ∧ f j ≠ none := by
  by_cases hjk : j = k
  · rw [hjk, Function.update_self] at h
    exact absurd rfl h
  · rw [Function.update_of_ne hjk] at h
    exact ⟨hjk, h⟩

/-- The last item is removed: the array is not written. -/
theorem Arr.shrink_last {keys : List Key} {revents : Nat → Int16} {p p' : Poller C} (h : Arr keys revents p)
    {k : Key} (hpos : p.pos k = some (p.nitems - 1)) (hcap : p'.Cap) (hn : p'.nitems = p.nitems - 1)
    (hitems : p'.items = p.items) (hkeys : p'.keys = p.keys.take (p.nitems - 1))
    (hpos' : p'.pos = Function.update p.pos k none) (hcb : p'.cbOf = Function.update p.cbOf k none) :
    Arr keys revents p' := by
  have hlen := Poller.length_keys h.cap
  have hone : p.keys.count k = 1 :=
    List.count_eq_one_of_mem h.nodup (List.mem_of_getElem? (h.indexed.sound k _ hpos))
  refine ⟨hcap, ?_, ?_, ?_, ?_, ?_, ?_⟩
  · rw [hkeys, hpos', ← hlen]
    exact h.indexed.dropLast (by rw [hlen]; exact hpos) hone
  · rw [hkeys]
    exact (List.take_sublist _ _).nodup h.nodup
  · have := h.nitems
    omega
  · intro q j hj hreg
    rw [hcb] at hreg
    rw [hitems]
    exact h.home q j hj (registered_of_update hreg).2
  · intro q item hq hitem hreg
    rw [hcb] at hreg
    rw [hitems] at hitem
    exact h.fromAbove q item hq hitem (registered_of_update hreg).2
  · intro q hq
    rw [hitems]
    exact h.revents q hq

/-- Another item is removed: the socket of the last one is copied to its position, where the `revents`
    stay. -/
theorem Arr.shrink_swap {keys : List Key} {revents : Nat → Int16} {p p' : Poller C} (h : Arr keys revents p)
    {k last : Key} {i : Nat} {it lastItem : Item} (hpos : p.pos k = some i) (hi : i + 1 < p.nitems)
    (hlast : p.keys[p.nitems - 1]? = some last) (hit : p.items[i]? = some it)
    (hlastItem : p.items[p.nitems - 1]? = some lastItem) (hid : item2id lastItem = last) (hcap : p'.Cap)
    (hn : p'.nitems = p.nitems - 1) (hitems : p'.items = p.items.set i (Poller.copyItem it lastItem))
    (hkeys : p'.keys = swapRemove p.keys i) (hpos' : p'.pos = moved p.pos k last i)
    (hcb : p'.cbOf = Function.update p.cbOf k none) : Arr keys revents p' := by
  have hlen := Poller.length_keys h.cap
  have hki := h.indexed.sound k i hpos
  have hone : p.keys.count k = 1 := List.count_eq_one_of_mem h.nodup (List.mem_of_getElem? hki)
  have hswap : (swapRemove p.keys i).Perm (p.keys.eraseIdx i) := swapRemove_perm (by omega)
  have hkeyi : item2id it = k := by
    rw [Poller.getElem?_keys (by omega), hit] at hki
    exact Option.some.inj hki
  have hcopy : item2id (Poller.copyItem it lastItem) = last := hid
  have hget : ∀ q, p'.items[q]? = if q = i then some (Poller.copyItem it lastItem) else p.items[q]? := by
    intro q
    rw [hitems]
    by_cases hqi : q = i
    · rw [if_pos hqi, hqi, List.getElem?_set_self]
      exact (List.getElem?_eq_some_iff.mp hit).1
    · rw [if_neg hqi, List.getElem?_set_ne (Ne.symm hqi)]
  refine ⟨hcap, ?_, ?_, ?_, ?_, ?_, ?_⟩
  · rw [hkeys, hpos']
    exact h.indexed.swapRemove hpos hone (by omega) (by rw [hlen]; exact hlast)
  · rw [hkeys]
    exact hswap.nodup_iff.mpr (h.nodup.eraseIdx i)
  · have := h.nitems
    omega
  · intro q j hj hreg
    rw [hcb] at hreg
    obtain ⟨hjk, hreg⟩ := registered_of_update hreg
    obtain ⟨item, hitem, hidj⟩ := h.home q j hj hreg
    have hqi : q ≠ i := by
      rintro rfl
      rw [hit, Option.some.injEq] at hitem
      exact hjk (by rw [← hidj, ← hitem, hkeyi])
    exact ⟨item, by rw [hget, if_neg hqi, hitem], hidj⟩
  · intro q item hq hitem hreg
    rw [hcb] at hreg
    obtain ⟨-, hreg⟩ := registered_of_update hreg
    rw [hget] at hitem
    by_cases hqi : q = i
    · rw [if_pos hqi, Option.some.injEq] at hitem
      rw [← hitem, hcopy] at hreg ⊢
      have hle := h.nitems
      obtain ⟨m, hm, hkey⟩ := h.fromAbove (p.nitems - 1) lastItem (by omega) hlastItem
        (by rw [hid]; exact hreg)
      exact ⟨m, by omega, by rw [hkey, hid]⟩
    · rw [if_neg hqi] at hitem
      exact h.fromAbove q item hq hitem hreg
  · intro q hq
    obtain ⟨item, hitem, hrev⟩ := h.revents q hq
    rw [hget]
    by_cases hqi : q = i
    · rw [hqi, hit, Option.some.injEq] at hitem
      exact ⟨Poller.copyItem it lastItem, if_pos hqi, by rw [← hrev, ← hitem]; rfl⟩
    · exact ⟨item, by rw [if_neg hqi, hitem], hrev⟩

/-- **A removal** during the dispatch. -/
theorem Arr.remove {keys : List Key} {revents : Nat → Int16} {p : Poller C} (h : Arr keys revents p)
    (skt : Pollee) : ∃ p', p.remove skt = .ok p' ∧ Arr keys revents p' ∧
      p'.cbOf = Function.update p.cbOf (skt2id (getSocket skt)) none := by
  generalize hk : skt2id (getSocket skt) = k
  have hlen := Poller.length_keys h.cap
  cases hpos : p.pos k with
  | none =>
    refine ⟨p, Poller.remove_absent (by rw [hk]; exact hpos), h, ?_⟩
    rw [← cbOf_eq_none.mpr hpos]
    exact (Function.update_eq_self k p.cbOf).symm
  | some i =>
    have hki := h.indexed.sound k i hpos
    obtain ⟨hi, -⟩ := List.getElem?_eq_some_iff.mp hki
    rcases Nat.lt_or_ge (i + 1) p.nitems with hlt | hge
    · obtain ⟨last, hlast⟩ : ∃ last, p.keys[p.nitems - 1]? = some last :=
        ⟨_, List.getElem?_eq_getElem (by omega)⟩
      rcases Poller.remove_swap h.cap (by rw [hk]; exact hpos) hlt hlast
        (h.indexed.total last (List.mem_of_getElem? hlast)) with
        ⟨hlk, -⟩ | ⟨-, it, lastItem, p', hp', hcap, hn, hit, hlastItem, hid, hitems, hkeys, hpos', hcb⟩
      · -- the key would be registered twice
        rw [hlk, hk] at hlast
        have := position_unique h.nodup hki hlast
        omega
      · rw [hk] at hpos' hcb
        exact ⟨p', hp', h.shrink_swap hpos hlt hlast hit hlastItem hid hcap hn hitems hkeys hpos' hcb, hcb⟩
    · obtain rfl : i = p.nitems - 1 := by omega
      obtain ⟨p', hp', hcap, hn, hitems, hkeys, hpos', hcb⟩ :=
        Poller.remove_last h.cap (by rw [hk]; exact hpos) (by omega)
      rw [hk] at hpos' hcb
      exact ⟨p', hp', h.shrink_last hpos hcap hn hitems hkeys hpos' hcb, hcb⟩

/-- The events of a callback's removals. -/
def removedEvents (skts : List Pollee) : List (Ev C) := skts.map fun skt => .removed (skt2id (getSocket skt))

theorem Arr.removals {keys : List Key} {revents : Nat → Int16} : ∀ (skts : List Pollee) (p : Poller C)
    (log : List (Ev C)), Arr keys revents p →
    ∃ p', FfiPoller.removals p log skts = .ok (p', log ++ removedEvents skts) ∧ Arr keys revents p' ∧
      (∀ k, Ev.removed k ∈ (removedEvents skts : List (Ev C)) → p'.cbOf k = none) ∧
      (∀ k, Ev.removed k ∉ (removedEvents skts : List (Ev C)) → p'.cbOf k = p.cbOf k) := by
  intro skts
  induction skts with
  | nil =>
    intro p log h
    exact ⟨p, by rw [FfiPoller.removals, removedEvents, List.map_nil, List.append_nil], h,
      fun k hk => absurd hk List.not_mem_nil, fun k _ => rfl⟩
  | cons skt skts ih =>
    intro p log h
    obtain ⟨p₁, hp₁, h₁, hcb⟩ := h.remove skt
    obtain ⟨p', hp', h', hgone, hkept⟩ := ih p₁ (log ++ [.removed (skt2id (getSocket skt))]) h₁
    have hcons : (removedEvents (skt :: skts) : List (Ev C)) =
        .removed (skt2id (getSocket skt)) :: removedEvents skts := rfl
    refine ⟨p', ?_, h', fun k hk => ?_, fun k hk => ?_⟩
    · rw [FfiPoller.removals, hp₁, hcons]
      simp only
      rw [hp', List.append_assoc]
      rfl
    · rw [hcons, List.mem_cons] at hk
      by_cases hin : Ev.removed k ∈ (removedEvents skts : List (Ev C))
      · exact hgone k hin
      · rw [hkept k hin, hcb]
        rcases hk with hk | hk
        · cases hk
          exact Function.update_self _ _ _
        · exact absurd hk hin
    · rw [hcons, List.mem_cons, not_or] at hk
      rw [hkept k hk.2, hcb, Function.update_of_ne]
      rintro rfl
      exact hk.1 rfl

/-! ## One position -/

/-- The three outcomes of a step: nothing is called, because nothing is pending or the socket found is
    not registered, or the callback of the socket found is called and removes. -/
theorem scanStep_cases (act : List Key → List Pollee) {keys : List Key} {revents : Nat → Int16}
    {t : Scan C} (h : Arr keys revents t.self) {j : Nat} (hj : j < keys.length) :
    ∃ item, t.self.items[j]? = some item ∧ item.revents = revents j ∧
      (((revents j = 0 ∨ t.self.cbOf (item2id item) = none) ∧
        ∃ n, scanStep act t j = some { t with n := n }) ∨
      (revents j ≠ 0 ∧ ∃ cb skts p, t.self.cbOf (item2id item) = some cb ∧
        scanStep act t j = some ⟨p, t.log ++ [.call (item2id item) cb (revents j)] ++ removedEvents skts,
          t.n + 1⟩ ∧ Arr keys revents p ∧
        (∀ k, Ev.removed k ∈ (removedEvents skts : List (Ev C)) → p.cbOf k = none) ∧
        (∀ k, Ev.removed k ∉ (removedEvents skts : List (Ev C)) → p.cbOf k = t.self.cbOf k))) := by
  obtain ⟨item, hitem, hrev⟩ := h.revents j hj
  refine ⟨item, hitem, hrev, ?_⟩
  rw [scanStep, hitem]
  simp only
  by_cases hzero : revents j = 0
  · rw [if_neg (by rw [hrev]; exact not_not.mpr hzero)]
    exact Or.inl ⟨Or.inl hzero, t.n, rfl⟩
  · rw [if_pos (by rw [hrev]; exact hzero)]
    cases hparams : t.self.sockets (item2id item) with
    | none => exact Or.inl ⟨Or.inr (by rw [Poller.cbOf, hparams]; rfl), t.n + 1, rfl⟩
    | some params =>
      obtain ⟨p, hp, harr, hgone, hkept⟩ := Arr.removals (act (called t.log ++ [item2id item])) t.self
        (t.log ++ [.call (item2id item) params.cb item.revents]) h
      refine Or.inr ⟨hzero, params.cb, _, p, by rw [Poller.cbOf, hparams]; rfl, ?_, harr, hgone, hkept⟩
      simp only
      rw [hp, hrev]

theorem scanStep_arr (act : List Key → List Pollee) {keys : List Key} {revents : Nat → Int16}
    {t : Scan C} (h : Arr keys revents t.self) {j : Nat} (hj : j < keys.length) :
    ∃ t', scanStep act t j = some t' ∧ Arr keys revents t'.self ∧ t.log <+: t'.log := by
  obtain ⟨item, -, -, hcase⟩ := scanStep_cases act h hj
  rcases hcase with ⟨-, n, hstep⟩ | ⟨-, cb, skts, p, -, hstep, harr, -, -⟩
  · exact ⟨_, hstep, h, List.prefix_rfl⟩
  · refine ⟨_, hstep, harr, ?_⟩
    rw [List.append_assoc]
    exact List.prefix_append _ _

theorem positions_succ (j : Nat) : positions (j + 1) = j :: positions j := by
  rw [positions, List.range_succ, List.reverse_append]
  rfl

/-- The whole loop runs without error and only adds to the log. -/
theorem run_arr (act : List Key → List Pollee) {keys : List Key} {revents : Nat → Int16} :
    ∀ (j : Nat) (t : Scan C), j ≤ keys.length → Arr keys revents t.self →
    ∃ t', run (scanStep act) t (positions j) = some t' ∧ t.log <+: t'.log := by
  intro j
  induction j with
  | zero => intro t _ _; exact ⟨t, rfl, List.prefix_rfl⟩
  | succ j ih =>
    intro t hj h
    obtain ⟨t₁, hstep, h₁, hpre⟩ := scanStep_arr act h hj
    obtain ⟨t', hrun, hpre'⟩ := ih t₁ (by omega) h₁
    rw [positions_succ, run_cons_some _ _ hstep]
    exact ⟨t', hrun, hpre.trans hpre'⟩

/-! ## The log -/

theorem called_append (l m : List (Ev C)) : called (l ++ m) = called l ++ called m :=
  List.filterMap_append

theorem called_removedEvents (skts : List Pollee) : called (removedEvents skts : List (Ev C)) = [] := by
  rw [called, removedEvents, List.filterMap_map]
  exact List.filterMap_eq_nil_iff.mpr fun _ _ => rfl

/-- What holds of the log when the positions from `j` up are done. -/
structure LogInv (s : Traced C) (revents : Nat → Int16) (j : Nat) (t : Scan C) : Prop where
  once : (called t.log).Nodup
  own : ∀ k cb r, Ev.call k cb r ∈ t.log →
    ∃ i : Nat, j ≤ i ∧ s.self.keys[i]? = some k ∧ s.self.cbOf k = some cb ∧ revents i = r
  served : ∀ (i : Nat) (k : Key), j ≤ i → s.self.keys[i]? = some k → revents i ≠ 0 →
    Ev.removed k ∉ t.log → k ∈ called t.log
  live : t.log.Pairwise fun a b => ∀ k, a = .removed k → b.calls ≠ some k
  gone : ∀ k, Ev.removed k ∈ t.log → t.self.cbOf k = none
  kept : ∀ k, Ev.removed k ∉ t.log → t.self.cbOf k = s.self.cbOf k

/-- A log that breaks the property: a callback ran twice, or with events of another socket. -/
def Bad (s : Traced C) (revents : Nat → Int16) (log : List (Ev C)) : Prop :=
  ¬ (called log).Nodup ∨
    ∃ k cb r, Ev.call k cb r ∈ log ∧ ∀ i : Nat, s.self.keys[i]? = some k → revents i ≠ r

theorem Bad.mono {s : Traced C} {revents : Nat → Int16} {l m : List (Ev C)} (h : Bad s revents l)
    (hpre : l <+: m) : Bad s revents m := by
  rcases h with h | ⟨k, cb, r, hmem, h⟩
  · refine Or.inl fun hnd => h ?_
    obtain ⟨rest, rfl⟩ := hpre
    rw [called_append] at hnd
    exact hnd.of_append_left
  · exact Or.inr ⟨k, cb, r, hpre.subset hmem, h⟩

theorem Bad.not_dispatchOk {s : Traced C} {revents : Nat → Int16} {t : Scan C} (h : Bad s revents t.log) :
    ¬ DispatchOk s revents t := by
  intro hok
  rcases h with h | ⟨k, cb, r, hmem, h⟩
  · exact h hok.once
  · obtain ⟨i, hi, -, hr⟩ := hok.own k cb r hmem
    exact h i hi hr

theorem mem_called {log : List (Ev C)} {k : Key} : k ∈ called log ↔ ∃ cb r, Ev.call k cb r ∈ log := by
  rw [called, List.mem_filterMap]
  constructor
  · rintro ⟨e, he, hk⟩
    cases e with
    | call k' cb r => cases hk; exact ⟨cb, r, he⟩
    | removed k' => cases hk
  · rintro ⟨cb, r, he⟩
    exact ⟨_, he, rfl⟩

/-- A position at which nothing is called. -/
theorem LogInv.skip {s : Traced C} {revents : Nat → Int16} {j n : Nat} {t : Scan C}
    (h : LogInv s revents (j + 1) t)
    (hnone : ∀ k, s.self.keys[j]? = some k → revents j ≠ 0 → Ev.removed k ∈ t.log) :
    LogInv s revents j { t with n := n } where
  once := h.once
  own k cb r hmem := by
    obtain ⟨i, hi, hrest⟩ := h.own k cb r hmem
    exact ⟨i, by omega, hrest⟩
  served i k hi hk hr hnot := by
    by_cases hij : i = j
    · rw [hij] at hk hr
      exact absurd (hnone k hk hr) hnot
    · exact h.served i k (by omega) hk hr hnot
  live := h.live
  gone := h.gone
  kept := h.kept

/-- The log of a step that calls the callback of `k`. -/
def stepLog (log : List (Ev C)) (k : Key) (cb : C) (revents : Int16) (skts : List Pollee) : List (Ev C) :=
  log ++ [.call k cb revents] ++ removedEvents skts

theorem called_stepLog (log : List (Ev C)) (k : Key) (cb : C) (revents : Int16) (skts : List Pollee) :
    called (stepLog log k cb revents skts) = called log ++ [k] := by
  rw [stepLog, called_append, called_append, called_removedEvents, List.append_nil]
  rfl

theorem removed_mem_stepLog {log : List (Ev C)} {k j : Key} {cb : C} {revents : Int16} {skts : List Pollee} :
    Ev.removed j ∈ stepLog log k cb revents skts ↔
      Ev.removed j ∈ log ∨ Ev.removed j ∈ (removedEvents skts : List (Ev C)) := by
  rw [stepLog, List.mem_append, List.mem_append, List.mem_singleton]
  constructor
  · rintro ((hm | hm) | hm)
    · exact Or.inl hm
    · cases hm
    · exact Or.inr hm
  · rintro (hm | hm)
    · exact Or.inl (Or.inl hm)
    · exact Or.inr hm

/-- A call in such a log is an old one, or that of `k`. -/
theorem call_mem_stepLog {log : List (Ev C)} {k k' : Key} {cb cb' : C} {revents r : Int16}
    {skts : List Pollee}
    (h : Ev.call k' cb' r ∈ stepLog log k cb revents skts) :
    Ev.call k' cb' r ∈ log ∨ (k' = k ∧ cb' = cb ∧ r = revents) := by
  rcases List.mem_append.mp h with h | h
  · rcases List.mem_append.mp h with h | h
    · exact Or.inl h
    · cases List.mem_singleton.mp h
      exact Or.inr ⟨rfl, rfl, rfl⟩
  · obtain ⟨skt, -, hskt⟩ := List.mem_map.mp h
    cases hskt

/-- Nothing removed so far is the key called, and removals call nothing. -/
theorem pairwise_stepLog {log : List (Ev C)} {k : Key} {cb : C} {revents : Int16} {skts : List Pollee}
    (h : log.Pairwise fun a b => ∀ k, a = .removed k → b.calls ≠ some k) (hnot : Ev.removed k ∉ log) :
    (stepLog log k cb revents skts).Pairwise fun a b => ∀ k, a = .removed k → b.calls ≠ some k := by
  refine List.pairwise_append.mpr ⟨List.pairwise_append.mpr ⟨h, List.pairwise_singleton _ _, ?_⟩, ?_, ?_⟩
  · rintro a ha b hb k' rfl hcall
    rw [List.mem_singleton.mp hb] at hcall
    cases hcall
    exact hnot ha
  · refine List.pairwise_of_forall_mem_list fun a _ b hb k' _ hcall => ?_
    obtain ⟨skt, -, rfl⟩ := List.mem_map.mp hb
    cases hcall
  · rintro a - b hb k' - hcall
    obtain ⟨skt, -, rfl⟩ := List.mem_map.mp hb
    cases hcall

/-- A position at which the callback of its own socket is called. -/
theorem LogInv.call {s : Traced C} {revents : Nat → Int16} {j : Nat} {t : Scan C}
    (h : LogInv s revents (j + 1) t) (hnd : s.self.keys.Nodup) {k : Key} {cb : C} {skts : List Pollee}
    {p : Poller C} {n : Nat} (hk : s.self.keys[j]? = some k) (hcb : t.self.cbOf k = some cb)
    (hgone : ∀ k, Ev.removed k ∈ (removedEvents skts : List (Ev C)) → p.cbOf k = none)
    (hkept : ∀ k, Ev.removed k ∉ (removedEvents skts : List (Ev C)) → p.cbOf k = t.self.cbOf k) :
    LogInv s revents j ⟨p, stepLog t.log k cb (revents j) skts, n⟩ := by
  have hnot : Ev.removed k ∉ t.log := fun hmem => by rw [h.gone k hmem] at hcb; cases hcb
  refine ⟨?_, ?_, ?_, pairwise_stepLog h.live hnot, ?_, ?_⟩
  · show (called (stepLog _ _ _ _ _)).Nodup
    rw [called_stepLog, List.nodup_append]
    refine ⟨h.once, List.nodup_singleton _, ?_⟩
    -- a key called before was at a higher position
    rintro a ha b hb rfl
    obtain ⟨cb', r, hmem⟩ := mem_called.mp ha
    obtain ⟨i, hi, hik, -⟩ := h.own _ _ _ hmem
    rw [List.mem_singleton.mp hb] at hik
    have := position_unique hnd hk hik
    omega
  · intro k' cb' r hmem
    rcases call_mem_stepLog hmem with hmem | ⟨rfl, rfl, rfl⟩
    · obtain ⟨i, hi, hrest⟩ := h.own k' cb' r hmem
      exact ⟨i, by omega, hrest⟩
    · exact ⟨j, Nat.le_refl j, hk, by rw [← h.kept k' hnot, hcb], rfl⟩
  · intro i k' hi hk' hr hno
    show k' ∈ called (stepLog _ _ _ _ _)
    rw [called_stepLog, List.mem_append]
    by_cases hij : i = j
    · rw [hij, hk, Option.some.injEq] at hk'
      exact Or.inr (List.mem_singleton.mpr hk'.symm)
    · exact Or.inl (h.served i k' (by omega) hk' hr fun hmem => hno (removed_mem_stepLog.mpr (Or.inl hmem)))
  · intro k' hmem
    by_cases hin : Ev.removed k' ∈ (removedEvents skts : List (Ev C))
    · exact hgone k' hin
    · show p.cbOf k' = none
      rw [hkept k' hin]
      exact h.gone k' ((removed_mem_stepLog.mp hmem).resolve_right hin)
  · intro k' hno
    obtain ⟨hlog, hremoved⟩ := not_or.mp fun hmem => hno (removed_mem_stepLog.mpr hmem)
    show p.cbOf k' = _
    rw [hkept k' hremoved, h.kept k' hlog]

/-- **One position.**  A step that meets `InPlace` carries the invariant on; one that does not leaves a
    bad log. -/
theorem scanStep_spec (act : List Key → List Pollee) {s : Traced C} {revents : Nat → Int16} {j : Nat}
    {t : Scan C} (hnd : s.self.keys.Nodup) (harr : Arr s.self.keys revents t.self)
    (hlog : LogInv s revents (j + 1) t) (hreg : ∀ k ∈ s.self.keys, s.self.cbOf k ≠ none)
    (hj : j < s.self.keys.length) :
    ∃ t', scanStep act t j = some t' ∧ Arr s.self.keys revents t'.self ∧
      (InPlace s.self.keys t j → LogInv s revents j t') ∧
      (¬ InPlace s.self.keys t j → Bad s revents t'.log) := by
  obtain ⟨item, hitem, hrev, hcase⟩ := scanStep_cases act harr hj
  have honly : ∀ item', t.self.items[j]? = some item' → item' = item := fun item' h =>
    Option.some.inj (h.symm.trans hitem)
  rcases hcase with ⟨hquiet, n, hstep⟩ | ⟨hpend, cb, skts, p, hcb, hstep, harr', hgone, hkept⟩
  · refine ⟨_, hstep, harr, fun _ => hlog.skip ?_, fun hno => absurd ?_ hno⟩
    · intro k hk hr
      by_contra hnot
      have hsome : t.self.cbOf k ≠ none := by
        rw [hlog.kept k hnot]
        exact hreg k (List.mem_of_getElem? hk)
      obtain ⟨item', hitem', hid⟩ := harr.home j k hk hsome
      rcases hquiet with hzero | hnone
      · exact hr hzero
      · rw [← honly item' hitem', hid] at hnone
        exact hsome hnone
    · intro item' hitem' hne hsome
      rw [honly item' hitem'] at hne hsome
      rcases hquiet with hzero | hnone
      · exact absurd (hrev.trans hzero) hne
      · exact absurd hnone hsome
  · have hsome : t.self.cbOf (item2id item) ≠ none := by rw [hcb]; simp
    refine ⟨_, hstep, harr', fun hin => ?_, fun hno => ?_⟩
    · exact hlog.call hnd (hin item hitem (by rw [hrev]; exact hpend) hsome) hcb hgone hkept
    · -- a socket from a higher position, served there or not reported ready
      obtain ⟨m, hm, hkm⟩ := harr.fromAbove j item hj hitem hsome
      have hmj : m ≠ j := by
        rintro rfl
        refine hno fun item' hitem' _ _ => ?_
        rw [honly item' hitem']
        exact hkm
      have hnot : Ev.removed (item2id item) ∉ t.log := fun hmem => hsome (hlog.gone _ hmem)
      by_cases hzero : revents m = 0
      · refine Or.inr ⟨item2id item, cb, revents j, ?_, fun i hi => ?_⟩
        · exact List.mem_append_left _ (List.mem_append_right _ (List.mem_singleton.mpr rfl))
        · rw [position_unique hnd hi hkm, hzero]
          exact Ne.symm hpend
      · have hbefore := hlog.served m _ (by omega) hkm hzero hnot
        refine Or.inl fun hnd' => ?_
        rw [called_append, called_append, List.append_assoc] at hnd'
        exact List.disjoint_of_nodup_append hnd' hbefore
          (List.mem_append_left _ (List.mem_singleton.mpr rfl))

/-! ## The whole loop -/

theorem run_spec (act : List Key → List Pollee) {s : Traced C} {revents : Nat → Int16}
    (hnd : s.self.keys.Nodup) (hreg : ∀ k ∈ s.self.keys, s.self.cbOf k ≠ none) :
    ∀ (j : Nat) (t t' : Scan C), j ≤ s.self.keys.length → Arr s.self.keys revents t.self →
    LogInv s revents j t → run (scanStep act) t (positions j) = some t' →
    (Meets (scanStep act) (InPlace s.self.keys) t (positions j) → LogInv s revents 0 t') ∧
    (¬ Meets (scanStep act) (InPlace s.self.keys) t (positions j) → Bad s revents t'.log) := by
  intro j
  induction j with
  | zero =>
    intro t t' _ _ hlog hrun
    cases hrun
    exact ⟨fun _ => hlog, fun hno => absurd trivial hno⟩
  | succ j ih =>
    intro t t' hj harr hlog hrun
    obtain ⟨t₁, hstep, harr₁, hyes, hno⟩ := scanStep_spec act hnd harr hlog hreg hj
    rw [positions_succ] at hrun ⊢
    rw [run_cons_some _ _ hstep] at hrun
    by_cases hin : InPlace s.self.keys t j
    · obtain ⟨hgood, hbad⟩ := ih t₁ t' (by omega) harr₁ (hyes hin) hrun
      refine ⟨fun hm => hgood (hm.2 t₁ hstep), fun hm => hbad fun hrest => hm ⟨hin, fun t₂ ht₂ => ?_⟩⟩
      obtain rfl := Option.some.inj (hstep.symm.trans ht₂)
      exact hrest
    · refine ⟨fun hm => absurd hm.1 hin, fun _ => ?_⟩
      obtain ⟨t₂, hrun₂, hpre⟩ := run_arr act j t₁ (by omega) harr₁
      obtain rfl := Option.some.inj (hrun₂.symm.trans hrun)
      exact (hno hin).mono hpre

theorem length_setRevents (items : List Item) (nitems : Nat) (revents : Nat → Int16) :
    (setRevents items nitems revents).length = items.length := List.length_mapIdx

theorem getElem?_setRevents (items : List Item) {nitems q : Nat} (hq : q < nitems)
    (revents : Nat → Int16) : (setRevents items nitems revents)[q]? =
      items[q]?.map fun it => { it with revents := revents q } := by
  rw [setRevents, List.getElem?_mapIdx]
  congr 1
  funext it
  exact if_pos hq

theorem keys_scanInit (p : Poller C) (revents : Nat → Int16) : (scanInit p revents).self.keys = p.keys := by
  have hnone : ∀ (items : List Item) (q : Nat), p.nitems ≤ q →
      ((items.take p.nitems).map item2id)[q]? = none := by
    intro items q hq
    refine List.getElem?_eq_none ?_
    rw [List.length_map]
    exact Nat.le_trans (List.length_take_le _ _) hq
  refine List.ext_getElem? fun q => ?_
  rcases Nat.lt_or_ge q p.nitems with hq | hq
  · rw [Poller.getElem?_keys (by exact hq), Poller.getElem?_keys hq]
    show ((setRevents p.items p.nitems revents)[q]?).map item2id = _
    rw [getElem?_setRevents _ hq, Option.map_map]
    rfl
  · exact (hnone _ q hq).trans (hnone _ q hq).symm

theorem arr_scanInit {s : Traced C} (h : TraceInv s) (honce : s.regs.Nodup) (revents : Nat → Int16) :
    Arr s.self.keys revents (scanInit s.self revents).self := by
  have hlen := Poller.length_keys h.cap
  have hn := h.cap.nitems
  have hitems : ∀ q < s.self.keys.length, (scanInit s.self revents).self.items[q]? =
      s.self.items[q]?.map fun it => { it with revents := revents q } := fun q hq =>
    getElem?_setRevents _ (by omega) _
  refine ⟨⟨?_, ?_⟩, ?_, ?_, Nat.le_of_eq hlen.symm, ?_, ?_, ?_⟩
  · show s.self.nitems ≤ (setRevents _ _ _).length
    rw [length_setRevents]
    exact hn
  · show s.self.size ≤ (setRevents _ _ _).length
    rw [length_setRevents]
    exact h.cap.size
  · rw [keys_scanInit]
    exact h.indexed
  · rw [keys_scanInit]
    exact h.perm.nodup_iff.mpr honce
  · intro q k hk _
    obtain ⟨hq, -⟩ := List.getElem?_eq_some_iff.mp hk
    rw [Poller.getElem?_keys (by omega), Option.map_eq_some_iff] at hk
    obtain ⟨it, hit, hid⟩ := hk
    exact ⟨{ it with revents := revents q }, by rw [hitems q hq, hit]; rfl, hid⟩
  · intro q item hq hitem _
    refine ⟨q, Nat.le_refl q, ?_⟩
    rw [hitems q hq, Option.map_eq_some_iff] at hitem
    obtain ⟨it, hit, rfl⟩ := hitem
    rw [Poller.getElem?_keys (by omega), hit]
    rfl
  · intro q hq
    have hit : s.self.items[q]? = some s.self.items[q] := List.getElem?_eq_getElem (by omega)
    exact ⟨_, by rw [hitems q hq, hit]; rfl, rfl⟩

theorem logInv_scanInit (s : Traced C) (revents : Nat → Int16) :
    LogInv s revents s.self.keys.length (scanInit s.self revents) where
  once := List.nodup_nil
  own _ _ _ hmem := absurd hmem List.not_mem_nil
  served i k hi hk _ _ := by
    obtain ⟨hlt, -⟩ := List.getElem?_eq_some_iff.mp hk
    omega
  live := List.Pairwise.nil
  gone _ hmem := absurd hmem List.not_mem_nil
  kept _ _ := rfl

/-- **Dispatch, exactly.**  With every socket registered once, a poll that did not fail returns and does
    what it should iff each of its steps meets `InPlace`. -/
theorem poll_dispatchOk_iff {s : Traced C} (h : TraceInv s) (honce : s.regs.Nodup) {ret : Int}
    (hret : ret ≠ -1) (revents : Nat → Int16) (act : List Key → List Pollee) :
    (∃ n t, s.self.poll ret revents act = some (n, t) ∧ DispatchOk s revents t) ↔
      Meets (scanStep act) (InPlace s.self.keys) (scanInit s.self revents) (positions s.self.nitems) := by
  have hlen := Poller.length_keys h.cap
  have hnd : s.self.keys.Nodup := h.perm.nodup_iff.mpr honce
  have hreg : ∀ k ∈ s.self.keys, s.self.cbOf k ≠ none := fun k hk =>
    fun hnone => h.indexed.total k hk (cbOf_eq_none.mp hnone)
  have harr := arr_scanInit h honce revents
  have hlog := logInv_scanInit s revents
  rw [hlen] at hlog
  obtain ⟨t, hrun, -⟩ := run_arr act s.self.nitems _ (Nat.le_of_eq hlen.symm) harr
  have hpoll : s.self.poll ret revents act = some (some t.n, t) := by
    rw [Poller.poll, if_neg hret, hrun]
    rfl
  obtain ⟨hgood, hbad⟩ := run_spec act hnd hreg _ _ t (Nat.le_of_eq hlen.symm) harr hlog hrun
  constructor
  · rintro ⟨n, t', ht', hok⟩
    by_contra hm
    cases ht'.symm.trans hpoll
    exact (hbad hm).not_dispatchOk hok
  · intro hm
    have hl := hgood hm
    refine ⟨_, t, hpoll, hl.once, fun k cb r hmem => ?_, fun i k hk hr hno => ?_, hl.live⟩
    · obtain ⟨i, -, hrest⟩ := hl.own k cb r hmem
      exact ⟨i, hrest⟩
    · exact hl.served i k (Nat.zero_le i) hk hr hno

/-! ## Two sockets -/

/-- A poller with the sockets 1 and 2 registered for input. -/
def twoSockets : Traced Unit :=
  (run traceStep (traceInit 2) [.add (.raw (.socket 1)) 1 (), .add (.raw (.socket 2)) 1 ()]).get (by decide)

theorem traceInv_twoSockets : TraceInv twoSockets := by
  have hrun : run traceStep (traceInit 2 : Traced Unit)
      [.add (.raw (.socket 1)) 1 (), .add (.raw (.socket 2)) 1 ()] = some twoSockets :=
    (Option.some_get _).symm
  refine run_invariant_of traceStep (P := fun c => ∃ skt events, c = .add skt events ())
    ?_ _ (traceInit 2) twoSockets ?_ (traceInv_init 2) hrun
  · rintro t _ t' ⟨skt, events, rfl⟩ ht hstep
    obtain ⟨u, hu, hinv⟩ := add_step ht (c := .add skt events ()) skt events () rfl rfl
    obtain rfl := Option.some.inj (hu.symm.trans hstep)
    exact hinv
  · intro c hc
    rcases List.mem_cons.mp hc with rfl | hc
    · exact ⟨_, _, rfl⟩
    · exact ⟨_, _, List.mem_singleton.mp hc⟩

/-- The callback of socket 2, the first to be dispatched, removes its own socket. -/
theorem poll_dispatchOk_removes_itself : ∃ n t, twoSockets.self.poll 2 (fun _ => 1)
    (fun served => if served.length = 1 then [.raw (.socket 2)] else []) = some (n, t) ∧
    DispatchOk twoSockets (fun _ => 1) t := by
  refine (poll_dispatchOk_iff traceInv_twoSockets (by decide) (by decide) _ _).mpr ?_
  refine ⟨?_, fun t ht => ⟨?_, fun _ _ => trivial⟩⟩
  · intro item hitem _ _
    obtain rfl : item = ⟨some 2, 0, 1, 1⟩ := Option.some.inj (hitem.symm.trans (by decide))
    decide
  · intro item hitem _ _
    obtain rfl := Option.some.inj (ht.symm.trans (Option.some_get (by decide)).symm)
    obtain rfl : item = ⟨some 1, 0, 1, 1⟩ := Option.some.inj (hitem.symm.trans (by decide))
    decide

/-- Socket 2 is dispatched first and removes socket 1: its item moves to position 0, which was reported
    ready too, and its callback runs a second time. -/
theorem not_dispatchOk_moved : ∃ act : List Key → List Pollee, twoSockets.regs.Nodup ∧
    ¬ ∃ n t, twoSockets.self.poll 2 (fun _ => 1) act = some (n, t) ∧
      DispatchOk twoSockets (fun _ => 1) t := by
  refine ⟨fun served => if served.length = 1 then [.raw (.socket 1)] else [], by decide, ?_⟩
  rintro ⟨n, t, ht, hok⟩
  have hlog : (twoSockets.self.poll 2 (fun _ => 1) fun served =>
      if served.length = 1 then [.raw (.socket 1)] else []).map (fun r => called r.2.log) =
      some [.ptr 2, .ptr 2] := by decide
  rw [ht] at hlog
  have hcalled : called t.log = [.ptr 2, .ptr 2] := Option.some.inj hlog
  have honce := hok.once
  rw [hcalled] at honce
  exact absurd honce (by decide)

end Lzmq.FfiPoller
