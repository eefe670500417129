/-
  The FFI poller as an implementation of `Call`.

  The FFI poller keeps sockets and events in an item array, callbacks and positions in a table with a key
  for each socket, and a removal moves the last item to the place of the removed one: what is left stays
  in no order a caller would know.  `Swapped p r` says that the items are those of the registrations `r`
  and the table holds their callbacks; `implements_ffi` that every call keeps it so.

  A poll walks the array downwards and looks the callback of each ready item up by its socket, so it makes
  the calls due to `r`, from the last registration to the first.
-/
import Lzmq.FfiPoller.Dispatch
import Lzmq.Pollers.Calls

namespace Lzmq.FfiPoller

open Lzmq.Steps Lzmq.Pollers

variable {C : Type}

/-! ## What a caller sees -/

/-- The registrations of a poller: an item in use that holds a socket, and the callback stored for it. -/
def Poller.registrations (self : Poller C) : List (Nat × Int16 × C) :=
  self.used.filterMap fun it =>
    match it.socket, self.cbOf (item2id it) with
    | some handle, some cb => some (handle, it.events, cb)
    | _, _ => none

/-- The events that `zmq_poll` reports for an item. -/
def Item.reported (ready : Nat → Int16) (it : Item) : Int16 :=
  match it.socket with
  | some handle => ready handle
  | none => 0

/-- The `revents` that `zmq_poll` writes when `ready` says which events are pending on a socket. -/
def Poller.revents (self : Poller C) (ready : Nat → Int16) (i : Nat) : Int16 :=
  match self.used[i]? with
  | some it => it.reported ready
  | none => 0

/-- The number of items with events, which `zmq_poll` returns. -/
def Poller.readyCount (self : Poller C) (ready : Nat → Int16) : Nat :=
  (List.range self.nitems).countP fun i => self.revents ready i != 0

/-- The socket, the callback and the events of a call. -/
def Ev.served : Ev C → Option (Nat × C × Int16)
  | .call (.ptr handle) cb revents => some (handle, cb, revents)
  | _ => none

/-- What a poll returns whose callbacks do not touch the poller, and the calls it makes. -/
def Poller.polled (self : Poller C) (ready : Nat → Int16) : Option (Int × List (Nat × C × Int16)) :=
  match self.poll (self.readyCount ready) (self.revents ready) fun _ => [] with
  | some (some n, t) => some ((n : Int), t.log.filterMap Ev.served)
  | _ => none

/-! ## A walk whose callbacks do nothing -/

/-- The event of a call that is due. -/
def callEv (x : Nat × C × Int16) : Ev C := .call (.ptr x.1) x.2.1 x.2.2

/-- Such a walk over the items of the registrations `l` makes the calls due to them, from the last to the
    first, and counts them. -/
theorem run_quiet {self : Poller C} {ready : Nat → Int16} {l : List (Registration C)}
    (hitem : ∀ (i : Nat) (e : Registration C), l[i]? = some e → ∃ it, self.items[i]? = some it ∧
      item2id it = .ptr e.1 ∧ it.revents = ready e.1 ∧ self.cbOf (.ptr e.1) = some e.2.2) :
    ∀ (j : Nat) (log : List (Ev C)) (n : Nat), j ≤ l.length →
    run (scanStep fun _ => []) ⟨self, log, n⟩ (positions j) =
      some ⟨self, log ++ (due ready (l.take j)).reverse.map callEv, n + (due ready (l.take j)).length⟩ := by
  intro j
  induction j with
  | zero =>
    intro log n _
    rw [List.take_zero, show due ready ([] : List (Registration C)) = [] from rfl, List.reverse_nil,
      List.map_nil, List.append_nil]
    rfl
  | succ j ih =>
    intro log n hj
    have hlj : l[j]? = some l[j] := List.getElem?_eq_getElem (by omega)
    obtain ⟨it, hit, hid, hrev, hcb⟩ := hitem j l[j] hlj
    rw [positions_succ, List.take_add_one, hlj, Option.toList_some, due_append, due_singleton]
    by_cases hzero : ready l[j].1 = 0
    · have hstep : scanStep (fun _ => []) (⟨self, log, n⟩ : Scan C) j = some ⟨self, log, n⟩ := by
        rw [scanStep]
        simp only
        rw [hit]
        simp only
        rw [hrev, if_neg (not_not.mpr hzero)]
      rw [run_cons_some _ _ hstep, ih log n (by omega), if_pos hzero, List.append_nil]
    · obtain ⟨params, hparams, hpcb⟩ := Option.map_eq_some_iff.mp hcb
      have hstep : scanStep (fun _ => []) (⟨self, log, n⟩ : Scan C) j =
          some ⟨self, log ++ [callEv (l[j].1, l[j].2.2, ready l[j].1)], n + 1⟩ := by
        rw [scanStep]
        simp only
        rw [hit]
        simp only
        rw [hrev, if_pos hzero, hid, hparams]
        simp only
        rw [hpcb, removals]
        rfl
      rw [run_cons_some _ _ hstep, ih _ (n + 1) (by omega), if_neg hzero, List.reverse_append,
        List.length_append, List.append_assoc, List.length_singleton, Nat.add_right_comm, Nat.add_assoc]
      rfl

end Lzmq.FfiPoller

namespace Lzmq.Pollers

open Lzmq.FfiPoller Lzmq.Assoc Lzmq.Positions

variable {C : Type}

/-! ## The array and the table -/

/-- The call on the FFI poller. -/
def Call.toFfi : Call C → FfiPoller.Call C
  | .add sock events cb => .add (.raw (.socket sock)) events cb
  | .modify sock events cb => .modify (.raw (.socket sock)) events cb
  | .remove sock => .remove (.raw (.socket sock))

def stepFfi (p : Poller C) (c : Call C) : Option (Poller C) := (c.toFfi.run p).toOption

/-- The poller keeps the registrations `r`, its items in this order. -/
structure Swapped (p : Poller C) (r : List (Registration C)) : Prop where
  cap : p.Cap
  items : p.used.map (fun it => (it.socket, it.events)) = r.map fun e => (some e.1, e.2.1)
  indexed : Indexed p.keys p.pos
  callbacks : ∀ e ∈ r, p.cbOf (.ptr e.1) = some e.2.2

theorem swapped_new (n : Nat) : Swapped (Poller.new n : Poller C) [] where
  cap := Poller.cap_new n
  items := by rw [Poller.used, Poller.new, List.take_zero]; rfl
  indexed := (FfiPoller.traceInv_init n).indexed
  callbacks _ h := absurd h List.not_mem_nil

variable {p : Poller C} {r : List (Registration C)}

/-- The key of an item with a socket. -/
theorem item2id_of_socket {it : Item} {handle : Nat} (h : it.socket = some handle) :
    item2id it = .ptr handle := by
  rw [item2id, h]

theorem Swapped.socket (h : Swapped p r) {it : Item} (hit : it ∈ p.used) :
    ∃ handle, it.socket = some handle := by
  have hmem : (it.socket, it.events) ∈ r.map fun e => (some e.1, e.2.1) := by
    rw [← h.items]
    exact List.mem_map_of_mem hit
  obtain ⟨e, -, heq⟩ := List.mem_map.mp hmem
  exact ⟨e.1, (congrArg Prod.fst heq).symm⟩

theorem Swapped.length (h : Swapped p r) : r.length = p.nitems := by
  have hlen := congrArg List.length h.items
  rw [List.length_map, List.length_map, Poller.used, List.length_take, Nat.min_eq_left h.cap.nitems] at hlen
  exact hlen.symm

/-- The item of a registration. -/
theorem Swapped.item (h : Swapped p r) {i : Nat} {e : Registration C} (hi : r[i]? = some e) :
    ∃ it, p.used[i]? = some it ∧ it.socket = some e.1 ∧ it.events = e.2.1 := by
  have hitem := congrArg (fun l => l[i]?) h.items
  simp only [List.getElem?_map] at hitem
  rw [hi, Option.map_some, Option.map_eq_some_iff] at hitem
  obtain ⟨it, hit, heq⟩ := hitem
  exact ⟨it, hit, congrArg Prod.fst heq, congrArg Prod.snd heq⟩

theorem Swapped.keys_eq (h : Swapped p r) : p.keys = r.map fun e => .ptr e.1 := by
  have hkey : p.keys = (p.used.map fun it => (it.socket, it.events)).map fun x => .ptr (x.1.getD 0) := by
    rw [List.map_map]
    refine List.map_congr_left fun it hit => ?_
    obtain ⟨handle, hsock⟩ := h.socket hit
    rw [item2id_of_socket hsock]
    show _ = Key.ptr (it.socket.getD 0)
    rw [hsock]
    rfl
  rw [hkey, h.items, List.map_map]
  rfl

theorem Swapped.mem_keys (h : Swapped p r) {sock : Nat} : Key.ptr sock ∈ p.keys ↔ sock ∈ r.map Prod.fst := by
  rw [h.keys_eq, List.mem_map, List.mem_map]
  constructor
  · rintro ⟨e, he, heq⟩
    exact ⟨e, he, Key.ptr.inj heq⟩
  · rintro ⟨e, he, rfl⟩
    exact ⟨e, he, rfl⟩

theorem Swapped.nodup_keys (h : Swapped p r) (hu : Unique r) : p.keys.Nodup := by
  rw [h.keys_eq]
  have hkeys : (r.map fun e => Key.ptr e.1) = (r.map Prod.fst).map Key.ptr := by rw [List.map_map]; rfl
  rw [hkeys]
  exact hu.map fun a b hab => Key.ptr.inj hab

/-- The table finds the position of a registration. -/
theorem Swapped.pos_eq (h : Swapped p r) (hu : Unique r) {i sock : Nat} {v : Int16 × C}
    (hi : r[i]? = some (sock, v)) :
    p.keys[i]? = some (.ptr sock) ∧ p.pos (.ptr sock) = some i := by
  have hkey : p.keys[i]? = some (.ptr sock) := by rw [h.keys_eq, List.getElem?_map, hi]; rfl
  obtain ⟨j, hj⟩ := Option.ne_none_iff_exists'.mp (h.indexed.total _ (List.mem_of_getElem? hkey))
  refine ⟨hkey, ?_⟩
  rw [hj, position_unique (h.nodup_keys hu) (h.indexed.sound _ j hj) hkey]

theorem Swapped.pos_eq_none (h : Swapped p r) {sock : Nat} (hnot : sock ∉ r.map Prod.fst) :
    p.pos (.ptr sock) = none := by
  cases hpos : p.pos (.ptr sock) with
  | none => rfl
  | some i => exact absurd (h.mem_keys.mp (List.mem_of_getElem? (h.indexed.sound _ i hpos))) hnot

/-! ## The calls -/

/-- An item at the end. -/
theorem Swapped.add (h : Swapped p r) {sock : Nat} (hnot : sock ∉ r.map Prod.fst) (events : Int) (cb : C) :
    ∃ p', p.add (.raw (.socket sock)) events cb = .ok p' ∧
      Swapped p' (r ++ [(sock, Int16.ofInt events, cb)]) := by
  obtain ⟨p', hp', hcap, -, hused, hkeys, hpos, hcb⟩ := Poller.add_spec h.cap (.raw (.socket sock)) events cb
  refine ⟨p', hp', hcap, ?_, ?_, fun e he => ?_⟩
  · rw [hused, List.map_append, List.map_append, h.items]
    rfl
  · rw [hkeys, hpos, ← Poller.length_keys h.cap]
    exact h.indexed.append _
  · rw [hcb]
    show Function.update p.cbOf (.ptr sock) (some cb) (.ptr e.1) = _
    rcases List.mem_append.mp he with he | he
    · have hne : e.1 ≠ sock := fun heq => hnot (heq ▸ List.mem_map_of_mem he)
      rw [Function.update_of_ne (fun heq => hne (Key.ptr.inj heq)), h.callbacks e he]
    · rw [List.mem_singleton.mp he, Function.update_self]

/-- The callbacks that are left when one entry of the table is deleted. -/
theorem Swapped.callbacks_del (h : Swapped p r) {sock : Nat} {e : Registration C} (he : e ∈ del sock r) :
    Function.update p.cbOf (.ptr sock) none (.ptr e.1) = some e.2.2 := by
  obtain ⟨hmem, hne⟩ := mem_del.mp he
  rw [Function.update_of_ne (fun heq => hne (Key.ptr.inj heq)), h.callbacks e hmem]

/-- `remove` drops the last item, or moves it to the place of the removed one. -/
theorem Swapped.remove (h : Swapped p r) (hu : Unique r) {i sock : Nat} {v : Int16 × C}
    (hi : r[i]? = some (sock, v)) : ∃ p' r', p.remove (.raw (.socket sock)) = .ok p' ∧ Swapped p' r' ∧
      r'.Perm (del sock r) := by
  obtain ⟨hkey, hpos⟩ := h.pos_eq hu hi
  obtain ⟨hlt, -⟩ := List.getElem?_eq_some_iff.mp hi
  have hpos₀ : p.pos (skt2id (getSocket (.raw (.socket sock)))) = some i := hpos
  have hlen := h.length
  have hklen := Poller.length_keys h.cap
  have hone : p.keys.count (.ptr sock) = 1 :=
    List.count_eq_one_of_mem (h.nodup_keys hu) (List.mem_of_getElem? hkey)
  rcases Nat.lt_or_ge (i + 1) p.nitems with hmid | hend
  · have hperm := swapRemove_perm_del hu hi
    obtain ⟨last, hlast⟩ : ∃ last, p.keys[p.nitems - 1]? = some last :=
      ⟨_, List.getElem?_eq_getElem (by omega)⟩
    rcases Poller.remove_swap h.cap hpos₀ hmid hlast (h.indexed.total last (List.mem_of_getElem? hlast)) with
      ⟨hlk, -⟩ | ⟨-, it, lastItem, p', hp', hcap, hn, hit, hlastItem, -, hitems, hkeys, hpos', hcb⟩
    · -- the socket would be registered twice
      rw [hlk] at hlast
      have := position_unique (h.nodup_keys hu) hkey hlast
      omega
    · refine ⟨p', swapRemove r i, hp', ⟨hcap, ?_, ?_, fun e he => ?_⟩, hperm⟩
      · have hcopy : ((Poller.copyItem it lastItem).socket, (Poller.copyItem it lastItem).events) =
          (lastItem.socket, lastItem.events) := rfl
        rw [Poller.used, hitems, hn, Poller.map_take_swap (fun it => (it.socket, it.events)) (by omega)
          hlastItem hcopy, Nat.sub_add_cancel (by omega)]
        show swapRemove (p.used.map _) i = _
        rw [h.items, map_swapRemove]
      · rw [hkeys, hpos']
        exact h.indexed.swapRemove hpos hone (by omega) (by rw [hklen]; exact hlast)
      · rw [hcb]
        exact h.callbacks_del (hperm.mem_iff.mp he)
  · obtain rfl : i = p.nitems - 1 := by omega
    have hdel : r.take (p.nitems - 1) = del sock r := by
      rw [← eraseIdx_eq_del hu hi, List.eraseIdx_eq_take_drop_succ, List.drop_eq_nil_of_le (by omega),
        List.append_nil]
    obtain ⟨p', hp', hcap, hn, hitems, hkeys, hpos', hcb⟩ := Poller.remove_last h.cap hpos₀ (by omega)
    refine ⟨p', r.take (p.nitems - 1), hp', ⟨hcap, ?_, ?_, fun e he => ?_⟩, by rw [hdel]⟩
    · have hused : p'.used = p.used.take (p.nitems - 1) := by
        rw [Poller.used, Poller.used, hitems, hn, List.take_take, Nat.min_eq_left (Nat.sub_le _ _)]
      rw [hused, List.map_take, h.items, List.map_take]
    · rw [hkeys, hpos', ← hklen]
      exact h.indexed.dropLast (by rw [hklen]; exact hpos) hone
    · rw [hcb]
      rw [hdel] at he
      exact h.callbacks_del he

/-- `modify` of a registered socket writes the item's events and the callback. -/
theorem Swapped.modify (h : Swapped p r) (hu : Unique r) {i sock : Nat} {v : Int16 × C}
    (hi : r[i]? = some (sock, v)) {events : Int} (hev : events ≠ 0) (cb : C) :
    ∃ p', p.modify (.raw (.socket sock)) events (some cb) = .ok p' ∧
      Swapped p' (r.set i (sock, Int16.ofInt events, cb)) := by
  obtain ⟨-, hpos⟩ := h.pos_eq hu hi
  obtain ⟨hlt, hget⟩ := List.getElem?_eq_some_iff.mp hi
  have hlen := h.length
  obtain ⟨p', it, hp', hcap, -, hit, hused, hkeys, hpos', hcb⟩ :=
    Poller.modify_update (r := .socket sock) h.cap hpos (by omega) hev cb
  obtain ⟨it', hit', hsock, -⟩ := h.item hi
  obtain rfl : it = it' := Option.some.inj (hit.symm.trans hit')
  refine ⟨p', hp', hcap, ?_, by rw [hkeys, hpos']; exact h.indexed, fun e he => ?_⟩
  · rw [hused, List.map_set, List.map_set, h.items, hsock]
  · rw [hcb]
    show Function.update p.cbOf (.ptr sock) (some cb) (.ptr e.1) = _
    by_cases hes : e.1 = sock
    · have hmem : (sock, Int16.ofInt events, cb) ∈ r.set i (sock, Int16.ofInt events, cb) :=
        List.mem_set hlt _
      have hval := ((unique_put sock (Int16.ofInt events, cb) hu).perm (set_perm_put hu hi _).symm).value
        (show (sock, e.2) ∈ _ from hes ▸ he) hmem
      rw [hes, Function.update_self, hval]
    · rw [Function.update_of_ne (fun heq => hes (Key.ptr.inj heq))]
      rcases List.mem_or_eq_of_mem_set he with he | rfl
      · exact h.callbacks e he
      · exact absurd rfl hes

theorem run_of_removes_ffi (p : Poller C) {c : Call C} (hs : c.sets = none) :
    c.toFfi.run p = p.remove (.raw (.socket c.sock)) := by
  rcases Call.of_removes hs with heq | ⟨events, cb, heq, hrem⟩
  · rw [heq]
    rfl
  · rw [heq]
    show p.modify (.raw (.socket c.sock)) events cb = p.remove (.raw (.socket c.sock))
    rcases hrem with rfl | rfl
    · cases cb <;> rfl
    · rfl

/-- A call that sets something for a new socket is an `add`, since `modify` asks the table first. -/
theorem Swapped.run_of_sets (h : Swapped p r) {c : Call C} {events : Int} {cb : C}
    (hs : c.sets = some (events, cb)) (hnot : c.sock ∉ r.map Prod.fst) :
    c.toFfi.run p = p.add (.raw (.socket c.sock)) events cb := by
  rcases Call.of_sets hs with heq | ⟨heq, hev⟩
  · rw [heq]
    rfl
  · rw [heq]
    have hnone : p.sockets (.ptr c.sock) = none := Option.map_eq_none_iff.mp (h.pos_eq_none hnot)
    show p.modify (.raw (.socket c.sock)) events (some cb) = p.add (.raw (.socket c.sock)) events cb
    rw [Poller.modify, if_pos hev, Pollee.skt2id?]
    simp only
    rw [skt2id, hnone]

/-- **The FFI poller** implements the calls. -/
theorem implements_ffi : Implements (stepFfi : Poller C → Call C → Option (Poller C)) Swapped where
  appends p r c events cb h hs _ hnot := by
    obtain ⟨p', hadd, h'⟩ := h.add hnot events cb
    refine ⟨p', ?_, h'⟩
    rw [stepFfi, h.run_of_sets hs hnot, hadd]
    rfl
  updates p r i sock v events cb h hu hi _ hev := by
    obtain ⟨p', hmod, h'⟩ := h.modify hu hi hev cb
    refine ⟨p', ?_, h'⟩
    show (p.modify (.raw (.socket sock)) events (some cb)).toOption = _
    rw [hmod]
    rfl
  removes p r c i v h hu hs hi := by
    obtain ⟨p', r', hrem, h', hperm⟩ := h.remove hu hi
    refine ⟨p', r', ?_, h', hperm⟩
    rw [stepFfi, run_of_removes_ffi p hs, hrem]
    rfl

/-! ## What a caller sees -/

theorem Swapped.registrations_eq (h : Swapped p r) : p.registrations = r := by
  refine filterMap_eq_of_map_some (List.ext_getElem? fun i => ?_)
  rw [List.getElem?_map, List.getElem?_map]
  cases hr : r[i]? with
  | none =>
    have hnone : p.used[i]? = none := by
      have hlen := h.length
      rw [List.getElem?_eq_none_iff] at hr ⊢
      rw [Poller.used]
      exact Nat.le_trans (List.length_take_le _ _) (by omega)
    rw [hnone]
    rfl
  | some e =>
    obtain ⟨it, hit, hsock, hev⟩ := h.item hr
    rw [hit, Option.map_some, Option.map_some, item2id_of_socket hsock,
      h.callbacks e (List.mem_of_getElem? hr), hsock, hev]

/-- The item of a registration is reported as its socket is ready. -/
theorem Swapped.revents_eq (h : Swapped p r) (ready : Nat → Int16) {i : Nat} {e : Registration C}
    (hi : r[i]? = some e) : p.revents ready i = ready e.1 := by
  obtain ⟨it, hit, hsock, -⟩ := h.item hi
  rw [Poller.revents, hit]
  simp only
  rw [Item.reported, hsock]

/-- **A poll** of the poller makes the calls due, the last registration first, and returns their number. -/
theorem Swapped.polled_eq (h : Swapped p r) (ready : Nat → Int16) :
    p.polled ready = some (((due ready r).length : Int), (due ready r).reverse) := by
  have hlen := h.length
  have hitem : ∀ (i : Nat) e, r[i]? = some e → ∃ it, (scanInit p (p.revents ready)).self.items[i]? = some it ∧
      item2id it = .ptr e.1 ∧ it.revents = ready e.1 ∧
      (scanInit p (p.revents ready)).self.cbOf (.ptr e.1) = some e.2.2 := by
    intro i e hi
    obtain ⟨it, hit, hsock, -⟩ := h.item hi
    obtain ⟨hlt, -⟩ := List.getElem?_eq_some_iff.mp hi
    rw [Poller.used, List.getElem?_take, if_pos (by omega)] at hit
    refine ⟨{ it with revents := p.revents ready i }, ?_, item2id_of_socket hsock, h.revents_eq ready hi,
      h.callbacks e (List.mem_of_getElem? hi)⟩
    show (setRevents p.items p.nitems (p.revents ready))[i]? = _
    rw [getElem?_setRevents _ (by omega), hit]
    rfl
  have hrun := run_quiet hitem p.nitems [] 0 (by omega)
  rw [← hlen, List.take_length] at hrun
  rw [hlen] at hrun
  have hpoll : p.poll (p.readyCount ready) (p.revents ready) (fun _ => []) = some (some (due ready r).length,
      ⟨(scanInit p (p.revents ready)).self, (due ready r).reverse.map callEv, (due ready r).length⟩) := by
    rw [Poller.poll, if_neg (by omega)]
    show (Steps.run _ (⟨(scanInit p (p.revents ready)).self, [], 0⟩ : Scan C) _).map _ = _
    rw [hrun, List.nil_append, Nat.zero_add]
    rfl
  rw [Poller.polled, hpoll]
  simp only
  rw [List.filterMap_map]
  refine congrArg (fun l => some (_, l)) ?_
  exact List.filterMap_some

end Lzmq.Pollers
