/-
  The C poller with its Lua wrapper as an implementation of `Call`.

  The wrapper keeps the registrations in two parallel arrays, the items of the C poller and the callbacks
  of the Lua table, and a removal shifts both: what is left stays in the order in which the sockets were
  added.  `Shifted mt r` says that the items and the callbacks at the indices 0, 1, … are the registrations
  `r`; `implements_c` that every call keeps it so.

  A poll asks for the ready items one after the other, under a cursor that only moves down.  Where the
  callbacks leave the poller alone nothing moves under the cursor, and `Shifted.polled_eq` finds the calls
  due to `r`, from the last registration to the first.
-/
import Lzmq.CPoller.Served
import Lzmq.Pollers.Calls

namespace Lzmq.CPoller

open Lzmq.Drain

variable {C : Type}

/-! ## What a caller sees -/

/-- The registrations of a wrapper: an item that holds a socket, and the callback stored under its index. -/
def PollerMt.registrations (mt : PollerMt C) : List (Nat × Int16 × C) :=
  mt.poller.active.zipIdx.filterMap fun x =>
    match x.1.socket, mt.callbacks.get x.2 with
    | .handle sock, some c => some (sock, x.1.events, c.cb)
    | _, _ => none

/-- The events that `zmq_poll` reports for an item. -/
def Pollitem.reported (ready : Nat → Int16) (it : Pollitem) : Int16 :=
  match it.socket with
  | .handle sock => ready sock
  | _ => 0

/-- `zmq_poll` when `ready` says which events are pending on a socket: it reports those, and returns the
    number of items with events. -/
def ZMQPoller.zmqPoll (p : ZMQPoller) (ready : Nat → Int16) : ZmqPoll :=
  let revents := fun i : Nat => match p.active[i]? with
    | some it => it.reported ready
    | none => 0
  ⟨(List.range p.count).countP fun i => revents i != 0, revents⟩

/-- The socket, the callback and the events of a call. -/
def Ev.served : Ev C → Option (Nat × C × Int16)
  | .call c revents => some (c.sock, c.cb, revents)
  | _ => none

/-- What a poll returns whose callbacks do not touch the poller, and the calls it makes. -/
def PollerMt.polled (mt : PollerMt C) (ready : Nat → Int16) : Option (Int × List (Nat × C × Int16)) :=
  let r := mt.poll (mt.poller.zmqPoll ready) fun _ => []
  match r.outcome, r.count with
  | .ret _, some n => some (n, r.log.filterMap Ev.served)
  | _, _ => none

/-! ## A loop whose callbacks do nothing -/

/-- Such a loop calls the callbacks of the ready entries below its cursor, from the last to the first. -/
theorem pollLoop_quiet : ∀ (k : Nat) (self : PollerMt C) (z : List (Entry C)) (n : Nat) (log : List (Ev C)),
    Sim self z n → (readyBelow Entry.ready z n).length = k →
    ∃ self', pollLoop (fun _ => []) k self log =
      (.ret self', log ++ (readyBelow Entry.ready z n).reverse.map fun e => .call e.2 e.1.revents) := by
  intro k
  induction k with
  | zero =>
    intro self z n log _ hk
    rw [List.length_eq_zero_iff.mp hk]
    exact ⟨self, by rw [pollLoop, List.reverse_nil, List.map_nil, List.append_nil]⟩
  | succ k ih =>
    intro self z n log h hk
    obtain ⟨i, e, p, hnext, hsim, -, hcall, -, hbelow, hk⟩ := h.nextReady hk
    obtain ⟨self', hrun⟩ := ih { self with poller := p } z i (log ++ [.call e.2 e.1.revents]) hsim hk
    refine ⟨self', ?_⟩
    rw [pollLoop_call hnext hcall, removals]
    simp only
    rw [hrun, hbelow, List.reverse_append, List.append_assoc]
    rfl

end Lzmq.CPoller

namespace Lzmq.Pollers

open Lzmq.CPoller Lzmq.Registry Lzmq.Assoc Lzmq.Drain

variable {C : Type}

/-! ## The arrays -/

/-- The call on the wrapper. -/
def Call.toC : Call C → CPoller.Call C
  | .add sock events cb => .add sock events (some cb)
  | .modify sock events cb => .modify sock events cb
  | .remove sock => .remove sock

def stepC (mt : PollerMt C) (c : Call C) : Option (PollerMt C) := (c.toC.run mt).returned

/-- The wrapper keeps the registrations `r`, in this order. -/
structure Shifted (mt : PollerMt C) (r : List (Registration C)) : Prop where
  wf : Wf mt.poller
  items : mt.poller.active.map (fun it => (it.socket, it.events)) = r.map fun e => (.handle e.1, e.2.1)
  callbacks : mt.callbacks.Holds (r.map fun e => ⟨e.1, e.2.2⟩)
  /-- No mask is the tag of a free item. -/
  live : ∀ e ∈ r, e.2.1 ≠ freeItemEventsTag

theorem shifted_new (n : Nat) : Shifted (PollerMt.new n : PollerMt C) [] where
  wf := wf_pollerInit n
  items := by rw [PollerMt.new, active_pollerInit]; rfl
  callbacks := LuaTable.holds_empty
  live _ h := absurd h List.not_mem_nil

variable {mt : PollerMt C} {r : List (Registration C)}

theorem Shifted.length (h : Shifted mt r) : r.length = mt.poller.count := by
  rw [← h.wf.active_length, ← List.length_map (f := fun it : Pollitem => (it.socket, it.events)), h.items,
    List.length_map]

/-- The item of a registration. -/
theorem Shifted.item (h : Shifted mt r) {i : Nat} {e : Registration C} (hi : r[i]? = some e) :
    ∃ it, mt.poller.active[i]? = some it ∧ it.socket = .handle e.1 ∧ it.events = e.2.1 := by
  have hitem := congrArg (fun l => l[i]?) h.items
  simp only [List.getElem?_map] at hitem
  rw [hi, Option.map_some, Option.map_eq_some_iff] at hitem
  obtain ⟨it, hit, heq⟩ := hitem
  exact ⟨it, hit, congrArg Prod.fst heq, congrArg Prod.snd heq⟩

/-- The lookup of a socket finds its registration. -/
theorem Shifted.findIdx?_eq (h : Shifted mt r) (sock : Nat) :
    mt.poller.active.findIdx? (PollKey.socket sock).test = r.findIdx? fun e => e.1 == sock := by
  have hitem : mt.poller.active.findIdx? (PollKey.socket sock).test =
      (mt.poller.active.map fun it => (it.socket, it.events)).findIdx? fun x => x.1 == .handle sock := by
    rw [List.findIdx?_map]
    rfl
  rw [hitem, h.items, List.findIdx?_map]
  congr 1
  funext e
  rw [Bool.eq_iff_iff]
  simp

theorem Shifted.found (h : Shifted mt r) (hu : Unique r) {i : Nat} {sock : Nat} {v : Int16 × C}
    (hi : r[i]? = some (sock, v)) : mt.poller.active.findIdx? (PollKey.socket sock).test = some i := by
  obtain ⟨hlt, hget⟩ := List.getElem?_eq_some_iff.mp hi
  rw [h.findIdx?_eq, List.findIdx?_eq_some_iff_getElem]
  refine ⟨hlt, by rw [hget]; exact beq_self_eq_true sock, fun j hj => ?_⟩
  -- the key would be registered at `j` and at `i`
  intro heq
  have hji : (r.map Prod.fst)[j]? = some sock := by
    rw [List.getElem?_map, List.getElem?_eq_getElem (by omega), ← beq_iff_eq.mp heq]
    rfl
  have hii : (r.map Prod.fst)[i]? = some sock := by rw [List.getElem?_map, hi]; rfl
  have := Positions.position_unique hu hji hii
  omega

theorem Shifted.not_found (h : Shifted mt r) {sock : Nat} (hnot : sock ∉ r.map Prod.fst) :
    mt.poller.active.findIdx? (PollKey.socket sock).test = none := by
  rw [h.findIdx?_eq, List.findIdx?_eq_none_iff]
  intro e he
  refine Bool.eq_false_iff.mpr fun heq => hnot ?_
  rw [← beq_iff_eq.mp heq]
  exact List.mem_map_of_mem he

/-! ## The calls -/

/-- An item and a callback at the end. -/
theorem Shifted.append (h : Shifted mt r) {sock : Nat} {events : Int16} {cb : C} {p : ZMQPoller} (hwf : Wf p)
    (hact : p.active = mt.poller.active ++ [newItem (.socket sock) events])
    (hev : events ≠ freeItemEventsTag) :
    Shifted ⟨p, mt.callbacks.set mt.poller.count (some ⟨sock, cb⟩)⟩ (r ++ [(sock, events, cb)]) where
  wf := hwf
  items := by
    show p.active.map _ = _
    rw [hact, List.map_append, List.map_append, h.items]
    rfl
  callbacks := by
    have happ := h.callbacks.append (⟨sock, cb⟩ : Closure C)
    rw [List.length_map, h.length] at happ
    rw [List.map_append]
    exact happ
  live e he := by
    rcases List.mem_append.mp he with he | he
    · exact h.live e he
    · rw [List.mem_singleton.mp he]
      exact hev

/-- `remove` shifts both arrays at the index of the registration. -/
theorem Shifted.remove (h : Shifted mt r) (hu : Unique r) {i : Nat} {sock : Nat} {v : Int16 × C}
    (hi : r[i]? = some (sock, v)) : ∃ mt', mt.remove sock = .ret mt' ∧ Shifted mt' (r.eraseIdx i) := by
  have hfound := h.found hu hi
  obtain ⟨hlt, -⟩ := List.getElem?_eq_some_iff.mp hi
  have hlen := h.length
  rcases removeFound_spec h.wf (.socket sock) with ⟨hnone, -⟩ | ⟨j, p, hsome, hj, hrem, hwf, -, hact⟩
  · rw [hfound] at hnone
    cases hnone
  · obtain rfl : i = j := Option.some.inj (hfound.symm.trans hsome)
    have hmap : ((mt.poller.active.eraseIdx i).map fun it => (it.socket, it.events)) =
        (r.eraseIdx i).map fun e => (.handle e.1, e.2.1) := by
      rw [← List.eraseIdx_map, ← List.eraseIdx_map, h.items]
    -- the compaction drops nothing but the item removed
    have hkeep : (mt.poller.active.eraseIdx i).filter Pollitem.live = mt.poller.active.eraseIdx i := by
      refine List.filter_eq_self.mpr fun it hit => ?_
      have hmem : (it.socket, it.events) ∈ (r.eraseIdx i).map fun e => (SocketPtr.handle e.1, e.2.1) := by
        rw [← hmap]
        exact List.mem_map_of_mem hit
      obtain ⟨e, he, heq⟩ := List.mem_map.mp hmem
      have hev : e.2.1 = it.events := congrArg Prod.snd heq
      apply bne_iff_ne.mpr
      rw [← hev]
      exact h.live e (List.mem_of_mem_eraseIdx he)
    refine ⟨⟨p, mt.callbacks.shiftFrom i⟩, ?_, hwf, ?_, ?_,
      fun e he => h.live e (List.mem_of_mem_eraseIdx he)⟩
    · rw [PollerMt.remove, hrem, h.callbacks.border_eq, List.length_map]
      show (if (i : Int) ≤ _ then _ else _) = _
      rw [if_pos (by omega)]
    · show p.active.map _ = _
      rw [hact, hkeep, hmap]
    · rw [← List.eraseIdx_map]
      exact h.callbacks.shiftFrom (by rw [List.length_map]; exact hlt)

/-- `modify` of a registered socket writes both arrays at its index. -/
theorem Shifted.modify (h : Shifted mt r) (hu : Unique r) {i : Nat} {sock : Nat} {v : Int16 × C}
    (hi : r[i]? = some (sock, v)) {events : Int} (hm : Mask events) (hev : events ≠ 0) (cb : C) :
    ∃ mt', mt.modify sock events (some cb) = .ret mt' ∧
      Shifted mt' (r.set i (sock, Int16.ofInt events, cb)) := by
  have hfound := h.found hu hi
  obtain ⟨hlt, -⟩ := List.getElem?_eq_some_iff.mp hi
  rcases luazmqPlrModify_socket h.wf sock (hm.ofInt.2 hev) with ⟨hnone, -⟩ |
    ⟨j, p, hj, hsome, hmod, hwf, -, hact⟩
  · rw [hfound] at hnone
    cases hnone
  · obtain rfl : i = j := Option.some.inj (hfound.symm.trans hsome)
    refine ⟨⟨p, mt.callbacks.set i (some ⟨sock, cb⟩)⟩, ?_, hwf, ?_, ?_, fun e he => ?_⟩
    · rw [PollerMt.modify, if_pos hev, hmod]
    · show p.active.map _ = _
      rw [hact, List.map_set, List.map_set, h.items]
    · rw [List.map_set]
      exact h.callbacks.set (by rw [List.length_map]; exact hlt) _
    · rcases List.mem_or_eq_of_mem_set he with he | rfl
      · exact h.live e he
      · exact hm.ofInt.1

theorem run_of_removes (mt : PollerMt C) {c : Call C} (hs : c.sets = none) :
    c.toC.run mt = mt.remove c.sock := by
  rcases Call.of_removes hs with heq | ⟨events, cb, heq, hrem⟩
  · rw [heq]
    rfl
  · rw [heq]
    show mt.modify c.sock events cb = mt.remove c.sock
    rcases hrem with rfl | rfl
    · cases cb <;> rfl
    · rfl

/-- **The wrapper** implements the calls. -/
theorem implements_c : Implements (stepC : PollerMt C → Call C → Option (PollerMt C)) Shifted where
  appends mt r c events cb h hs hm hnot := by
    rcases Call.of_sets hs with heq | ⟨heq, hev⟩
    · obtain ⟨p, hp, hwf, -, hact⟩ := luazmqPlrAdd_spec h.wf (.socket c.sock) events
      refine ⟨_, ?_, h.append hwf hact hm.ofInt.1⟩
      rw [heq]
      show Outcome.returned (PollerMt.add mt c.sock events (some cb)) = _
      rw [PollerMt.add, hp]
      rfl
    · rcases luazmqPlrModify_socket h.wf c.sock (hm.ofInt.2 hev) with ⟨-, p, hp, hwf, -, hact⟩ |
        ⟨i, p, -, hsome, -⟩
      · refine ⟨_, ?_, h.append hwf hact hm.ofInt.1⟩
        rw [heq]
        show Outcome.returned (PollerMt.modify mt c.sock events (some cb)) = _
        rw [PollerMt.modify, if_pos hev, hp]
        rfl
      · -- the socket is not registered
        rw [h.not_found hnot] at hsome
        cases hsome
  updates mt r i sock v events cb h hu hi hm hev := by
    obtain ⟨mt', hmod, h'⟩ := h.modify hu hi hm hev cb
    refine ⟨mt', ?_, h'⟩
    show Outcome.returned (mt.modify sock events (some cb)) = _
    rw [hmod]
    rfl
  removes mt r c i v h hu hs hi := by
    obtain ⟨mt', hrem, h'⟩ := h.remove hu hi
    refine ⟨mt', r.eraseIdx i, ?_, h', ?_⟩
    · rw [stepC, run_of_removes mt hs, hrem]
      rfl
    · rw [eraseIdx_eq_del hu hi]

/-! ## What a caller sees -/

theorem Shifted.registrations_eq (h : Shifted mt r) : mt.registrations = r := by
  refine filterMap_eq_of_map_some (List.ext_getElem? fun i => ?_)
  rw [List.getElem?_map, List.getElem?_map, List.getElem?_zipIdx, Nat.zero_add]
  cases hr : r[i]? with
  | none =>
    have hnone : mt.poller.active[i]? = none := by
      have hlen := h.length
      rw [List.getElem?_eq_none_iff] at hr ⊢
      rw [h.wf.active_length]
      omega
    rw [hnone]
    rfl
  | some e =>
    obtain ⟨it, hit, hsock, hev⟩ := h.item hr
    have hcb : mt.callbacks.get i = some ⟨e.1, e.2.2⟩ := by
      rw [h.callbacks.get_nat, List.getElem?_map, hr]
      rfl
    rw [hit, Option.map_some, Option.map_some]
    simp only
    rw [hcb, hsock, hev]
    rfl

/-- The item of a registration is reported as its socket is ready. -/
theorem Shifted.revents_eq (h : Shifted mt r) (ready : Nat → Int16) {i : Nat} {e : Registration C}
    (hi : r[i]? = some e) : (mt.poller.zmqPoll ready).revents i = ready e.1 := by
  obtain ⟨it, hit, hsock, -⟩ := h.item hi
  show (match mt.poller.active[i]? with | some it => it.reported ready | none => 0) = _
  rw [hit]
  show it.reported ready = _
  rw [Pollitem.reported, hsock]

/-- The wrapper with its history variable. -/
def traced (mt : PollerMt C) (r : List (Registration C)) : Traced C := ⟨mt, r.map fun e => ⟨e.1, e.2.2⟩⟩

theorem Shifted.traceInv (h : Shifted mt r) : TraceInv (traced mt r) where
  wf := h.wf
  given := by
    show (r.map _).length = mt.poller.count
    rw [List.length_map, h.length]
  holds := h.callbacks

/-- The entries of a poll: each registration's callback and the events of its socket. -/
theorem Shifted.entries_eq (h : Shifted mt r) (ready : Nat → Int16) :
    (entries (traced mt r) (mt.poller.zmqPoll ready)).map
      (fun e => (e.2, e.1.revents)) = r.map fun e => ((⟨e.1, e.2.2⟩ : Closure C), ready e.1) := by
  refine List.ext_getElem? fun i => ?_
  rw [List.getElem?_map, List.getElem?_map, entries, List.getElem?_mapIdx]
  show (((mt.poller.active.zip (r.map fun e => (⟨e.1, e.2.2⟩ : Closure C)))[i]?).map _).map _ = _
  cases hr : r[i]? with
  | none =>
    have hnone : (mt.poller.active.zip (r.map fun e => (⟨e.1, e.2.2⟩ : Closure C)))[i]? = none := by
      rw [List.getElem?_eq_none_iff] at hr ⊢
      rw [List.length_zip, List.length_map]
      omega
    rw [hnone]
    rfl
  | some e =>
    have hlt : i < mt.poller.active.length := by
      obtain ⟨hlt, -⟩ := List.getElem?_eq_some_iff.mp hr
      rw [h.wf.active_length, ← h.length]
      exact hlt
    have hsome : (mt.poller.active.zip (r.map fun e => (⟨e.1, e.2.2⟩ : Closure C)))[i]? =
        some (mt.poller.active[i], ⟨e.1, e.2.2⟩) := by
      rw [List.getElem?_zip_eq_some, List.getElem?_map, hr]
      exact ⟨List.getElem?_eq_getElem hlt, rfl⟩
    rw [hsome, Option.map_some, Option.map_some, Option.map_some, ← h.revents_eq ready hr]

/-- The ready entries are the calls due. -/
theorem Shifted.served_eq (h : Shifted mt r) (ready : Nat → Int16) :
    ((entries (traced mt r) (mt.poller.zmqPoll ready)).filter Entry.ready).map
      (fun e => (e.2.sock, e.2.cb, e.1.revents)) = due ready r := by
  have hpairs := congrArg (fun l => (l.filter fun x : Closure C × Int16 => x.2 != 0).map
    fun x => (x.1.sock, x.1.cb, x.2)) (h.entries_eq ready)
  simp only [List.filter_map, List.map_map] at hpairs
  exact hpairs

/-- **A poll** of the wrapper makes the calls due, the last registration first, and returns their number. -/
theorem Shifted.polled_eq (h : Shifted mt r) (ready : Nat → Int16) :
    mt.polled ready = some (((due ready r).length : Int), (due ready r).reverse) := by
  have hs := h.traceInv
  obtain ⟨q, n, hn, hpoll, hat, hact⟩ := hs.wf.plrPoll_ready (mt.poller.zmqPoll ready)
    (k := readyCount (traced mt r) (mt.poller.zmqPoll ready)) rfl
  have hsim := sim_polled hs (mt.poller.zmqPoll ready) hat hact
  have hready := length_ready_entries hs (mt.poller.zmqPoll ready)
  have hall := readyBelow_entries hs (mt.poller.zmqPoll ready)
  have hserved := h.served_eq ready
  generalize entries (traced mt r) (mt.poller.zmqPoll ready) = z at hsim hready hall hserved
  have hlength := congrArg List.length hserved
  rw [List.length_map, hready] at hlength
  rw [hlength] at hready hn hpoll
  -- the cursor is above all ready entries
  have hbelow : readyBelow Entry.ready z n = z.filter Entry.ready := by
    rcases hn with hzero | rfl
    · have hnil : z.filter Entry.ready = [] := List.length_eq_zero_iff.mp (hready.trans hzero)
      have hsub : (readyBelow Entry.ready z n).Sublist (z.filter Entry.ready) :=
        (List.take_sublist n z).filter _
      rw [hnil] at hsub ⊢
      exact List.sublist_nil.mp hsub
    · exact hall
  obtain ⟨self', hrun⟩ := pollLoop_quiet (due ready r).length _ z n [] hsim (by rw [hbelow, hready])
  have hresult : mt.poll (mt.poller.zmqPoll ready) (fun _ => []) = ⟨.ret self', some (due ready r).length,
      (z.filter Entry.ready).reverse.map fun e => .call e.2 e.1.revents⟩ := by
    have hpoll' : luazmqPlrPoll mt.poller (mt.poller.zmqPoll ready) =
      .ok (.count (due ready r).length, q) := hpoll
    have hrun' : pollLoop (fun _ => []) (due ready r).length ⟨q, mt.callbacks⟩ [] =
      (.ret self', [] ++ (readyBelow Entry.ready z n).reverse.map fun e => .call e.2 e.1.revents) := hrun
    rw [PollerMt.poll, hpoll']
    simp only [Int.toNat_natCast]
    rw [hrun', hbelow, List.nil_append]
  rw [PollerMt.polled, hresult]
  simp only
  rw [← hserved, ← List.map_reverse, List.filterMap_map]
  refine congrArg (fun l => some (_, l)) ?_
  exact congrFun List.filterMap_eq_map' _

end Lzmq.Pollers
