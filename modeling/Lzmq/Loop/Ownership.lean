/-
  Who closes a polled socket: `add_socket` and `remove_socket` over the pollers of both bindings.

  With the C poller a removal takes the FIRST registration the lookup accepts and, with it, every other
  one whose mask is the free tag `0xFFFF`.  With the FFI poller it takes the registration made last.  In
  both a socket that was added twice and removed once is still polled and no longer in the loop's table.
-/
import Lzmq.Loop.Sockets

namespace Lzmq.Loop

open Lzmq.Steps

variable {F : Type}

/-! ## The Lua wrapper of the C poller, for sockets and descriptors -/

section CBinding

open Lzmq.CPoller

/-- `self.poller` and `self.callbacks`; a callback comes with the socket it is called with. -/
structure LuaPoller (F : Type) where
  poller : ZMQPoller
  callbacks : LuaTable (PollKey × F)

namespace LuaPoller

def new (n : Nat) : LuaPoller F := ⟨pollerInit n, LuaTable.empty⟩

/-- `poller_mt:add` with a callback -/
def add (self : LuaPoller F) (sock : PollKey) (events : Int) (cb : F) : Outcome (LuaPoller F) :=
  match luazmqPlrAdd self.poller sock events with
  | .error f => .crash f
  | .ok (id, poller) => .ret ⟨poller, self.callbacks.set id (some (sock, cb))⟩

/-- `poller_mt:remove` -/
def remove (self : LuaPoller F) (sock : PollKey) : Outcome (LuaPoller F) :=
  match luazmqPlrRemove self.poller sock with
  | .error f => .crash f
  | .ok (id, poller) =>
    if id ≤ self.callbacks.border then .ret ⟨poller, self.callbacks.shiftFrom id⟩
    else .raise ⟨poller, self.callbacks⟩ -- assert(id <= #self.callbacks)

def Registered (self : LuaPoller F) (sock : PollKey) : Prop := sock ∈ self.poller.regs.map Prod.fst

/-- A well-formed C poller, and a callback for each of its items (some may be of items C has dropped). -/
structure Good (p : LuaPoller F) : Prop where
  wf : WfReg p.poller
  holds : ∃ given, p.callbacks.Holds given ∧ p.poller.count ≤ given.length

theorem good_new (n : Nat) : Good (new n : LuaPoller F) where
  wf := wfReg_pollerInit n
  holds := ⟨[], LuaTable.holds_empty, Nat.le_refl 0⟩

variable {self : LuaPoller F}

/-- **`add`** appends a registration. -/
theorem add_spec (h : Good self) (sock : PollKey) (events : Int) (cb : F) :
    ∃ p, self.add sock events cb = .ret p ∧ Good p ∧
      p.poller.regs = self.poller.regs ++ [(sock, Int16.ofInt events)] := by
  obtain ⟨given, hgiven, hle⟩ := h.holds
  obtain ⟨p', hp', hwf, -, hact⟩ := luazmqPlrAdd_spec h.wf.wf sock events
  have hcount : p'.count = self.poller.count + 1 := by
    rw [← hwf.active_length, hact, List.length_append, h.wf.wf.active_length]
    rfl
  refine ⟨⟨p', self.callbacks.set self.poller.count (some (sock, cb))⟩, ?_, ⟨?_, ?_⟩, ?_⟩
  · rw [add, hp']
  · exact ⟨hwf, proper_append_newItem h.wf hact⟩
  · -- the index is the end of the callbacks, or one that C has dropped
    rcases Nat.eq_or_lt_of_le hle with heq | hlt
    · refine ⟨given ++ [(sock, cb)], ?_, ?_⟩
      · rw [heq]
        exact hgiven.append _
      · rw [List.length_append]
        show p'.count ≤ given.length + 1
        omega
    · refine ⟨given.set self.poller.count (sock, cb), hgiven.set hlt _, ?_⟩
      rw [List.length_set]
      show p'.count ≤ given.length
      omega
  · exact regs_append_newItem hact

/-- **`remove`** of a registered socket returns: it takes the registration at the first index the lookup
    accepts, and the others with the mask `0xFFFF`. -/
theorem remove_spec (h : Good self) {sock : PollKey} (hreg : self.Registered sock) :
    ∃ i p, self.poller.regs.findIdx? (fun r => sock.accepts r.1) = some i ∧ self.remove sock = .ret p ∧
      Good p ∧ p.poller.regs = (self.poller.regs.eraseIdx i).filter (fun r => r.2 != freeItemEventsTag) := by
  obtain ⟨given, hgiven, hle⟩ := h.holds
  rcases removeFound_spec h.wf.wf sock with ⟨hnone, -⟩ | ⟨i, p', hsome, hi, hrem, hwf, -, hact⟩
  · exfalso
    rw [findIdx?_regs h.wf] at hnone
    obtain ⟨r, hr, hrk⟩ := List.mem_map.mp hreg
    have hacc := List.findIdx?_eq_none_iff.mp hnone r hr
    rw [hrk, accepts_self] at hacc
    exact Bool.noConfusion hacc
  · rw [findIdx?_regs h.wf] at hsome
    have hregs : p'.regs = (self.poller.regs.eraseIdx i).filter (fun r => r.2 != freeItemEventsTag) := by
      rw [ZMQPoller.regs, hact, regs_erase_filter]
      rfl
    have hborder := hgiven.border_eq
    refine ⟨i, ⟨p', self.callbacks.shiftFrom i⟩, hsome, ?_, ⟨⟨hwf, ?_⟩, ?_⟩, hregs⟩
    · rw [remove, hrem]
      exact if_pos (by omega)
    · intro it hit
      rw [hact] at hit
      exact h.wf.proper it (List.mem_of_mem_eraseIdx (List.mem_of_mem_filter hit))
    · refine ⟨given.eraseIdx i, hgiven.shiftFrom (by omega), ?_⟩
      have hfilter := List.length_filter_le Pollitem.live (self.poller.active.eraseIdx i)
      rw [← hact, hwf.active_length, List.length_eraseIdx_of_lt (by rw [h.wf.wf.active_length]; exact hi),
        h.wf.wf.active_length] at hfilter
      rw [List.length_eraseIdx_of_lt (by omega)]
      show p'.count ≤ given.length - 1
      omega

/-- The registrations `remove` leaves alone hold nothing of `sock` and something of every other socket;
    those with the mask `0xFFFF` do not count. -/
def Last (self : LuaPoller F) (sock : PollKey) : Prop :=
  ∀ i, self.poller.regs.findIdx? (fun r => sock.accepts r.1) = some i →
    (∀ r ∈ self.poller.regs.eraseIdx i, r.1 = sock → r.2 = freeItemEventsTag) ∧
    ∀ r ∈ self.poller.regs, r.1 ≠ sock →
      ∃ r' ∈ self.poller.regs.eraseIdx i, r'.1 = r.1 ∧ r'.2 ≠ freeItemEventsTag

/-- `Last` is what the loop asks of a removal. -/
theorem remove_iff (h : Good self) {sock : PollKey} (hreg : self.Registered sock) :
    ∃ p, self.remove sock = .ret p ∧ Good p ∧
      ((∀ j, p.Registered j ↔ self.Registered j ∧ j ≠ sock) ↔ self.Last sock) := by
  obtain ⟨i, p, hi, hp, hgood, hregs⟩ := remove_spec h hreg
  have hmem : ∀ j, p.Registered j ↔
      ∃ r ∈ self.poller.regs.eraseIdx i, r.1 = j ∧ r.2 ≠ freeItemEventsTag := by
    intro j
    rw [Registered, hregs, List.mem_map]
    constructor
    · rintro ⟨r, hr, hj⟩
      obtain ⟨hr, hlive⟩ := List.mem_filter.mp hr
      exact ⟨r, hr, hj, bne_iff_ne.mp hlive⟩
    · rintro ⟨r, hr, hj, hlive⟩
      exact ⟨r, List.mem_filter.mpr ⟨hr, bne_iff_ne.mpr hlive⟩, hj⟩
  refine ⟨p, hp, hgood, ?_⟩
  constructor
  · intro hall i' hi'
    obtain rfl : i = i' := Option.some.inj (hi.symm.trans hi')
    constructor
    · intro r hr hrk
      by_contra hlive
      exact ((hall sock).mp ((hmem sock).mpr ⟨r, hr, hrk, hlive⟩)).2 rfl
    · intro r hr hne
      exact (hmem r.1).mp ((hall r.1).mpr ⟨List.mem_map_of_mem hr, hne⟩)
  · intro hlast j
    obtain ⟨hgone, hkept⟩ := hlast i hi
    rw [hmem]
    constructor
    · rintro ⟨r, hr, rfl, hlive⟩
      exact ⟨List.mem_map_of_mem (List.mem_of_mem_eraseIdx hr), fun hk => hlive (hgone r hr hk)⟩
    · rintro ⟨hj, hne⟩
      obtain ⟨r, hr, rfl⟩ := List.mem_map.mp hj
      exact hkept r hr hne

/-- The methods the loop calls. -/
def api : PollerApi (LuaPoller F) PollKey F where
  add p k events f := (p.add k events f).returned
  remove p k := (p.remove k).returned

theorem api_remove {p p' : LuaPoller F} {k : PollKey} (h : p.remove k = .ret p') :
    api.remove p k = some p' := congrArg Outcome.returned h

theorem pollerSpec : PollerSpec (api : PollerApi (LuaPoller F) PollKey F) Registered Last Good where
  add p k events f h := by
    obtain ⟨p', hp', hgood, hregs⟩ := add_spec h k events f
    refine ⟨p', congrArg Outcome.returned hp', hgood, fun j => ?_⟩
    rw [Registered, Registered, hregs, List.map_append, List.mem_append]
    exact or_congr_right List.mem_singleton
  last p k h hreg hlast := by
    obtain ⟨p', hp', hgood, hiff⟩ := remove_iff h hreg
    exact ⟨p', api_remove hp', hgood, hiff.mpr hlast⟩
  notLast p k p' h hreg hnot hp' := by
    obtain ⟨q, hq, -, hiff⟩ := remove_iff h hreg
    obtain rfl : q = p' := Option.some.inj ((api_remove hq).symm.trans hp')
    exact fun hall => hnot (hiff.mp hall)

/-- Without the mask `0xFFFF`, and with a lookup that does not take another key for this one, the
    condition says that the socket is registered once. -/
theorem last_iff_count {self : LuaPoller F} {sock : PollKey} (hreg : self.Registered sock)
    (hlive : ∀ r ∈ self.poller.regs, r.2 ≠ freeItemEventsTag)
    (hexact : ∀ r ∈ self.poller.regs, sock.accepts r.1 = true → r.1 = sock) :
    self.Last sock ↔ (self.poller.regs.map Prod.fst).count sock = 1 := by
  rw [Last]
  rw [Registered] at hreg
  generalize self.poller.regs = l at hreg hlive hexact ⊢
  obtain ⟨i, hi⟩ : ∃ i, l.findIdx? (fun r => sock.accepts r.1) = some i := by
    rw [← Option.isSome_iff_exists, List.findIdx?_isSome, List.any_eq_true]
    obtain ⟨r, hr, hrk⟩ := List.mem_map.mp hreg
    exact ⟨r, hr, by rw [hrk]; exact accepts_self sock⟩
  obtain ⟨hlt, hacc⟩ := Lzmq.Registry.findIdx?_split hi
  have hkey : l[i].1 = sock := hexact _ (List.getElem_mem hlt) hacc
  have hcount : (l.map Prod.fst).count sock = ((l.eraseIdx i).map Prod.fst).count sock + 1 := by
    rw [← List.eraseIdx_map]
    apply Lzmq.Positions.count_eraseIdx_succ
    rw [List.getElem?_map, List.getElem?_eq_getElem hlt, ← hkey]
    rfl
  constructor
  · intro hlast
    have hzero : ((l.eraseIdx i).map Prod.fst).count sock = 0 := by
      rw [List.count_eq_zero]
      intro hmem
      obtain ⟨r, hr, hrk⟩ := List.mem_map.mp hmem
      exact hlive r (List.mem_of_mem_eraseIdx hr) ((hlast i hi).1 r hr hrk)
    omega
  · intro hone i' hi'
    obtain rfl : i = i' := Option.some.inj (hi.symm.trans hi')
    have hnot : sock ∉ (l.eraseIdx i).map Prod.fst := List.count_eq_zero.mp (by omega)
    refine ⟨fun r hr hrk => absurd (List.mem_map.mpr ⟨r, hr, hrk⟩) hnot, fun r hr hne => ?_⟩
    obtain ⟨j, hj, rfl⟩ := List.mem_iff_getElem.mp hr
    refine ⟨l[j], List.mem_eraseIdx_iff_getElem.mpr ⟨j, hj, fun hij => hne ?_, rfl⟩, rfl, hlive _ hr⟩
    subst hij
    exact hkey

end LuaPoller

end CBinding

/-! ## The FFI poller -/

section Ffi

open Lzmq.FfiPoller Lzmq.Positions

namespace FfiLoop

/-- The item array and the table of entries agree. -/
structure Good (p : Poller F) : Prop where
  cap : Poller.Cap p
  indexed : Indexed p.keys p.pos

def Registered (p : Poller F) (s : RawSocket) : Prop := skt2id s ∈ p.keys

/-- The socket has one item. -/
def Last (p : Poller F) (s : RawSocket) : Prop := p.keys.count (skt2id s) ≤ 1

def api : PollerApi (Poller F) RawSocket F where
  add p s events f := (p.add (.raw s) events f).toOption
  remove p s := (p.remove (.raw s)).toOption

theorem skt2id_injective : Function.Injective skt2id := by
  intro s t h
  cases s <;> cases t <;> simp only [skt2id, Key.num.injEq, Key.ptr.injEq, reduceCtorEq] at h <;> rw [h]

theorem api_remove {p p' : Poller F} {s : RawSocket} (h : p.remove (.raw s) = .ok p') :
    api.remove p s = some p' := congrArg Except.toOption h

theorem good_new (n : Nat) : Good (Poller.new n : Poller F) :=
  ⟨Poller.cap_new n, (traceInv_init n).indexed⟩

/-- **`remove`** of a registered socket: an item of its key goes.  Either the call raises, or the others
    stay; with no other item of the key the table stays right. -/
theorem remove_spec {p : Poller F} (h : Good p) {s : RawSocket} (hreg : Registered p s) :
    ∃ i, p.keys[i]? = some (skt2id s) ∧
      ((skt2id s ∈ p.keys.eraseIdx i ∧ api.remove p s = none) ∨
        ∃ p', api.remove p s = some p' ∧ p'.keys.Perm (p.keys.eraseIdx i) ∧ (Last p s → Good p')) := by
  have hlen := Poller.length_keys h.cap
  obtain ⟨i, hpos⟩ := Option.ne_none_iff_exists'.mp (h.indexed.total _ hreg)
  have hki := h.indexed.sound _ i hpos
  obtain ⟨hi, -⟩ := List.getElem?_eq_some_iff.mp hki
  have hone : Last p s → p.keys.count (skt2id s) = 1 := fun hle =>
    Nat.le_antisymm hle (List.count_pos_iff.mpr hreg)
  refine ⟨i, hki, ?_⟩
  rcases Nat.lt_or_ge (i + 1) p.nitems with hlt | hge
  · -- the last item moves to position `i`
    obtain ⟨last, hlast⟩ : ∃ last, p.keys[p.nitems - 1]? = some last :=
      ⟨_, List.getElem?_eq_getElem (by omega)⟩
    rcases Poller.remove_swap h.cap (show p.pos (skt2id (getSocket (.raw s))) = some i from hpos) hlt hlast
      (h.indexed.total last (List.mem_of_getElem? hlast)) with
      ⟨hlk, herr⟩ | ⟨-, -, -, p', hp', hcap, -, -, -, -, -, hkeys, hpos', -⟩
    · refine Or.inl ⟨List.mem_eraseIdx_iff_getElem?.mpr ⟨p.nitems - 1, by omega, ?_⟩, ?_⟩
      · rw [hlast, hlk]
        rfl
      · exact congrArg Except.toOption herr
    · refine Or.inr ⟨p', api_remove hp', ?_, fun hlast' => ⟨hcap, ?_⟩⟩
      · rw [hkeys]
        exact swapRemove_perm hi
      · rw [hkeys, hpos']
        exact h.indexed.swapRemove hpos (hone hlast') (by omega) (by rw [hlen]; exact hlast)
  · -- the item removed is the last one
    obtain rfl : i = p.nitems - 1 := by omega
    obtain ⟨p', hp', hcap, -, -, hkeys, hpos', -⟩ := Poller.remove_last h.cap
      (show p.pos (skt2id (getSocket (.raw s))) = some (p.nitems - 1) from hpos) (by omega)
    refine Or.inr ⟨p', api_remove hp', ?_, fun hlast => ⟨hcap, ?_⟩⟩
    · rw [hkeys, List.eraseIdx_eq_take_drop_succ, List.drop_eq_nil_of_le (by omega), List.append_nil]
    · rw [hkeys, hpos', ← hlen]
      exact h.indexed.dropLast (by rw [hlen]; exact hpos) (hone hlast)

theorem pollerSpec : PollerSpec (api : PollerApi (Poller F) RawSocket F) Registered Last Good where
  add p s events f h := by
    obtain ⟨p', hp', hcap, -, -, hkeys, hpos, -⟩ := Poller.add_spec h.cap (.raw s) events f
    refine ⟨p', congrArg Except.toOption hp', ⟨hcap, ?_⟩, fun j => ?_⟩
    · rw [hkeys, hpos, ← Poller.length_keys h.cap]
      exact h.indexed.append _
    · rw [Registered, Registered, hkeys, List.mem_append, List.mem_singleton]
      exact or_congr_right skt2id_injective.eq_iff
  last p s h hreg hlast := by
    obtain ⟨i, hki, ⟨htwo, -⟩ | ⟨p', hp', hperm, hgood⟩⟩ := remove_spec h hreg
    · have hcount := count_eraseIdx_succ hki
      have hmem := List.count_pos_iff.mpr htwo
      rw [Last] at hlast
      omega
    · refine ⟨p', hp', hgood hlast, fun j => ?_⟩
      rw [Registered, Registered, hperm.mem_iff]
      have hcount := count_eraseIdx_succ hki
      rw [Last] at hlast
      obtain ⟨hi, hget⟩ := List.getElem?_eq_some_iff.mp hki
      constructor
      · intro hj
        refine ⟨List.mem_of_mem_eraseIdx hj, fun hjs => ?_⟩
        rw [hjs, ← List.count_pos_iff] at hj
        omega
      · rintro ⟨hj, hne⟩
        obtain ⟨m, hm, hjm⟩ := List.mem_iff_getElem.mp hj
        refine List.mem_eraseIdx_iff_getElem.mpr ⟨m, hm, fun hmi => hne ?_, hjm⟩
        subst hmi
        exact skt2id_injective (hjm.symm.trans hget)
  notLast p s p' h hreg hnot hp' hall := by
    obtain ⟨i, hki, ⟨-, hnone⟩ | ⟨q, hq, hperm, -⟩⟩ := remove_spec h hreg
    · rw [hnone] at hp'
      cases hp'
    · obtain rfl : q = p' := Option.some.inj (hq.symm.trans hp')
      have hcount := count_eraseIdx_succ hki
      rw [Last] at hnot
      have hstill : Registered q s := by
        rw [Registered, hperm.mem_iff, ← List.count_pos_iff]
        omega
      exact ((hall s).mp hstill).2 rfl

end FfiLoop

end Ffi

/-! ## The loop -/

/-- A loop of each binding with a new poller of `n` items and no sockets. -/
def cInit (n : Nat) : Owner (LuaPoller F) Lzmq.CPoller.PollKey := ⟨LuaPoller.new n, []⟩

def ffiInit (n : Nat) : Owner (Lzmq.FfiPoller.Poller F) Lzmq.FfiPoller.RawSocket :=
  ⟨Lzmq.FfiPoller.Poller.new n, []⟩

theorem ownInv_cInit (n : Nat) :
    OwnInv LuaPoller.Registered LuaPoller.Good (cInit n : Owner (LuaPoller F) _) := by
  refine ⟨LuaPoller.good_new n, fun k => ?_⟩
  show k ∈ [] ↔ k ∈ (Lzmq.CPoller.pollerInit n).regs.map Prod.fst
  rw [Lzmq.CPoller.regs_pollerInit]
  rfl

theorem ownInv_ffiInit (n : Nat) :
    OwnInv FfiLoop.Registered FfiLoop.Good (ffiInit n : Owner (Lzmq.FfiPoller.Poller F) _) := by
  refine ⟨FfiLoop.good_new n, fun k => ?_⟩
  show k ∈ [] ↔ Lzmq.FfiPoller.skt2id k ∈ ((Lzmq.FfiPoller.Poller.new n).items.take 0).map _
  rw [List.take_zero]
  simp

/-- **Ownership, exactly.**  In both bindings the calls on a new loop return and keep the table's keys equal
    to the polled sockets iff every `remove_socket` of a socket in the table takes its last registration
    and no other socket's. -/
theorem ownOk_iff_meets (n : Nat) (calls : List (SocketCall Lzmq.CPoller.PollKey F))
    (ffiCalls : List (SocketCall Lzmq.FfiPoller.RawSocket F)) :
    (Keeps (Owner.step LuaPoller.api) (fun _ _ s' => OwnOk LuaPoller.Registered s') (cInit n) calls ↔
      Meets (Owner.step LuaPoller.api) (SocketCallOk LuaPoller.Last) (cInit n) calls) ∧
    (Keeps (Owner.step FfiLoop.api) (fun _ _ s' => OwnOk FfiLoop.Registered s') (ffiInit n) ffiCalls ↔
      Meets (Owner.step FfiLoop.api) (SocketCallOk FfiLoop.Last) (ffiInit n) ffiCalls) :=
  ⟨ownOk_keeps_iff LuaPoller.pollerSpec (ownInv_cInit n) calls,
    ownOk_keeps_iff FfiLoop.pollerSpec (ownInv_ffiInit n) ffiCalls⟩

/-- A socket that was added twice is still polled after one `remove_socket`, and in no table. -/
theorem not_ownOk_added_twice :
    ¬ Keeps (Owner.step LuaPoller.api) (fun _ _ s' => OwnOk LuaPoller.Registered s')
      (cInit 10 : Owner (LuaPoller Unit) _)
      [.addSocket (.socket 1) .nil (some ()), .addSocket (.socket 1) (.flags 2) (some ()),
        .removeSocket (.socket 1)] ∧
    ¬ Keeps (Owner.step FfiLoop.api) (fun _ _ s' => OwnOk FfiLoop.Registered s')
      (ffiInit 10 : Owner (Lzmq.FfiPoller.Poller Unit) _)
      [.addSocket (.socket 1) .nil (some ()), .addSocket (.socket 1) (.flags 2) (some ()),
        .removeSocket (.socket 1)] := by
  constructor
  · rintro ⟨s, hs, -, t, ht, -, u, hu, hok, -⟩
    obtain rfl := Option.some.inj (hs.symm.trans (Option.some_get (by decide)).symm)
    obtain rfl := Option.some.inj (ht.symm.trans (Option.some_get (by decide)).symm)
    obtain rfl := Option.some.inj (hu.symm.trans (Option.some_get (by decide)).symm)
    exact absurd ((hok (.socket 1)).mpr (by unfold LuaPoller.Registered; decide)) (by decide)
  · rintro ⟨s, hs, -, t, ht, -, u, hu, hok, -⟩
    obtain rfl := Option.some.inj (hs.symm.trans (Option.some_get (by decide)).symm)
    obtain rfl := Option.some.inj (ht.symm.trans (Option.some_get (by decide)).symm)
    obtain rfl := Option.some.inj (hu.symm.trans (Option.some_get (by decide)).symm)
    exact absurd ((hok (.socket 1)).mpr (by unfold FfiLoop.Registered; decide)) (by decide)

end Lzmq.Loop
