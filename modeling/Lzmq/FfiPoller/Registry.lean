/-
  The registry of the FFI poller (`Poller` in `lzmq/ffi.lua`).

  Registrations live twice: in the C array `items`, where they are positions, and in the Lua table
  `sockets`, where they are found by key (a descriptor, or the serialized handle of a zmq socket).  An
  entry of the table stores its position; `remove` swaps the last item into the hole and repoints that
  item's entry.  The array may hold several items of one key, the table has one entry for each key.

  `RegistryOk` says that the two are inverse to each other and count the registrations made.  A removal
  keeps it exactly when its key is registered at most once; and `modify`, unlike `add` and `remove`,
  takes the key of its argument without asking a Pollable for its socket.  `registryOk_iff_meets` is the
  exact condition for every sequence of calls.
-/
import Lzmq.Lib.Steps
import Lzmq.Lib.Positions

namespace Lzmq.FfiPoller

open Lzmq.Steps Lzmq.Positions

/-! ## Sockets and keys -/

/-- A zmq socket, known by its handle, or a descriptor. -/
inductive RawSocket
  | socket (handle : Nat)
  | fd (n : Int)
deriving DecidableEq, Repr

/-- What the methods accept: a raw socket, or an object whose `socket` method returns one. -/
inductive Pollee
  | raw (s : RawSocket)
  | pollable (obj : Nat) (s : RawSocket)
deriving DecidableEq, Repr

/-- `get_socket` -/
def getSocket : Pollee → RawSocket
  | .raw s => s
  | .pollable _ s => s

/-- A key of the table `sockets`: a number, or the bytes of a pointer. -/
inductive Key
  | num (n : Int)
  | ptr (handle : Nat)
deriving DecidableEq, Repr

/-- `skt2id` of a raw socket -/
def skt2id : RawSocket → Key
  | .fd n => .num n
  | .socket handle => .ptr handle

/-- `skt2id` of any argument: a Pollable has no method `handle`. -/
def Pollee.skt2id? : Pollee → Option Key
  | .raw s => some (skt2id s)
  | .pollable _ _ => none

/-- `zmq_pollitem_t`; a NULL pointer is `none`. -/
structure Item where
  socket : Option Nat
  fd : Int
  events : Int16
  revents : Int16
deriving DecidableEq, Repr

/-- An item of a new array, which is filled with zeros. -/
def Item.zero : Item := ⟨none, 0, 0, 0⟩

def item2id (it : Item) : Key :=
  match it.socket with
  | none => .num it.fd
  | some handle => .ptr handle

/-! ## The poller -/

/-- An entry `{skt, cb, n}` of `sockets`. -/
structure Params (C : Type) where
  skt : Pollee
  cb : C
  no : Nat

/-- A poller object.  `items` is the allocated array. -/
structure Poller (C : Type) where
  items : List Item
  size : Nat
  nitems : Nat
  sockets : Key → Option (Params C)

/-- What a method may do instead of returning. -/
inductive Err
  | assertion
  | indexNil
  | noMethod
  | outOfBounds
deriving DecidableEq, Repr

namespace Poller

variable {C : Type}

def new (n : Nat) : Poller C := ⟨List.replicate n Item.zero, n, 0, fun _ => none⟩

/-- `ensure` replaces an array that has no `n` free items by one with `size + (n - empty)` items; it
    leaves `size` alone. -/
def ensure (self : Poller C) (n : Nat) : Poller C :=
  let empty : Int := self.size - self.nitems
  if n ≤ empty then self
  else { self with
    items := self.items.take self.nitems ++
      List.replicate ((self.size + (n - empty)).toNat - self.nitems) Item.zero }

/-- The item written for a registration. -/
def newItem (s : RawSocket) (events : Int) : Item :=
  match s with
  | .fd n => ⟨none, n, Int16.ofInt events, 0⟩
  | .socket handle => ⟨some handle, 0, Int16.ofInt events, 0⟩

def add (self : Poller C) (skt : Pollee) (events : Int) (cb : C) : Except Err (Poller C) :=
  let self := self.ensure 1
  let n := self.nitems
  let s := getSocket skt
  let h := skt2id s
  if n < self.items.length then
    .ok { self with
      items := self.items.set n (newItem s events)
      sockets := Function.update self.sockets h (some ⟨skt, cb, n⟩)
      nitems := n + 1 }
  else .error .outOfBounds

/-- `items[skt_no].socket = last_item.socket`, `.fd` and `.events`: `revents` is not copied. -/
def copyItem (it last : Item) : Item :=
  { it with socket := last.socket, fd := last.fd, events := last.events }

def remove (self : Poller C) (skt : Pollee) : Except Err (Poller C) :=
  let h := skt2id (getSocket skt)
  match self.sockets h with
  | none => .ok self
  | some params =>
    let sockets := Function.update self.sockets h none
    if self.nitems = 0 then .ok { self with sockets := sockets }
    else if params.no < self.nitems then
      let nitems := self.nitems - 1
      -- if we remove last socket
      if params.no = nitems then .ok { self with sockets := sockets, nitems := nitems }
      else
        match self.items[nitems]?, self.items[params.no]? with
        | some lastItem, some it =>
          match sockets (item2id lastItem) with
          | none => .error .indexNil -- last_param[3] = skt_no
          | some lastParam =>
            .ok { self with
              items := self.items.set params.no (copyItem it lastItem)
              sockets := Function.update sockets (item2id lastItem)
                (some { lastParam with no := params.no })
              nitems := nitems }
        | _, _ => .error .outOfBounds
    else .error .assertion

/-- `modify`; a missing callback is nil. -/
def modify (self : Poller C) (skt : Pollee) (events : Int) (cb : Option C) : Except Err (Poller C) :=
  match cb with
  | none => self.remove skt
  | some cb =>
    if events ≠ 0 then
      match skt.skt2id? with
      | none => .error .noMethod -- attempt to call method 'handle'
      | some h =>
        match self.sockets h with
        | none => self.add skt events cb
        | some params =>
          match self.items[params.no]? with
          | none => .error .outOfBounds
          | some it =>
            .ok { self with
              items := self.items.set params.no { it with events := Int16.ofInt events }
              sockets := Function.update self.sockets h (some { params with cb := cb }) }
    else self.remove skt

end Poller

/-! ## Calls and the registrations made -/

inductive Call (C : Type)
  | add (skt : Pollee) (events : Int) (cb : C)
  | modify (skt : Pollee) (events : Int) (cb : Option C)
  | remove (skt : Pollee)

variable {C : Type}

def Call.run (self : Poller C) : Call C → Except Err (Poller C)
  | .add skt events cb => self.add skt events cb
  | .modify skt events cb => self.modify skt events cb
  | .remove skt => self.remove skt

/-- A `modify` that sets events, rather than removing. -/
def sets (events : Int) (cb : Option C) : Prop := events ≠ 0 ∧ cb ≠ none

instance (events : Int) (cb : Option C) : Decidable (sets events cb) :=
  decidable_of_iff (events ≠ 0 ∧ cb.isSome = true) (by cases cb <;> simp [sets])

/-- The keys of the registrations in force after a call, most recent first. -/
def regsAfter (regs : List Key) : Call C → List Key
  | .add skt _ _ => skt2id (getSocket skt) :: regs
  | .remove skt => regs.erase (skt2id (getSocket skt))
  | .modify skt events cb =>
    let k := skt2id (getSocket skt)
    if sets events cb then if k ∈ regs then regs else k :: regs
    else regs.erase k

/-- A poller with the registrations made. -/
structure Traced (C : Type) where
  self : Poller C
  regs : List Key

def traceStep (s : Traced C) (c : Call C) : Option (Traced C) :=
  (c.run s.self).toOption.map fun self => ⟨self, regsAfter s.regs c⟩

def traceInit (n : Nat) : Traced C := ⟨Poller.new n, []⟩

/-- The keys of the items in use. -/
def Poller.keys (self : Poller C) : List Key := (self.items.take self.nitems).map item2id

/-- `nitems` counts the registrations, every item's key has an entry, and every entry points at an item
    of its key. -/
structure RegistryOk (s : Traced C) : Prop where
  nitems : s.self.nitems = s.regs.length
  items : ∀ i < s.self.nitems, ∃ it, s.self.items[i]? = some it ∧ s.self.sockets (item2id it) ≠ none
  entries : ∀ k params, s.self.sockets k = some params →
    params.no < s.self.nitems ∧ ∃ it, s.self.items[params.no]? = some it ∧ item2id it = k

/-- The condition on a call: a removal is of a key registered at most once, and `modify` does not set
    the events of a Pollable. -/
def CallOk (s : Traced C) : Call C → Prop
  | .add _ _ _ => True
  | .remove skt => s.regs.count (skt2id (getSocket skt)) ≤ 1
  | .modify skt events cb =>
    if sets events cb then ∃ r, skt = .raw r else s.regs.count (skt2id (getSocket skt)) ≤ 1

/-! ## The poller as keys and positions -/

namespace Poller

/-- The positions stored in the table. -/
def pos (self : Poller C) : Key → Option Nat := fun k => (self.sockets k).map Params.no

/-- The callbacks stored in the table. -/
def cbOf (self : Poller C) : Key → Option C := fun k => (self.sockets k).map Params.cb

/-- The array has room for the items in use. -/
structure Cap (p : Poller C) : Prop where
  nitems : p.nitems ≤ p.items.length
  size : p.size ≤ p.items.length

theorem cap_new (n : Nat) : Cap (new n : Poller C) where
  nitems := Nat.zero_le _
  size := Nat.le_of_eq List.length_replicate.symm

variable {self : Poller C}

/-- The items in use. -/
def used (self : Poller C) : List Item := self.items.take self.nitems

theorem length_keys (h : Cap self) : self.keys.length = self.nitems := by
  rw [keys, List.length_map, List.length_take, Nat.min_eq_left h.nitems]

theorem getElem?_keys {i : Nat} (hi : i < self.nitems) :
    self.keys[i]? = self.items[i]?.map item2id := by
  rw [keys, List.getElem?_map, List.getElem?_take, if_pos hi]

theorem map_update {β : Type} (g : Params C → β) (f : Key → Option (Params C)) (k : Key)
    (v : Option (Params C)) : (fun j => (Function.update f k v j).map g) =
      Function.update (fun j => (f j).map g) k (v.map g) := by
  funext j
  by_cases hj : j = k
  · rw [hj, Function.update_self, Function.update_self]
  · rw [Function.update_of_ne hj, Function.update_of_ne hj]

theorem item2id_newItem (s : RawSocket) (events : Int) : item2id (newItem s events) = skt2id s := by
  cases s <;> rfl

/-- **`ensure`** makes room for `n` more items, and keeps those in use. -/
theorem ensure_spec (h : Cap self) (n : Nat) :
    (self.ensure n).nitems = self.nitems ∧ (self.ensure n).sockets = self.sockets ∧
      Cap (self.ensure n) ∧ self.nitems + n ≤ (self.ensure n).items.length ∧
      (self.ensure n).items.take self.nitems = self.items.take self.nitems := by
  obtain ⟨hn, hs⟩ := h
  rw [ensure]
  by_cases hroom : (n : Int) ≤ (self.size : Int) - self.nitems
  · simp only [hroom, if_true]
    exact ⟨trivial, trivial, ⟨hn, hs⟩, by omega, trivial⟩
  · simp only [hroom, if_false]
    have hlen : (self.items.take self.nitems).length = self.nitems := by
      rw [List.length_take, Nat.min_eq_left hn]
    refine ⟨trivial, trivial, ⟨?_, ?_⟩, ?_, ?_⟩
    · show self.nitems ≤ _
      rw [List.length_append, hlen]; omega
    · show self.size ≤ _
      rw [List.length_append, hlen, List.length_replicate]; omega
    · rw [List.length_append, hlen, List.length_replicate]; omega
    · rw [List.take_append_of_le_length (Nat.le_of_eq hlen.symm), List.take_take, Nat.min_self]

/-- **`add`** appends an item and points the key's entry at it. -/
theorem add_spec (h : Cap self) (skt : Pollee) (events : Int) (cb : C) :
    ∃ p, self.add skt events cb = .ok p ∧ Cap p ∧ p.nitems = self.nitems + 1 ∧
      p.used = self.used ++ [newItem (getSocket skt) events] ∧
      p.keys = self.keys ++ [skt2id (getSocket skt)] ∧
      p.pos = Function.update self.pos (skt2id (getSocket skt)) (some self.nitems) ∧
      p.cbOf = Function.update self.cbOf (skt2id (getSocket skt)) (some cb) := by
  obtain ⟨hn, hs, hcap, hlt, htake⟩ := ensure_spec h 1
  have hadd : self.add skt events cb = .ok { self.ensure 1 with
      items := (self.ensure 1).items.set (self.ensure 1).nitems (newItem (getSocket skt) events)
      sockets := Function.update (self.ensure 1).sockets (skt2id (getSocket skt))
        (some ⟨skt, cb, (self.ensure 1).nitems⟩)
      nitems := (self.ensure 1).nitems + 1 } := by
    rw [add]
    exact if_pos (by rw [hn]; exact hlt)
  have hused : ((self.ensure 1).items.set (self.ensure 1).nitems (newItem (getSocket skt) events)).take
      ((self.ensure 1).nitems + 1) = self.used ++ [newItem (getSocket skt) events] := by
    rw [hn, List.take_add_one, List.take_set_of_le (Nat.le_refl _), htake, List.getElem?_set_self hlt]
    rfl
  refine ⟨_, hadd, ⟨?_, ?_⟩, ?_, hused, ?_, ?_, ?_⟩
  · show (self.ensure 1).nitems + 1 ≤ _
    rw [List.length_set, hn]
    exact hlt
  · show (self.ensure 1).size ≤ _
    rw [List.length_set]
    exact hcap.size
  · show (self.ensure 1).nitems + 1 = _
    rw [hn]
  · refine (congrArg (List.map item2id) hused).trans ?_
    rw [List.map_append, ← item2id_newItem (getSocket skt) events]
    rfl
  · show (fun j => (Function.update (self.ensure 1).sockets _ _ j).map Params.no) = _
    rw [map_update, hs, hn]
    rfl
  · show (fun j => (Function.update (self.ensure 1).sockets _ _ j).map Params.cb) = _
    rw [map_update, hs]
    rfl

/-- **`remove`** of a key that the table does not have changes nothing. -/
theorem remove_absent {skt : Pollee} (h : self.pos (skt2id (getSocket skt)) = none) :
    self.remove skt = .ok self := by
  rw [pos, Option.map_eq_none_iff] at h
  rw [remove, h]

/-- **`remove`** at the last position. -/
theorem remove_last (hc : Cap self) {skt : Pollee}
    (h : self.pos (skt2id (getSocket skt)) = some (self.nitems - 1)) (hpos : 0 < self.nitems) :
    ∃ p, self.remove skt = .ok p ∧ Cap p ∧ p.nitems = self.nitems - 1 ∧ p.items = self.items ∧
      p.keys = self.keys.take (self.nitems - 1) ∧
      p.pos = Function.update self.pos (skt2id (getSocket skt)) none ∧
      p.cbOf = Function.update self.cbOf (skt2id (getSocket skt)) none := by
  rw [pos, Option.map_eq_some_iff] at h
  obtain ⟨params, hparams, hno⟩ := h
  have hn := hc.nitems
  have hremove : self.remove skt = .ok { self with
      sockets := Function.update self.sockets (skt2id (getSocket skt)) none
      nitems := self.nitems - 1 } := by
    rw [remove, hparams]
    simp only
    rw [if_neg (by omega), if_pos (by omega), if_pos hno]
  refine ⟨_, hremove, ⟨?_, hc.size⟩, rfl, rfl, ?_, ?_, ?_⟩
  · show self.nitems - 1 ≤ self.items.length
    omega
  · show (self.items.take (self.nitems - 1)).map item2id = _
    rw [keys, ← List.map_take, List.take_take, Nat.min_eq_left (Nat.sub_le _ _)]
  · show (fun j => (Function.update self.sockets _ none j).map Params.no) = _
    rw [map_update]
    rfl
  · show (fun j => (Function.update self.sockets _ none j).map Params.cb) = _
    rw [map_update]
    rfl

/-- Copying the last item in use to position `i` and dropping the last position, for everything that the
    copy takes over. -/
theorem map_take_swap {β : Type} (g : Item → β) {items : List Item} {n i : Nat} {it last : Item}
    (hi : i < n) (hlast : items[n]? = some last) (hg : g (copyItem it last) = g last) :
    ((items.set i (copyItem it last)).take n).map g = swapRemove ((items.take (n + 1)).map g) i := by
  obtain ⟨hn, -⟩ := List.getElem?_eq_some_iff.mp hlast
  have hlen : ((items.take n).map g).length = n := by
    rw [List.length_map, List.length_take, Nat.min_eq_left (by omega)]
  rw [List.take_add_one, hlast, Option.toList_some, List.map_append, List.map_singleton, swapRemove_concat,
    List.set_append_left _ _ (by omega), List.dropLast_concat, List.take_set, List.map_set, hg]

/-- **`remove`** at another position moves the last item there, and its key must have an entry. -/
theorem remove_eq {skt : Pollee} {params : Params C} {it lastItem : Item} {i : Nat}
    (hparams : self.sockets (skt2id (getSocket skt)) = some params) (hno : params.no = i)
    (hi : i + 1 < self.nitems) (hit : self.items[i]? = some it)
    (hlastItem : self.items[self.nitems - 1]? = some lastItem) : self.remove skt =
      match Function.update self.sockets (skt2id (getSocket skt)) none (item2id lastItem) with
      | none => .error .indexNil
      | some lastParam => .ok { self with
          items := self.items.set i (copyItem it lastItem)
          sockets := Function.update (Function.update self.sockets (skt2id (getSocket skt)) none) (item2id lastItem)
            (some { lastParam with no := i })
          nitems := self.nitems - 1 } := by
  rw [remove, hparams]
  simp only
  rw [hno, if_neg (by omega), if_pos (by omega), if_neg (by omega), hlastItem, hit]

/-- The case analysis of **`remove`** at another position: the last item's key must have an entry. -/
theorem remove_swap (hc : Cap self) {skt : Pollee} {i : Nat} {last : Key}
    (h : self.pos (skt2id (getSocket skt)) = some i) (hi : i + 1 < self.nitems)
    (hlast : self.keys[self.nitems - 1]? = some last) (hpos : self.pos last ≠ none) :
    (last = skt2id (getSocket skt) ∧ self.remove skt = .error .indexNil) ∨
    (last ≠ skt2id (getSocket skt) ∧ ∃ it lastItem p, self.remove skt = .ok p ∧ Cap p ∧
      p.nitems = self.nitems - 1 ∧ self.items[i]? = some it ∧
      self.items[self.nitems - 1]? = some lastItem ∧ item2id lastItem = last ∧
      p.items = self.items.set i (copyItem it lastItem) ∧
      p.keys = swapRemove self.keys i ∧ p.pos = moved self.pos (skt2id (getSocket skt)) last i ∧
      p.cbOf = Function.update self.cbOf (skt2id (getSocket skt)) none) := by
  rw [pos, Option.map_eq_some_iff] at h
  obtain ⟨params, hparams, hno⟩ := h
  have hn := hc.nitems
  rw [getElem?_keys (by omega), Option.map_eq_some_iff] at hlast
  obtain ⟨lastItem, hlastItem, hid⟩ := hlast
  obtain ⟨it, hit⟩ : ∃ it, self.items[i]? = some it := ⟨_, List.getElem?_eq_getElem (by omega)⟩
  have hremove := remove_eq hparams hno hi hit hlastItem
  rw [hid] at hremove
  by_cases hk : last = skt2id (getSocket skt)
  · refine Or.inl ⟨hk, ?_⟩
    rw [hremove, hk, Function.update_self]
  · rw [Function.update_of_ne hk] at hremove
    obtain ⟨lastParam, hlp⟩ := Option.ne_none_iff_exists'.mp fun hnone : self.sockets last = none =>
      hpos (by rw [pos, hnone]; rfl)
    rw [hlp] at hremove
    refine Or.inr ⟨hk, it, lastItem, _, hremove, ⟨?_, ?_⟩, rfl, hit, hlastItem, hid, rfl, ?_, ?_, ?_⟩
    · show self.nitems - 1 ≤ _
      rw [List.length_set]
      omega
    · show self.size ≤ _
      rw [List.length_set]
      exact hc.size
    · have hcopy : item2id (copyItem it lastItem) = item2id lastItem := rfl
      show ((self.items.set i (copyItem it lastItem)).take (self.nitems - 1)).map item2id = _
      rw [map_take_swap item2id (by omega) hlastItem hcopy, Nat.sub_add_cancel (by omega), keys]
    · show (fun j => (Function.update (Function.update self.sockets _ none) last _ j).map Params.no) = _
      rw [map_update, map_update]
      rfl
    · show (fun j => (Function.update (Function.update self.sockets _ none) last _ j).map Params.cb) = _
      rw [map_update, map_update]
      apply Function.update_eq_self_iff.mpr
      rw [Function.update_of_ne hk]
      show some lastParam.cb = (self.sockets last).map Params.cb
      rw [hlp]
      rfl

/-- **`modify`** of a raw socket that the table has changes the item's events and the callback. -/
theorem modify_update (hc : Cap self) {r : RawSocket} {i : Nat} (h : self.pos (skt2id r) = some i)
    (hi : i < self.nitems) {events : Int} (hev : events ≠ 0) (cb : C) :
    ∃ p it, self.modify (.raw r) events (some cb) = .ok p ∧ Cap p ∧ p.nitems = self.nitems ∧
      self.used[i]? = some it ∧ p.used = self.used.set i { it with events := Int16.ofInt events } ∧
      p.keys = self.keys ∧ p.pos = self.pos ∧
      p.cbOf = Function.update self.cbOf (skt2id r) (some cb) := by
  rw [pos, Option.map_eq_some_iff] at h
  obtain ⟨params, hparams, hno⟩ := h
  have hn := hc.nitems
  obtain ⟨it, hit⟩ : ∃ it, self.items[i]? = some it := ⟨_, List.getElem?_eq_getElem (by omega)⟩
  have hmodify : self.modify (.raw r) events (some cb) = .ok { self with
      items := self.items.set i { it with events := Int16.ofInt events }
      sockets := Function.update self.sockets (skt2id r) (some { params with cb := cb }) } := by
    rw [modify, if_pos hev, Pollee.skt2id?]
    simp only
    rw [hparams]
    simp only
    rw [hno, hit]
  have hget : self.used[i]? = some it := by rw [used, List.getElem?_take, if_pos hi, hit]
  have hused : (self.items.set i { it with events := Int16.ofInt events }).take self.nitems =
      self.used.set i { it with events := Int16.ofInt events } := List.take_set
  refine ⟨_, it, hmodify, ⟨?_, ?_⟩, rfl, hget, hused, ?_, ?_, ?_⟩
  · show self.nitems ≤ _
    rw [List.length_set]
    exact hn
  · show self.size ≤ _
    rw [List.length_set]
    exact hc.size
  · -- the item keeps its key
    refine (congrArg (List.map item2id) hused).trans ?_
    obtain ⟨hlt, hitem⟩ := List.getElem?_eq_some_iff.mp hget
    rw [List.map_set, show item2id { it with events := Int16.ofInt events } = item2id self.used[i] by
      rw [hitem]; rfl, ← List.map_set, List.set_getElem_self]
    rfl
  · show (fun j => (Function.update self.sockets _ _ j).map Params.no) = _
    rw [map_update]
    apply Function.update_eq_self_iff.mpr
    show (some params.no : Option Nat) = (self.sockets (skt2id r)).map Params.no
    rw [hparams]
    rfl
  · show (fun j => (Function.update self.sockets _ _ j).map Params.cb) = _
    rw [map_update]
    rfl

end Poller

/-! ## One call -/

open Poller

/-- The state in which runs are analysed. -/
structure TraceInv (s : Traced C) : Prop where
  cap : Cap s.self
  nitems : s.self.nitems = s.regs.length
  indexed : Indexed s.self.keys s.self.pos
  perm : s.self.keys.Perm s.regs

theorem registryOk_iff {s : Traced C} (hc : Cap s.self) :
    RegistryOk s ↔ s.self.nitems = s.regs.length ∧ Indexed s.self.keys s.self.pos := by
  have hlen := length_keys hc
  have hn := hc.nitems
  constructor
  · rintro ⟨hcount, hitems, hentries⟩
    refine ⟨hcount, fun k hk => ?_, fun k i hk => ?_⟩
    · obtain ⟨i, hi, rfl⟩ := List.mem_iff_getElem.mp hk
      obtain ⟨it, hit, hne⟩ := hitems i (by omega)
      have hkey : s.self.keys[i]? = some (item2id it) := by rw [getElem?_keys (by omega), hit]; rfl
      obtain ⟨_, hget⟩ := List.getElem?_eq_some_iff.mp hkey
      rw [hget, pos, ne_eq, Option.map_eq_none_iff]
      exact hne
    · rw [pos, Option.map_eq_some_iff] at hk
      obtain ⟨params, hparams, rfl⟩ := hk
      obtain ⟨hlt, it, hit, hid⟩ := hentries k params hparams
      rw [getElem?_keys hlt, hit, ← hid]
      rfl
  · rintro ⟨hcount, htotal, hsound⟩
    refine ⟨hcount, fun i hi => ?_, fun k params hk => ?_⟩
    · have hit : s.self.items[i]? = some s.self.items[i] := List.getElem?_eq_getElem (by omega)
      refine ⟨_, hit, fun hnone => ?_⟩
      have hkey : s.self.keys[i]? = some (item2id s.self.items[i]) := by rw [getElem?_keys hi, hit]; rfl
      exact htotal _ (List.mem_of_getElem? hkey) (by rw [pos, hnone]; rfl)
    · have hget := hsound k params.no (by rw [pos, hk]; rfl)
      obtain ⟨hlt, -⟩ := List.getElem?_eq_some_iff.mp hget
      have hlt' : params.no < s.self.nitems := by omega
      rw [getElem?_keys hlt', Option.map_eq_some_iff] at hget
      exact ⟨hlt', hget⟩

theorem traceInv_init (n : Nat) : TraceInv (traceInit n : Traced C) where
  cap := cap_new n
  nitems := rfl
  indexed := by
    have hkeys : (Poller.new n : Poller C).keys = [] := by rw [Poller.keys, Poller.new, List.take_zero]; rfl
    show Indexed (Poller.new n : Poller C).keys _
    rw [hkeys]
    exact indexed_nil
  perm := by
    show ((Poller.new n : Poller C).items.take 0 |>.map item2id).Perm []
    rw [List.take_zero]
    exact List.Perm.nil

theorem traceStep_of_ok {s : Traced C} {c : Call C} {p : Poller C} (h : c.run s.self = .ok p) :
    traceStep s c = some ⟨p, regsAfter s.regs c⟩ := by
  rw [traceStep, h]; rfl

theorem traceStep_of_error {s : Traced C} {c : Call C} {e : Err} (h : c.run s.self = .error e) :
    traceStep s c = none := by
  rw [traceStep, h]; rfl

/-- What one call does, in terms of a condition `P` on the state before it. -/
def StepSpec (s : Traced C) (c : Call C) (P : Prop) : Prop :=
  (P → ∃ s', traceStep s c = some s' ∧ TraceInv s') ∧
    (¬ P → ∀ s', traceStep s c = some s' → ¬ RegistryOk s')

theorem add_step {s : Traced C} (h : TraceInv s) {c : Call C} (skt : Pollee) (events : Int) (cb : C)
    (hrun : c.run s.self = s.self.add skt events cb)
    (hregs : regsAfter s.regs c = skt2id (getSocket skt) :: s.regs) :
    ∃ s', traceStep s c = some s' ∧ TraceInv s' := by
  obtain ⟨p, hp, hcap, hn, -, hkeys, hpos, -⟩ := add_spec h.cap skt events cb
  refine ⟨_, traceStep_of_ok (hrun.trans hp), hcap, ?_, ?_, ?_⟩
  · rw [hregs, List.length_cons, hn, h.nitems]
  · show Indexed p.keys p.pos
    rw [hkeys, hpos, ← length_keys h.cap]
    exact h.indexed.append _
  · rw [hregs]
    show p.keys.Perm _
    rw [hkeys]
    exact (List.perm_append_singleton _ _).trans (h.perm.cons _)

/-- A removal that took the key `k` from position `i` of the array and out of the table. -/
theorem removed_step {s : Traced C} (h : TraceInv s) {c : Call C} {k : Key} {i : Nat} {p : Poller C}
    (hrun : c.run s.self = .ok p) (hregs : regsAfter s.regs c = s.regs.erase k)
    (hki : s.self.keys[i]? = some k) (hcap : p.Cap) (hn : p.nitems = s.self.nitems - 1)
    (hkeys : p.keys.Perm (s.self.keys.eraseIdx i)) (hnone : p.pos k = none)
    (hind : s.self.keys.count k = 1 → Indexed p.keys p.pos) : StepSpec s c (s.regs.count k ≤ 1) := by
  obtain ⟨hi, hget⟩ := List.getElem?_eq_some_iff.mp hki
  have hcount : s.self.keys.count k = s.regs.count k := h.perm.count_eq k
  have hone := count_eraseIdx_succ hki
  have hmem : k ∈ s.regs := List.count_pos_iff.mp (by omega)
  have hstep := traceStep_of_ok hrun
  refine ⟨fun hle => ⟨_, hstep, hcap, ?_, hind (by omega), ?_⟩, fun htwo s' hs' hok => ?_⟩
  · rw [hregs, List.length_erase_of_mem hmem, hn, h.nitems]
  · rw [hregs]
    have herase := List.erase_getElem hi
    rw [hget] at herase
    exact hkeys.trans (herase.symm.trans (h.perm.erase k))
  · obtain rfl := Option.some.inj (hstep.symm.trans hs')
    exact not_indexed_of_count hki (by omega) hkeys hnone ((registryOk_iff hcap).mp hok).2

/-- **A removal** re-establishes the invariant when its key is registered at most once, and breaks the
    registry (or raises) otherwise. -/
theorem remove_step {s : Traced C} (h : TraceInv s) {c : Call C} {skt : Pollee}
    (hrun : c.run s.self = s.self.remove skt)
    (hregs : regsAfter s.regs c = s.regs.erase (skt2id (getSocket skt))) :
    StepSpec s c (s.regs.count (skt2id (getSocket skt)) ≤ 1) := by
  generalize hk : skt2id (getSocket skt) = k at hregs ⊢
  have hcount : s.self.keys.count k = s.regs.count k := h.perm.count_eq k
  have hlen := length_keys h.cap
  cases hpos : s.self.pos k with
  | none =>
    have hnot : k ∉ s.self.keys := fun hmem => h.indexed.total k hmem hpos
    have hzero : s.regs.count k = 0 := by rw [← hcount, List.count_eq_zero]; exact hnot
    have herase : s.regs.erase k = s.regs :=
      List.erase_of_not_mem fun hmem => hnot (h.perm.mem_iff.mpr hmem)
    refine ⟨fun _ => ⟨s, ?_, h⟩, fun htwo => absurd (by omega) htwo⟩
    rw [traceStep_of_ok (hrun.trans (remove_absent (by rw [hk]; exact hpos))), hregs, herase]
  | some i =>
    have hki := h.indexed.sound k i hpos
    obtain ⟨hi, -⟩ := List.getElem?_eq_some_iff.mp hki
    rcases Nat.lt_or_ge (i + 1) s.self.nitems with hlt | hge
    · -- the last item moves to position `i`
      obtain ⟨last, hlast⟩ : ∃ last, s.self.keys[s.self.nitems - 1]? = some last :=
        ⟨_, List.getElem?_eq_getElem (by omega)⟩
      rcases remove_swap h.cap (by rw [hk]; exact hpos) hlt hlast
        (h.indexed.total last (List.mem_of_getElem? hlast)) with
        ⟨hlk, herr⟩ | ⟨hlk, -, -, p, hp, hcap, hn, -, -, -, -, hkeys, hpos', -⟩
      · refine ⟨fun hle => ?_, fun _ s' hs' => ?_⟩
        · have htwo : k ∈ s.self.keys.eraseIdx i := List.mem_eraseIdx_iff_getElem?.mpr
            ⟨s.self.nitems - 1, by omega, by rw [hlast, hlk, hk]⟩
          have hone := count_eraseIdx_succ hki
          have := List.count_pos_iff.mpr htwo
          omega
        · rw [traceStep_of_error (hrun.trans herr)] at hs'
          cases hs'
      · rw [hk] at hlk hpos'
        refine removed_step h (hrun.trans hp) hregs hki hcap hn ?_ ?_ fun hone => ?_
        · rw [hkeys]
          exact swapRemove_perm hi
        · rw [hpos', moved, Function.update_of_ne (Ne.symm hlk), Function.update_self]
        · rw [hkeys, hpos']
          exact h.indexed.swapRemove hpos hone (by omega) (by rw [hlen]; exact hlast)
    · -- the item removed is the last one
      obtain rfl : i = s.self.nitems - 1 := by omega
      obtain ⟨p, hp, hcap, hn, -, hkeys, hpos', -⟩ := remove_last h.cap (by rw [hk]; exact hpos) (by omega)
      rw [hk] at hpos'
      refine removed_step h (hrun.trans hp) hregs hki hcap hn ?_ ?_ fun hone => ?_
      · rw [hkeys, List.eraseIdx_eq_take_drop_succ, List.drop_eq_nil_of_le (by omega), List.append_nil]
      · rw [hpos', Function.update_self]
      · rw [hkeys, hpos', ← hlen]
        exact h.indexed.dropLast (by rw [hlen]; exact hpos) hone

/-- **A modification** of a raw socket adds it when it is not registered, else changes its item. -/
theorem modify_step {s : Traced C} (h : TraceInv s) (r : RawSocket) {events : Int} (hev : events ≠ 0) (cb : C) :
    ∃ s', traceStep s (.modify (.raw r) events (some cb)) = some s' ∧ TraceInv s' := by
  have hsets : sets events (some cb) := ⟨hev, by simp⟩
  cases hpos : s.self.pos (skt2id r) with
  | none =>
    have hnot : skt2id r ∉ s.regs := fun hmem => h.indexed.total _ (h.perm.mem_iff.mpr hmem) hpos
    refine add_step h (.raw r) events cb ?_ ?_
    · rw [Poller.pos, Option.map_eq_none_iff] at hpos
      rw [Call.run, Poller.modify, if_pos hev, Pollee.skt2id?]
      simp only
      rw [hpos]
    · rw [regsAfter, if_pos hsets]
      exact if_neg hnot
  | some i =>
    have hki := h.indexed.sound _ i hpos
    obtain ⟨hi, -⟩ := List.getElem?_eq_some_iff.mp hki
    rw [length_keys h.cap] at hi
    obtain ⟨p, -, hp, hcap, hn, -, -, hkeys, hpos', -⟩ := modify_update h.cap hpos hi hev cb
    have hregs : regsAfter s.regs (.modify (.raw r) events (some cb)) = s.regs := by
      rw [regsAfter, if_pos hsets]
      exact if_pos (h.perm.mem_iff.mp (List.mem_of_getElem? hki))
    refine ⟨_, traceStep_of_ok hp, hcap, ?_, ?_, ?_⟩
    · rw [hregs, hn, h.nitems]
    · show Indexed p.keys p.pos
      rw [hkeys, hpos']
      exact h.indexed
    · rw [hregs]
      show p.keys.Perm _
      rw [hkeys]
      exact h.perm

/-- **One call.** -/
theorem traceStep_spec {s : Traced C} (h : TraceInv s) (c : Call C) : StepSpec s c (CallOk s c) := by
  cases c with
  | add skt events cb => exact ⟨fun _ => add_step h skt events cb rfl rfl, fun hno => absurd trivial hno⟩
  | remove skt => exact remove_step h rfl rfl
  | modify skt events cb =>
    by_cases hsets : sets events cb
    · rw [CallOk, if_pos hsets]
      obtain ⟨hev, hcb⟩ := hsets
      obtain ⟨cb, rfl⟩ := Option.ne_none_iff_exists'.mp hcb
      cases skt with
      | pollable obj r =>
        refine ⟨?_, fun _ s' hs' => ?_⟩
        · rintro ⟨_, hr⟩
          cases hr
        have herr : Call.run s.self (.modify (.pollable obj r) events (some cb)) = .error .noMethod := by
          rw [Call.run, Poller.modify, if_pos hev]
          rfl
        rw [traceStep_of_error herr] at hs'
        cases hs'
      | raw r => exact ⟨fun _ => modify_step h r hev cb, fun hno => absurd ⟨r, rfl⟩ hno⟩
    · rw [CallOk, if_neg hsets]
      refine remove_step h ?_ ?_
      · cases cb with
        | none => rfl
        | some cb =>
          have hev : events = 0 := by
            by_contra hne
            exact hsets ⟨hne, by simp⟩
          rw [Call.run, Poller.modify, if_neg (not_not.mpr hev)]
      · rw [regsAfter, if_neg hsets]

/-! ## Sequences of calls -/

end Lzmq.FfiPoller
