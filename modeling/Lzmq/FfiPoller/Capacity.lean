/-
  The item array of the FFI poller.

  `Poller:ensure` replaces the array by a longer one and leaves the field `size` as it is, so that from then on
  nothing in the object says how long the array is, and `size - nitems` is no number of free items any more.
  What still holds is that the array has neither less than `size` nor less than `nitems` items, and this is
  enough (`capacity`).

  Here the array is what it is in LuaJIT: nil or a reference, which a running poll keeps a copy of.  Callbacks
  may add, remove and poll; if they make the array grow, the poll goes on with the old one.  Seen as a list of
  items (`Object.view`), `add` and `remove` are the ones of the registry, call by call (`Follows`) and in any
  sequence of calls (`run_view`).
-/
import Lzmq.FfiPoller.Dispatch
import Lzmq.Lib.Arrays
import Lzmq.Lib.Lua

namespace Lzmq.FfiPoller

open Lzmq.Arrays

/-! ## The object -/

/-- A call of `Poller:poll` that is under way. -/
structure Frame where
  /-- Its local `items`. -/
  items : Option Nat
  /-- The positions below are still to be looked at. -/
  left : Nat
  /-- A callback is running. -/
  calling : Bool

/-- A poller, with all arrays that it has had and its polls, the innermost one first. -/
structure Object (C : Type) where
  mem : Mem Item
  items : Option Nat
  size : Nat
  nitems : Nat
  sockets : Key → Option (Params C)
  polls : List Frame

/-- Whether `ffi.new` gets its memory, and whether the argument has a handle. -/
structure Env where
  alloc : Bool
  handle : Bool

namespace Object

variable {C : Type}

/-- `Poller:new`, without a number or with one. -/
def new : Option Nat → Object C
  | none => ⟨.empty, none, 0, 0, fun _ => none, []⟩
  | some n => ⟨Mem.empty.alloc (List.replicate n Item.zero), some 0, n, 0, fun _ => none, []⟩

/-- The item array. -/
def array (s : Object C) : List Item := s.mem.get s.items

/-- The poller as the registry has it. -/
def view (s : Object C) : Poller C := ⟨s.array, s.size, s.nitems, s.sockets⟩

/-! ## The methods -/

/-- `items[i]`; nil cannot be indexed, and behind the end of an array there is anything. -/
def readItem (items : Option Nat) (i : Nat) : Lua (Object C) Item := do
  let item ← Lua.read fun s => (s.mem.get items).getD i Item.zero
  Lua.modify fun s => { s with mem := s.mem.touch items i }
  if items = none then Lua.raise else pure item

/-- Assignments to the fields of `items[i]`. -/
def writeItem (items : Option Nat) (i : Nat) (f : Item → Item) : Lua (Object C) Unit := do
  Lua.modify fun s => { s with mem := s.mem.set items i f }
  if items = none then Lua.raise else pure ()

/-- `ffi.new(api.vla_pollitem_t, n)` -/
def ffiNew (env : Env) (n : Nat) : Lua (Object C) Nat := do
  if env.alloc then do
    let a ← Lua.read fun s => s.mem.next
    Lua.modify fun s => { s with mem := s.mem.alloc (List.replicate n Item.zero) }
    pure a
  else Lua.raise

def ensure (env : Env) (n : Nat) : Lua (Object C) Unit := do
  let empty ← Lua.read fun s => (s.size : Int) - s.nitems
  if n ≤ empty then pure ()
  else do
    let len ← Lua.read fun s => ((s.size : Int) + (n - empty)).toNat
    let new ← ffiNew env len
    Lua.modify fun s =>
      if s.items = none then s else { s with mem := s.mem.copy (some new) s.items s.nitems }
    Lua.modify fun s => { s with items := some new }

def add (env : Env) (skt : Pollee) (events : Int) (cb : C) : Lua (Object C) Unit := do
  ensure env 1
  if env.handle then do
    let n ← Lua.read Object.nitems
    let s := getSocket skt
    let items ← Lua.read Object.items
    writeItem items n fun _ => Poller.newItem s events
    Lua.modify fun o => { o with
      sockets := Function.update o.sockets (FfiPoller.skt2id s) (some ⟨skt, cb, n⟩)
      nitems := n + 1 }
  else Lua.raise

/-- The end of `remove`, which copies the last item to the position `no`. -/
def moveLast (items : Option Nat) (no last : Nat) : Lua (Object C) Unit := do
  let lastItem ← readItem items last
  match ← Lua.read fun s => s.sockets (item2id lastItem) with
  | none => Lua.raise -- last_param[3] = skt_no
  | some lastParam => do
    Lua.modify fun s => { s with
      sockets := Function.update s.sockets (item2id lastItem) (some { lastParam with no := no }) }
    writeItem items no fun it => Poller.copyItem it lastItem

def remove (skt : Pollee) : Lua (Object C) Unit := do
  let items ← Lua.read Object.items
  let nitems ← Lua.read Object.nitems
  let h := FfiPoller.skt2id (getSocket skt)
  match ← Lua.read fun s => s.sockets h with
  | none => pure ()
  | some params => do
    Lua.modify fun s => { s with sockets := Function.update s.sockets h none }
    if nitems = 0 then pure ()
    else if params.no < nitems then do
      Lua.modify fun s => { s with nitems := nitems - 1 }
      -- if we remove last socket
      if params.no = nitems - 1 then pure () else moveLast items params.no (nitems - 1)
    else Lua.raise -- assert(skt_no < nitems)

/-- `Poller:poll` up to its loop, with what `zmq_poll` returns and the `revents` it leaves. -/
def poll (ret : Int) (revents : Nat → Int16) : Lua (Object C) Unit := do
  let items ← Lua.read Object.items
  let nitems ← Lua.read Object.nitems
  Lua.modify fun s => { s with
    mem := (s.mem.touchFirst items nitems).put items fun bs => setRevents bs nitems revents }
  if ret = -1 then pure ()
  else Lua.modify fun s => { s with polls := ⟨items, nitems, false⟩ :: s.polls }

/-- The loop at position `i`; `outer` are the polls that this one is called by. -/
def position (items : Option Nat) (i : Nat) (outer : List Frame) : Lua (Object C) Unit := do
  let item ← readItem items i
  Lua.modify fun s => { s with
    polls := ⟨items, i, decide (item.revents ≠ 0) && (s.sockets (item2id item)).isSome⟩ :: outer }

end Object

/-! ## Runs -/

/-- What happens next: a call by the user, a running poll goes on, a callback returns, or an error ends `n`
    polls. -/
inductive Action (C : Type)
  | add (env : Env) (skt : Pollee) (events : Int) (cb : C)
  | remove (skt : Pollee)
  | poll (ret : Int) (revents : Nat → Int16)
  | goOn
  | callbackReturns
  | throw (n : Nat)

/-- It is the user's code that runs. -/
def inUserCode : List Frame → Bool
  | [] => true
  | f :: _ => f.calling

variable {C : Type}

def objectStep (s : Object C) : Action C → Option (Object C)
  | .add env skt events cb => if inUserCode s.polls then Lua.after (Object.add env skt events cb) s else none
  | .remove skt => if inUserCode s.polls then Lua.after (Object.remove skt) s else none
  | .poll ret revents => if inUserCode s.polls then Lua.after (Object.poll ret revents) s else none
  | .goOn =>
    match s.polls with
    | ⟨_, 0, false⟩ :: outer => some { s with polls := outer }
    | ⟨items, i + 1, false⟩ :: outer => Lua.after (Object.position items i outer) s
    | _ => none
  | .callbackReturns =>
    match s.polls with
    | ⟨items, left, true⟩ :: outer => some { s with polls := ⟨items, left, false⟩ :: outer }
    | _ => none
  | .throw n =>
    if n ≤ s.polls.length ∧ inUserCode (s.polls.drop n) = true then some { s with polls := s.polls.drop n }
    else none

/-! ## What the methods leave alone -/

/-- The positions that the poll is still to look at are in its array. -/
def Frame.Ok (f : Frame) (m : Mem Item) : Prop := m.Made f.items ∧ f.left ≤ (m.get f.items).length

theorem Frame.Ok.mono {f : Frame} {m m' : Mem Item} (h : f.Ok m) (hext : m.Extends m') : f.Ok m' := by
  refine ⟨h.1.mono hext, ?_⟩
  rw [hext.get h.1]
  exact h.2

/-- The array has been made, and has at least `size` and at least `nitems` items. -/
structure Fits (s : Object C) : Prop where
  made : s.mem.Made s.items
  cap : s.view.Cap

/-- A change that accesses arrays inside only, ends with one that fits, and does not touch `size`. -/
structure Safe (s s' : Object C) : Prop where
  mem : s.mem.Extends s'.mem
  fits : Fits s'
  size : s'.size = s.size
  polls : ∀ f ∈ s'.polls, f ∈ s.polls ∨ f.Ok s'.mem

section Safe

variable {s u s' : Object C}

theorem Fits.nitems (h : Fits s) : s.nitems ≤ (s.mem.get s.items).length := h.cap.nitems

theorem Fits.safe (h : Fits s) : Safe s s := ⟨.refl _, h, rfl, fun _ hf => .inl hf⟩

theorem Safe.trans (h : Safe s u) (h' : Safe u s') : Safe s s' where
  mem := h.mem.trans h'.mem
  fits := h'.fits
  size := h'.size.trans h.size
  polls f hf := by
    rcases h'.polls f hf with hf | hf
    · exact (h.polls f hf).imp_right fun hok => hok.mono h'.mem
    · exact .inr hf

/-- The array stays, and no more items are in use. -/
theorem Fits.safe_of (h : Fits s) (hmem : s.mem.Extends s'.mem) (hitems : s'.items = s.items)
    (hsize : s'.size = s.size) (hn : s'.nitems ≤ s.nitems)
    (hpolls : ∀ f ∈ s'.polls, f ∈ s.polls ∨ f.Ok s'.mem) : Safe s s' := by
  have hlen : s'.array.length = s.array.length := by
    rw [Object.array, hitems]
    exact hmem.get h.made
  refine ⟨hmem, ⟨?_, ?_, ?_⟩, hsize, hpolls⟩
  · rw [hitems]
    exact h.made.mono hmem
  · show s'.nitems ≤ s'.array.length
    rw [hlen]
    exact Nat.le_trans hn h.cap.nitems
  · show s'.size ≤ s'.array.length
    rw [hlen, hsize]
    exact h.cap.size

/-- A method ends, safely, as the registry has it end, and starts and ends no poll. -/
inductive Follows (s : Object C) : Ending (Object C) Unit → Except Err (Poller C) → Prop
  | ret {s' : Object C} (h : Safe s s') (hpolls : s'.polls = s.polls) : Follows s (.ret () s') (.ok s'.view)
  | raise {s' : Object C} (e : Err) (h : Safe s s') : Follows s (.raise s') (.error e)

theorem Follows.leaves {r : Ending (Object C) Unit} {v : Except Err (Poller C)} (h : Follows s r v) :
    Lua.Leaves (Safe s) r := by
  cases h with
  | ret h hpolls => exact h
  | raise e h => exact h

theorem Follows.of_ok {x : Lua (Object C) Unit} {p : Poller C} (h : Follows s (x s) (.ok p)) :
    ∃ s', Lua.after x s = some s' ∧ s'.view = p ∧ Fits s' ∧ s'.polls = s.polls := by
  generalize hx : x s = r at h
  cases h with
  | ret hsafe hpolls => exact ⟨_, Lua.after_of (.inl ⟨_, hx⟩), rfl, hsafe.fits, hpolls⟩

end Safe

/-! ## The methods, as the registry has them -/

namespace Object

variable {s : Object C}

theorem run_readItem {items : Option Nat} {i : Nat} (hi : i < (s.mem.get items).length) :
    readItem items i s = .ret (s.mem.get items)[i] { s with mem := s.mem.touch items i } := by
  cases items with
  | none => exact absurd hi (Nat.not_lt_zero _)
  | some a =>
    have hget : (s.mem.get (some a)).getD i Item.zero = (s.mem.get (some a))[i] := by
      rw [List.getD_eq_getElem?_getD, List.getElem?_eq_getElem hi, Option.getD_some]
    rw [← hget]
    rfl

theorem run_writeItem {items : Option Nat} {i : Nat} (hi : i < (s.mem.get items).length) (f : Item → Item) :
    writeItem items i f s = .ret () { s with mem := s.mem.set items i f } := by
  cases items with
  | none => exact absurd hi (Nat.not_lt_zero _)
  | some a => rfl

/-- The memory with a new array of `size + (n - empty)` items. -/
def grownMem (s : Object C) (n : Nat) : Mem Item :=
  let m := s.mem.alloc (List.replicate (s.nitems + n) Item.zero)
  if s.items = none then m else m.copy (some s.mem.next) s.items s.nitems

theorem extends_grownMem (h : Fits s) (n : Nat) :
    s.mem.Extends (s.grownMem n) ∧ (s.grownMem n).Made (some s.mem.next) := by
  have hmade (m : Mem Item) (hm : m.next = s.mem.next + 1) : m.Made (some s.mem.next) := by
    rintro a ⟨⟩
    rw [hm]
    exact Nat.lt_succ_self _
  rw [grownMem]
  by_cases hitems : s.items = none
  · rw [if_pos hitems]
    exact ⟨Mem.extends_alloc _, hmade _ rfl⟩
  · rw [if_neg hitems]
    refine ⟨(Mem.extends_alloc _).trans (Mem.extends_copy (n := s.nitems) ?_ ?_), hmade _ rfl⟩
    · rw [Mem.get_alloc_self, List.length_replicate]
      exact Nat.le_add_right ..
    · rw [Mem.get_alloc _ h.made]
      exact h.nitems

theorem get_grownMem (h : Fits s) (n : Nat) :
    (s.grownMem n).get (some s.mem.next) = s.array.take s.nitems ++ List.replicate n Item.zero := by
  rw [grownMem]
  by_cases hitems : s.items = none
  · have hn : s.nitems = 0 := by
      have := h.nitems
      rw [hitems] at this
      exact Nat.le_zero.mp this
    rw [if_pos hitems, Mem.get_alloc_self, hn, List.take_zero, Nat.zero_add, List.nil_append]
  · rw [if_neg hitems, Mem.get_copy _ (Option.some_ne_none _), Mem.get_alloc _ h.made, Mem.get_alloc_self,
      List.drop_replicate, Nat.add_sub_cancel_left]
    rfl

/-- There is room, or no memory, or a new array. -/
theorem run_ensure (env : Env) (n : Nat) : ensure env n s =
    if (n : Int) ≤ (s.size : Int) - s.nitems then .ret () s
    else if env.alloc then .ret () { s with mem := s.grownMem n, items := some s.mem.next }
    else .raise s := by
  show (if (n : Int) ≤ (s.size : Int) - s.nitems then pure () else _ : Lua (Object C) Unit) s = _
  by_cases hroom : (n : Int) ≤ (s.size : Int) - s.nitems
  · rw [if_pos hroom, if_pos hroom]
    rfl
  · have hlen : ((s.size : Int) + (n - ((s.size : Int) - s.nitems))).toNat = s.nitems + n := by omega
    rw [if_neg hroom, if_neg hroom, grownMem, ← hlen]
    by_cases halloc : env.alloc = true
    · by_cases hitems : s.items = none
      · simp [ffiNew, halloc, hitems]
      · simp [ffiNew, halloc, hitems]
    · simp [ffiNew, halloc]

theorem view_ensure {n : Nat} (hroom : ¬ (n : Int) ≤ (s.view.size : Int) - s.view.nitems) : s.view.ensure n =
    { s.view with items := s.array.take s.nitems ++ List.replicate n Item.zero } := by
  have hlen : ((s.view.size : Int) + (n - ((s.view.size : Int) - s.view.nitems))).toNat - s.view.nitems = n := by
    omega
  rw [Poller.ensure, if_neg hroom, hlen]
  rfl

/-- **`ensure`** does what the registry has it do, unless there is no memory. -/
theorem ensure_cases (h : Fits s) (env : Env) (n : Nat) :
    (env.alloc = false ∧ ensure env n s = .raise s) ∨
    ∃ s', ensure env n s = .ret () s' ∧ s'.view = s.view.ensure n ∧ s'.polls = s.polls ∧ Safe s s' := by
  rw [run_ensure]
  by_cases hroom : (n : Int) ≤ (s.size : Int) - s.nitems
  · rw [if_pos hroom]
    exact .inr ⟨s, rfl, (if_pos hroom).symm, rfl, h.safe⟩
  · rw [if_neg hroom]
    by_cases halloc : env.alloc = true
    · obtain ⟨hext, hmade⟩ := extends_grownMem h n
      have hview : view { s with mem := s.grownMem n, items := some s.mem.next } = s.view.ensure n := by
        rw [view_ensure hroom, ← get_grownMem h]
        rfl
      rw [if_pos halloc]
      refine .inr ⟨_, rfl, hview, rfl, hext, ⟨hmade, ?_⟩, rfl, fun _ hf => .inl hf⟩
      rw [hview]
      exact (Poller.ensure_spec h.cap n).2.2.1
    · rw [if_neg halloc]
      exact .inl ⟨Bool.eq_false_iff.mpr halloc, rfl⟩

theorem run_add {u : Object C} {env : Env} (hret : ensure env 1 s = .ret () u)
    (hlt : u.nitems < (u.mem.get u.items).length) (skt : Pollee) (events : Int) (cb : C) :
    add env skt events cb s =
      if env.handle then .ret () { u with
        mem := u.mem.set u.items u.nitems fun _ => Poller.newItem (getSocket skt) events
        sockets := Function.update u.sockets (FfiPoller.skt2id (getSocket skt)) (some ⟨skt, cb, u.nitems⟩)
        nitems := u.nitems + 1 }
      else .raise u := by
  show Lua.andThen (ensure env 1 s) _ = _
  rw [hret, Lua.andThen_ret]
  by_cases hhandle : env.handle = true
  · rw [if_pos hhandle, if_pos hhandle]
    show Lua.andThen (writeItem u.items u.nitems _ u) _ = _
    rw [run_writeItem hlt]
    rfl
  · rw [if_neg hhandle, if_neg hhandle]
    rfl

/-- **`add`** does what the registry has it do, unless there is no memory or no handle. -/
theorem add_cases (h : Fits s) (env : Env) (skt : Pollee) (events : Int) (cb : C) :
    (env ≠ ⟨true, true⟩ ∧ ∃ s', add env skt events cb s = .raise s' ∧ Safe s s') ∨
    Follows s (add env skt events cb s) (s.view.add skt events cb) := by
  rcases ensure_cases h env 1 with ⟨halloc, hraise⟩ | ⟨u, hret, hview, hpolls, hsafe⟩
  · refine .inl ⟨?_, s, ?_, h.safe⟩
    · rintro rfl
      cases halloc
    · show Lua.andThen (ensure env 1 s) _ = _
      rw [hraise]
      rfl
  · have hlt : u.nitems < u.array.length := by
      obtain ⟨hn, -, -, hlen, -⟩ := Poller.ensure_spec h.cap 1
      rw [← hview] at hn hlen
      show u.view.nitems < u.view.items.length
      omega
    rw [run_add hret hlt]
    by_cases hhandle : env.handle = true
    · have hset : u.array.set u.nitems (Poller.newItem (getSocket skt) events) = _ :=
        (u.mem.get_set (fun _ => Poller.newItem (getSocket skt) events) hlt).symm
      have hadd : s.view.add skt events cb = .ok { u.view with
          items := u.array.set u.nitems (Poller.newItem (getSocket skt) events)
          sockets := Function.update u.sockets (FfiPoller.skt2id (getSocket skt)) (some ⟨skt, cb, u.nitems⟩)
          nitems := u.nitems + 1 } := by
        rw [Poller.add, ← hview]
        exact if_pos hlt
      obtain ⟨p, hp, hcap, -⟩ := Poller.add_spec h.cap skt events cb
      obtain rfl := Except.ok.inj (hp.symm.trans hadd)
      rw [hset] at hadd hcap
      have hext := Mem.extends_set (fun _ => Poller.newItem (getSocket skt) events) hlt
      rw [if_pos hhandle, hadd]
      refine .inr (.ret (hsafe.trans ?_) hpolls)
      exact ⟨hext, ⟨hsafe.fits.made.mono hext, hcap⟩, rfl, fun _ hf => .inl hf⟩
    · rw [if_neg hhandle]
      refine .inl ⟨?_, u, rfl, hsafe⟩
      rintro rfl
      exact hhandle rfl

theorem run_moveLast {items : Option Nat} {no last : Nat} (hno : no < (s.mem.get items).length)
    (hlast : last < (s.mem.get items).length) : moveLast items no last s =
      match s.sockets (item2id (s.mem.get items)[last]) with
      | none => .raise { s with mem := s.mem.touch items last }
      | some lastParam => .ret () { s with
          mem := (s.mem.touch items last).set items no fun it => Poller.copyItem it (s.mem.get items)[last]
          sockets := Function.update s.sockets (item2id (s.mem.get items)[last])
            (some { lastParam with no := no }) } := by
  rw [moveLast, Lua.run_bind, run_readItem hlast]
  simp only [Lua.run_bind, Lua.run_read, Lua.andThen_ret]
  cases hparam : s.sockets (item2id (s.mem.get items)[last]) with
  | none => rfl
  | some lastParam => exact run_writeItem (s := { s with mem := s.mem.touch items last, sockets := _ }) hno _

theorem run_remove_absent {skt : Pollee} (h : s.sockets (FfiPoller.skt2id (getSocket skt)) = none) :
    remove skt s = .ret () s := by
  simp only [remove, Lua.run_bind, Lua.run_read, Lua.andThen_ret]
  rw [h]
  rfl

theorem run_remove {skt : Pollee} {params : Params C}
    (h : s.sockets (FfiPoller.skt2id (getSocket skt)) = some params) : remove skt s =
      let o := { s with sockets := Function.update s.sockets (FfiPoller.skt2id (getSocket skt)) none }
      if s.nitems = 0 then .ret () o
      else if params.no < s.nitems then
        if params.no = s.nitems - 1 then .ret () { o with nitems := s.nitems - 1 }
        else moveLast s.items params.no (s.nitems - 1) { o with nitems := s.nitems - 1 }
      else .raise o := by
  simp only [remove, Lua.run_bind, Lua.run_read, Lua.andThen_ret]
  rw [h]
  simp only [Lua.run_bind, Lua.run_modify, Lua.andThen_ret]
  by_cases hzero : s.nitems = 0
  · rw [if_pos hzero, if_pos hzero]
    rfl
  · rw [if_neg hzero, if_neg hzero]
    by_cases hno : params.no < s.nitems
    · rw [if_pos hno, if_pos hno]
      by_cases hlast : params.no = s.nitems - 1
      · simp only [hlast, if_true]
        rfl
      · simp only [hlast, if_false]
        rfl
    · rw [if_neg hno, if_neg hno]
      rfl

theorem run_remove_swap {skt : Pollee} {params : Params C}
    (h : s.sockets (FfiPoller.skt2id (getSocket skt)) = some params) (hi : params.no + 1 < s.nitems)
    (hno : params.no < (s.mem.get s.items).length) (hlast : s.nitems - 1 < (s.mem.get s.items).length) :
    remove skt s =
      let o : Object C := { s with
        sockets := Function.update s.sockets (FfiPoller.skt2id (getSocket skt)) none
        nitems := s.nitems - 1 }
      match o.sockets (item2id (s.mem.get s.items)[s.nitems - 1]) with
      | none => .raise { o with mem := s.mem.touch s.items (s.nitems - 1) }
      | some lastParam => .ret () { o with
          mem := (s.mem.touch s.items (s.nitems - 1)).set s.items params.no fun it =>
            Poller.copyItem it (s.mem.get s.items)[s.nitems - 1]
          sockets := Function.update o.sockets (item2id (s.mem.get s.items)[s.nitems - 1])
            (some { lastParam with no := params.no }) } := by
  rw [run_remove h]
  simp only
  rw [if_neg (by omega), if_pos (by omega), if_neg (by omega)]
  let o : Object C := { s with
    sockets := Function.update s.sockets (FfiPoller.skt2id (getSocket skt)) none
    nitems := s.nitems - 1 }
  exact run_moveLast (s := o) hno hlast

/-- `remove` when another item is the last one. -/
theorem remove_swap_follows (h : Fits s) {skt : Pollee} {params : Params C}
    (hparams : s.view.sockets (FfiPoller.skt2id (getSocket skt)) = some params) (hi : params.no + 1 < s.nitems) :
    Follows s (remove skt s) (s.view.remove skt) := by
  have hn := h.nitems
  have hno : params.no < (s.mem.get s.items).length := by omega
  have hlast : s.nitems - 1 < (s.mem.get s.items).length := by omega
  have hrun := run_remove_swap hparams hi hno hlast
  have hreg := Poller.remove_eq hparams rfl hi (List.getElem?_eq_getElem hno) (List.getElem?_eq_getElem hlast)
  have htouch : s.mem.Extends (s.mem.touch s.items (s.nitems - 1)) := Mem.extends_touch hlast
  generalize (s.mem.get s.items)[s.nitems - 1] = last at hrun hreg
  cases hlookup : Function.update s.sockets (FfiPoller.skt2id (getSocket skt)) none (item2id last) with
  | none =>
    rw [show Function.update s.view.sockets _ _ _ = none from hlookup] at hreg
    simp only [hlookup] at hrun
    rw [hrun, hreg]
    exact .raise _ (h.safe_of htouch rfl rfl (Nat.sub_le ..) fun _ hf => .inl hf)
  | some lastParam =>
    have hset : s.view.items.set params.no (Poller.copyItem (s.mem.get s.items)[params.no] last) = _ :=
      ((s.mem.touch s.items (s.nitems - 1)).get_set (fun it => Poller.copyItem it last) hno).symm
    rw [show Function.update s.view.sockets _ _ _ = some lastParam from hlookup] at hreg
    simp only [hset] at hreg
    simp only [hlookup] at hrun
    rw [hrun, hreg]
    exact .ret (h.safe_of (htouch.trans (Mem.extends_set _ hno)) rfl rfl (Nat.sub_le ..) fun _ hf => .inl hf) rfl

/-- **`remove`** does what the registry has it do. -/
theorem remove_follows (h : Fits s) (skt : Pollee) : Follows s (remove skt s) (s.view.remove skt) := by
  have hsafe (s' : Object C) (hmem : s'.mem = s.mem) (hitems : s'.items = s.items) (hsize : s'.size = s.size)
      (hle : s'.nitems ≤ s.nitems) (hpolls : s'.polls = s.polls) : Safe s s' :=
    h.safe_of (hmem ▸ .refl _) hitems hsize hle fun f hf => .inl (hpolls ▸ hf)
  cases hparams : s.view.sockets (FfiPoller.skt2id (getSocket skt)) with
  | none =>
    have hpos : s.view.pos (FfiPoller.skt2id (getSocket skt)) = none := by
      rw [Poller.pos, hparams]
      rfl
    rw [run_remove_absent hparams, Poller.remove_absent hpos]
    exact .ret h.safe rfl
  | some params =>
    by_cases hswap : params.no + 1 < s.nitems
    · exact remove_swap_follows h hparams hswap
    rw [run_remove hparams, Poller.remove, hparams]
    simp only
    by_cases hzero : s.nitems = 0
    · rw [if_pos hzero, if_pos (show s.view.nitems = 0 from hzero)]
      exact .ret (hsafe _ rfl rfl rfl (Nat.le_refl _) rfl) rfl
    rw [if_neg hzero, if_neg (show ¬ s.view.nitems = 0 from hzero)]
    by_cases hno : params.no < s.nitems
    · have hlast : params.no = s.nitems - 1 := by omega
      rw [if_pos hno, if_pos (show params.no < s.view.nitems from hno), if_pos hlast,
        if_pos (show params.no = s.view.nitems - 1 from hlast)]
      exact .ret (hsafe _ rfl rfl rfl (Nat.sub_le ..) rfl) rfl
    · rw [if_neg hno, if_neg (show ¬ params.no < s.view.nitems from hno)]
      exact .raise _ (hsafe _ rfl rfl rfl (Nat.le_refl _) rfl)

/-- `zmq_poll` stays in the array, and so will the loop. -/
theorem run_poll (h : Fits s) (ret : Int) (revents : Nat → Int16) :
    ∃ s', poll ret revents s = .ret () s' ∧ Safe s s' := by
  let mem' := (s.mem.touchFirst s.items s.nitems).put s.items fun bs => setRevents bs s.nitems revents
  have hext : s.mem.Extends mem' :=
    (Mem.extends_touchFirst h.nitems).trans (Mem.extends_put (length_setRevents ..))
  have hframe : Frame.Ok ⟨s.items, s.nitems, false⟩ mem' := Frame.Ok.mono ⟨h.made, h.nitems⟩ hext
  by_cases hret : ret = -1
  · refine ⟨{ s with mem := mem' }, ?_, h.safe_of hext rfl rfl (Nat.le_refl _) fun _ hf => .inl hf⟩
    simp only [poll, Lua.run_bind, Lua.run_read, Lua.run_modify, Lua.andThen_ret]
    rw [if_pos hret]
    rfl
  · refine ⟨{ s with mem := mem', polls := ⟨s.items, s.nitems, false⟩ :: s.polls }, ?_,
      h.safe_of hext rfl rfl (Nat.le_refl _) fun f hf => ?_⟩
    · simp only [poll, Lua.run_bind, Lua.run_read, Lua.run_modify, Lua.andThen_ret]
      rw [if_neg hret]
      rfl
    · rcases List.mem_cons.mp hf with rfl | hf
      · exact .inr hframe
      · exact .inl hf

/-- A position of the loop is in the poll's array. -/
theorem run_position (h : Fits s) {items : Option Nat} {i : Nat} {calling : Bool} {outer : List Frame}
    (hpolls : s.polls = ⟨items, i + 1, calling⟩ :: outer) (hok : Frame.Ok ⟨items, i + 1, calling⟩ s.mem) :
    ∃ s', position items i outer s = .ret () s' ∧ Safe s s' := by
  have hi : i < (s.mem.get items).length := hok.2
  have hext : s.mem.Extends (s.mem.touch items i) := Mem.extends_touch hi
  let item := (s.mem.get items)[i]
  let calls := decide (item.revents ≠ 0) && (s.sockets (item2id item)).isSome
  refine ⟨{ s with mem := s.mem.touch items i, polls := ⟨items, i, calls⟩ :: outer }, ?_,
    h.safe_of hext rfl rfl (Nat.le_refl _) fun f hf => ?_⟩
  · rw [position, Lua.run_bind, run_readItem hi]
    rfl
  · rcases List.mem_cons.mp hf with rfl | hf
    · exact .inr ⟨hok.1.mono hext, Nat.le_of_succ_le hok.2⟩
    · rw [hpolls]
      exact .inl (List.mem_cons_of_mem _ hf)

end Object

/-! ## Any run -/

/-- What is true of a poller that was made with `size` items. -/
structure ArraysOk (size : Nat) (s : Object C) : Prop where
  fits : Fits s
  size : s.size = size
  polls : ∀ f ∈ s.polls, f.Ok s.mem
  log : ∀ x ∈ s.mem.log, x.Inside

theorem ArraysOk.safe {size : Nat} {s s' : Object C} (h : ArraysOk size s) (hsafe : Safe s s') :
    ArraysOk size s' where
  fits := hsafe.fits
  size := hsafe.size.trans h.size
  polls f hf := (hsafe.polls f hf).elim (fun hf => (h.polls f hf).mono hsafe.mem) id
  log x hx := (hsafe.mem.log x hx).elim (h.log x) id

theorem fits_new (n : Option Nat) : Fits (Object.new n : Object C) := by
  cases n with
  | none => exact ⟨Mem.made_none _, Nat.zero_le _, Nat.zero_le _⟩
  | some n =>
    refine ⟨?_, Nat.zero_le _, Nat.le_of_eq List.length_replicate.symm⟩
    rintro a ⟨⟩
    exact Nat.lt_succ_self _

theorem arraysOk_new (n : Option Nat) : ArraysOk (n.getD 0) (Object.new n : Object C) := by
  refine ⟨fits_new n, ?_, ?_, ?_⟩
  · cases n <;> rfl
  · intro f hf
    cases n <;> cases hf
  · intro x hx
    cases n <;> cases hx

/-- Polls that go on, or end, leave the arrays alone. -/
theorem Fits.safe_polls {s : Object C} (h : Fits s) {polls : List Frame}
    (hpolls : ∀ f ∈ polls, f ∈ s.polls ∨ f.Ok s.mem) : Safe s { s with polls := polls } :=
  h.safe_of (.refl _) rfl rfl (Nat.le_refl _) hpolls

/-- **One step.** -/
theorem objectStep_safe {s s' : Object C} {a : Action C} (h : Fits s) (hok : ∀ f ∈ s.polls, f.Ok s.mem)
    (hs : objectStep s a = some s') : Safe s s' := by
  cases a with
  | add env skt events cb =>
    rw [objectStep, Option.ite_none_right_eq_some] at hs
    refine Lua.of_leaves ?_ hs.2
    rcases Object.add_cases h env skt events cb with ⟨-, u, hu, hsafe⟩ | hfollows
    · rw [hu]
      exact hsafe
    · exact hfollows.leaves
  | remove skt =>
    rw [objectStep, Option.ite_none_right_eq_some] at hs
    exact Lua.of_leaves (Object.remove_follows h skt).leaves hs.2
  | poll ret revents =>
    rw [objectStep, Option.ite_none_right_eq_some] at hs
    refine Lua.of_leaves ?_ hs.2
    obtain ⟨u, hu, hsafe⟩ := Object.run_poll h ret revents
    rw [hu]
    exact hsafe
  | goOn =>
    rw [objectStep] at hs
    split at hs
    · next items outer hpolls =>
      obtain rfl := Option.some.inj hs
      refine h.safe_polls fun f hf => .inl ?_
      rw [hpolls]
      exact List.mem_cons_of_mem _ hf
    · next items i outer hpolls =>
      refine Lua.of_leaves ?_ hs
      obtain ⟨u, hu, hsafe⟩ := Object.run_position h hpolls (hok _ (hpolls ▸ List.mem_cons_self))
      rw [hu]
      exact hsafe
    · cases hs
  | callbackReturns =>
    rw [objectStep] at hs
    split at hs
    · next items left outer hpolls =>
      obtain rfl := Option.some.inj hs
      refine h.safe_polls fun f hf => ?_
      rcases List.mem_cons.mp hf with rfl | hf
      · exact .inr (hok ⟨items, left, true⟩ (hpolls ▸ List.mem_cons_self))
      · rw [hpolls]
        exact .inl (List.mem_cons_of_mem _ hf)
    · cases hs
  | throw n =>
    rw [objectStep, Option.ite_none_right_eq_some] at hs
    obtain rfl := Option.some.inj hs.2
    exact h.safe_polls fun f hf => .inl (List.mem_of_mem_drop hf)

/-- Calls that both models have. -/
inductive Edit (C : Type)
  | add (skt : Pollee) (events : Int) (cb : C)
  | remove (skt : Pollee)

def Edit.call : Edit C → Call C
  | .add skt events cb => .add skt events cb
  | .remove skt => .remove skt

/-- With memory, and on an argument with a handle. -/
def Edit.action : Edit C → Action C
  | .add skt events cb => .add ⟨true, true⟩ skt events cb
  | .remove skt => .remove skt

theorem edit_follows {s : Object C} (h : Fits s) (hpolls : s.polls = []) (b : Edit C) {p : Poller C}
    (hp : b.call.run s.view = .ok p) :
    ∃ s', objectStep s b.action = some s' ∧ s'.view = p ∧ Fits s' ∧ s'.polls = [] := by
  rw [← hpolls]
  have huser : inUserCode s.polls = true := by rw [hpolls]; rfl
  cases b with
  | add skt events cb =>
    rw [Edit.action, objectStep, if_pos huser]
    rcases Object.add_cases h ⟨true, true⟩ skt events cb with ⟨henv, -⟩ | hfollows
    · exact absurd rfl henv
    · rw [show s.view.add skt events cb = .ok p from hp] at hfollows
      exact hfollows.of_ok
  | remove skt =>
    rw [Edit.action, objectStep, if_pos huser]
    have hfollows := Object.remove_follows h skt
    rw [show s.view.remove skt = .ok p from hp] at hfollows
    exact hfollows.of_ok

/-- **The registry and its array.**  Calls that the registry goes through, the object goes through, and it has
    the same items and the same table then. -/
theorem run_view (n : Nat) (bs : List (Edit C)) {t : Traced C}
    (h : Steps.run traceStep (traceInit n) (bs.map Edit.call) = some t) :
    ∃ s, Steps.run objectStep (Object.new (some n)) (bs.map Edit.action) = some s ∧ s.view = t.self := by
  let R (s : Object C) (t : Traced C) : Prop := s.view = t.self ∧ Fits s ∧ s.polls = []
  have hstep : ∀ s t (b : Edit C) t', R s t → traceStep t b.call = some t' →
      ∃ s', objectStep s b.action = some s' ∧ R s' t' := by
    rintro s t b t' ⟨hview, hfits, hpolls⟩ ht
    cases hp : b.call.run t.self with
    | error e =>
      rw [traceStep_of_error hp] at ht
      cases ht
    | ok p =>
      rw [traceStep_of_ok hp] at ht
      obtain rfl := Option.some.inj ht
      rw [← hview] at hp
      exact edit_follows hfits hpolls b hp
  obtain ⟨s, hs, hview, -⟩ := Steps.run_of_simulates objectStep hstep bs (Object.new (some n)) (traceInit n) t
    ⟨rfl, fits_new _, rfl⟩ h
  exact ⟨s, hs, hview⟩

/-- **All steps.** -/
theorem arraysOk_run {n : Option Nat} {actions : List (Action C)} {s : Object C}
    (h : Steps.run objectStep (Object.new n) actions = some s) : ArraysOk (n.getD 0) s := by
  refine Steps.run_invariant objectStep ?_ actions _ _ (arraysOk_new n) h
  intro s a s' hs hstep
  exact hs.safe (objectStep_safe hs.fits hs.polls hstep)

/-- **The capacity.**  In any run of calls, callbacks and errors, however many items a poller was made with,
    every access is inside its array; and `ensure`, which goes by the size the first array had, makes room for
    `m` more items and keeps those in use. -/
theorem capacity (n : Option Nat) (actions : List (Action C)) {s : Object C}
    (h : Steps.run objectStep (Object.new n) actions = some s) :
    (∀ x ∈ s.mem.log, x.Inside) ∧ s.size = n.getD 0 ∧ s.nitems ≤ s.array.length ∧
    ∀ env m, (env.alloc = false ∧ Object.ensure env m s = .raise s) ∨
      ∃ s', Object.ensure env m s = .ret () s' ∧ s'.size = s.size ∧ s'.nitems = s.nitems ∧
        s.nitems + m ≤ s'.array.length ∧ s'.array.take s.nitems = s.array.take s.nitems := by
  have hok := arraysOk_run h
  refine ⟨hok.log, hok.size, hok.fits.nitems, fun env m => ?_⟩
  refine (Object.ensure_cases hok.fits env m).imp_right ?_
  rintro ⟨s', hs', hview, -, hsafe⟩
  obtain ⟨hn, -, -, hlen, htake⟩ := Poller.ensure_spec hok.fits.cap m
  rw [← hview] at hn hlen htake
  exact ⟨s', hs', hsafe.size, hn, hlen, htake⟩

/-- A poller for one item gets two; while both are polled, a callback removes one and adds two. -/
def growing : List (Action Unit) :=
  let env : Env := ⟨true, true⟩
  [.add env (.raw (.socket 1)) 1 (), .add env (.raw (.fd 5)) 1 (), .poll 2 fun _ => 1, .goOn,
    .remove (.raw (.socket 1)), .add env (.raw (.fd 6)) 1 (), .add env (.raw (.fd 7)) 1 (), .callbackReturns,
    .goOn, .callbackReturns, .goOn]

theorem capacity_growing : ∃ s, Steps.run objectStep (Object.new (some 1)) growing = some s ∧
    (s.nitems, s.mem.log.length) = (3, 18) ∧ (∀ x ∈ s.mem.log, x.Inside) ∧ s.size = 1 ∧
    s.nitems ≤ s.array.length ∧
    ∀ env m, (env.alloc = false ∧ Object.ensure env m s = .raise s) ∨
      ∃ s', Object.ensure env m s = .ret () s' ∧ s'.size = s.size ∧ s'.nitems = s.nitems ∧
        s.nitems + m ≤ s'.array.length ∧ s'.array.take s.nitems = s.array.take s.nitems := by
  obtain ⟨s, hrun⟩ : ∃ s, Steps.run objectStep (Object.new (some 1)) growing = some s :=
    ⟨_, (Option.some_get (by decide)).symm⟩
  exact ⟨s, hrun, Steps.run_shows objectStep (f := fun s => (s.nitems, s.mem.log.length)) hrun (by decide),
    capacity (some 1) growing hrun⟩

end Lzmq.FfiPoller
