/-
  Who owns the handles of the C binding.

  A socket object owns its handle unless it is borrowed; closing the object closes a handle that it owns, with an
  assertion that this succeeds.  Handlers leave the sockets alone here: one that closes its own socket sends the
  outer `close` into that assertion (`Close`).  `reset_handle` exchanges the handle and can take any one over,
  also one that another object owns, or that has been closed.  If it takes only free ones and closes only free
  ones (`Respects`), every handle has one owner at most, no handle is closed twice, and no close aborts
  (`exclusive_run_iff`).
-/
import Lzmq.CContext.Count
import Lzmq.Lib.Owners

namespace Lzmq.CContext

open Owners (Exclusive Free)
open Steps

/-! ## Owners -/

/-- The handle that an object closes with itself. -/
def ZSocket.owned (z : ZSocket) : Option Nat := if z.closed || z.dontDestroy then none else some z.skt

def World.owned (w : World) : List (Option Nat) := w.objs.map ZSocket.owned

/-- The handles are in order. -/
def World.Exclusive (w : World) : Prop := Owners.Exclusive w.owned w.closes

/-- The handle that a socket takes over is free when the socket has let go of its own, and the handle that it
    closes is free when it has taken the new one. -/
def Respects (w : World) : Use → Prop
  | .resetHandle i src own close => src < w.nextHandle → ∀ z, w.objs[i]? = some z → z.closed = false →
      let owns := own.getD (!z.dontDestroy)
      (owns = true → Free (w.owned.set i none) w.closes src) ∧
        (close = true → Free (w.owned.set i (if owns then some src else none)) w.closes z.skt)
  | _ => True

/-! ## The methods -/

/-- **`close`** closes the handle that the socket owns. -/
theorem destroy_owned {c : Cell} (hopen : c.zskt.closed = false)
    (hcount : c.zskt.counted = true → 1 ≤ c.socketCount) (hfresh : ∀ h, c.zskt.owned = some h → h ∉ c.closes) :
    ∃ c', luazmqSktDestroy none (pure none) c = .ret () c' ∧ c'.zskt.closed = true ∧
      c'.closes = c.zskt.owned.toList ++ c.closes := by
  obtain ⟨m, hm, hskt, howns, hctx, hmopen, hn, hcloses⟩ := beforeClose_idle hopen
  have hcounted : m.zskt.counted = c.zskt.counted := by rw [ZSocket.counted, ZSocket.counted, hctx, hmopen, hopen]
  have hrest : ∀ m' : Cell, closeHandle none m = .ret () m' → m'.zskt = m.zskt → m'.socketCount = m.socketCount →
      ∃ c', luazmqSktDestroy none (pure none) c = .ret () c' ∧ c'.zskt.closed = true ∧ c'.closes = m'.closes := by
    intro m' hclose hz hn'
    have huncount := uncount_eq (c := m') (by rw [hz, hmopen]) (by rw [hz, hn', hcounted, hn]; exact hcount)
    refine ⟨Cell.setClosed { m' with socketCount := m'.socketCount - if m'.zskt.counted then 1 else 0 },
      ?_, rfl, rfl⟩
    simp [luazmqSktDestroy, hopen, hm, hclose, huncount]
  cases hkeep : c.zskt.dontDestroy with
  | true =>
    have hnone : c.zskt.owned = none := by rw [ZSocket.owned, hkeep, Bool.or_true, if_pos rfl]
    rw [hnone, Option.toList_none, List.nil_append, ← hcloses]
    exact hrest m (by simp [closeHandle, howns, hkeep]) rfl rfl
  | false =>
    have hsome : c.zskt.owned = some c.zskt.skt := by
      rw [ZSocket.owned, hkeep, hopen, Bool.or_false, if_neg Bool.false_ne_true]
    rw [hsome, Option.toList_some, List.singleton_append, ← hskt, ← hcloses]
    refine hrest _ (closeHandle_fresh (howns.trans hkeep) ?_ trivial) rfl rfl
    rw [hskt, hcloses]
    exact hfresh _ hsome

theorem resetHandle_owned {c : Cell} (hopen : c.zskt.closed = false) (src : Nat) (own : Option Bool) (close : Bool) :
    ∃ c', luazmqSktResetHandle src own close c = .ret () c' ∧
      c'.zskt.owned = (if own.getD (!c.zskt.dontDestroy) then some src else none) ∧
      c'.closes = if close then c.zskt.skt :: c.closes else c.closes := by
  refine ⟨{ c with
    zskt := { c.zskt with skt := src, dontDestroy := !own.getD (!c.zskt.dontDestroy) }
    closes := if close then c.zskt.skt :: c.closes else c.closes }, ?_, ?_, rfl⟩
  · cases close <;> simp [luazmqSktResetHandle, hopen, zmqClose]
  · cases own.getD (!c.zskt.dontDestroy) <;> simp [ZSocket.owned, hopen]

theorem onClose_owned (c : Cell) (fn : Bool) :
    ∃ c', (luazmqSktOnClose fn c = .ret () c' ∨ luazmqSktOnClose fn c = .raise c') ∧
      c'.zskt.owned = c.zskt.owned ∧ c'.closes = c.closes := by
  by_cases hclosed : c.zskt.closed = true
  · exact ⟨c, Or.inr (by simp [luazmqSktOnClose, hclosed]), rfl, rfl⟩
  · by_cases href : c.zskt.oncloseRef ≠ .noref ∧ fn = false
    · exact ⟨c.setOnclose .noref, Or.inl (by simp [luazmqSktOnClose, hclosed, href]), rfl, rfl⟩
    · exact ⟨c.setOnclose (if fn then .fn else .refnil), Or.inl (by simp [luazmqSktOnClose, hclosed, href]),
        rfl, rfl⟩

/-! ## One use -/

section Use

variable {w : World} {i : Nat} {z : ZSocket} {c : Cell}

theorem owned_put (w : World) (i : Nat) (c : Cell) : (w.put i c).owned = w.owned.set i c.zskt.owned :=
  List.map_set

theorem getElem?_owned (hz : w.objs[i]? = some z) : w.owned[i]? = some z.owned := by
  rw [World.owned, List.getElem?_map, hz]
  rfl

/-- A method on an object, in the world. -/
theorem use_put (hz : w.objs[i]? = some z) {x : Lua Cell Unit}
    (hrun : x (w.cell z) = .ret () c ∨ x (w.cell z) = .raise c) :
    Lua.after (onSocket i x) w = some (w.put i c) := by
  apply Lua.after_of
  rcases hrun with hrun | hrun
  · exact Or.inl ⟨(), by simp [onSocket, hz, hrun]⟩
  · exact Or.inr (by simp [onSocket, hz, hrun])

theorem use_none (hz : w.objs[i]? = none) (x : Lua Cell Unit) : Lua.after (onSocket i x) w = some w :=
  Lua.after_of (Or.inr (by simp [onSocket, hz]))

/-- The method leaves what is owned and closed. -/
theorem World.Exclusive.put_same (he : w.Exclusive) (hz : w.objs[i]? = some z) (howned : c.zskt.owned = z.owned)
    (hcloses : c.closes = w.closes) : (w.put i c).Exclusive := by
  obtain ⟨hi, hget⟩ := List.getElem?_eq_some_iff.mp (getElem?_owned hz)
  rw [World.Exclusive, owned_put, howned, ← hget, List.set_getElem_self]
  show Owners.Exclusive w.owned c.closes
  rw [hcloses]
  exact he

/-- No object owns a handle that libzmq has not given out yet. -/
theorem Counted.free (hw : Counted w) : Free w.owned w.closes w.nextHandle := by
  refine ⟨hw.fresh, fun h => ?_⟩
  obtain ⟨z, hz, howned⟩ := List.mem_map.mp h
  have hskt : z.skt = w.nextHandle := by
    rw [ZSocket.owned] at howned
    split at howned
    · cases howned
    · exact Option.some.inj howned
  exact absurd (hw.handle z hz) (by rw [hskt]; exact Nat.lt_irrefl _)

variable (he : w.Exclusive)
include he

/-- Exchanging the handle keeps the owners exclusive iff the new one is free, when it is taken over, and the old one
    when it is closed. -/
theorem exclusive_put_iff {i src : Nat} {z : ZSocket} {c : Cell} {own : Option Bool} {close : Bool}
    (hz : w.objs[i]? = some z)
    (howned : c.zskt.owned = if own.getD (!z.dontDestroy) then some src else none)
    (hcloses : c.closes = if close then z.skt :: w.closes else w.closes) :
    (w.put i c).Exclusive ↔
      (own.getD (!z.dontDestroy) = true → Free (w.owned.set i none) w.closes src) ∧
      (close = true → Free (w.owned.set i (if own.getD (!z.dontDestroy) then some src else none)) w.closes
        z.skt) := by
  have hi : i < w.owned.length := (List.getElem?_eq_some_iff.mp (getElem?_owned hz)).1
  have hset := he.set_iff hi (if own.getD (!z.dontDestroy) then some src else none)
  have hown : (∀ h, (if own.getD (!z.dontDestroy) then some src else none) = some h →
      Free (w.owned.set i none) w.closes h) ↔
      (own.getD (!z.dontDestroy) = true → Free (w.owned.set i none) w.closes src) := by
    cases own.getD (!z.dontDestroy) <;> simp
  have hworld : (w.put i c).Exclusive ↔
      Owners.Exclusive (w.owned.set i (if own.getD (!z.dontDestroy) then some src else none))
        (if close then z.skt :: w.closes else w.closes) := by
    rw [World.Exclusive, owned_put, howned]
    show Owners.Exclusive _ c.closes ↔ _
    rw [hcloses]
  rw [hworld, ← hown, ← hset]
  cases close with
  | false => simp
  | true =>
    rw [if_pos rfl, Owners.exclusive_cons_iff]
    exact and_congr_right fun _ => ⟨fun h _ => h, fun h => h rfl⟩

theorem exclusive_resetHandle_iff (i src : Nat) (own : Option Bool) (close : Bool) :
    (∃ w', w.use (.resetHandle i src own close) = some w' ∧ w'.Exclusive) ↔
      Respects w (.resetHandle i src own close) := by
  rw [World.use, Respects]
  by_cases hsrc : src < w.nextHandle
  · rw [if_pos hsrc]
    cases hz : w.objs[i]? with
    | none => exact iff_of_true ⟨w, use_none hz _, he⟩ fun _ z h => by cases h
    | some z =>
      cases hclosed : z.closed with
      | true =>
        have hput := use_put hz (c := w.cell z) (x := luazmqSktResetHandle src own close)
          (Or.inr (by simp [luazmqSktResetHandle, World.cell, hclosed]))
        refine iff_of_true ⟨_, hput, he.put_same hz rfl rfl⟩ fun _ z' h hopen => ?_
        cases h
        rw [hclosed] at hopen
        cases hopen
      | false =>
        obtain ⟨c', hrun, howned, hcloses⟩ := resetHandle_owned (c := w.cell z) hclosed src own close
        have hput := use_put hz (Or.inl hrun)
        have hiff := exclusive_put_iff he hz howned hcloses
        constructor
        · rintro ⟨w', hw', hin⟩ _ z' h _
          cases h
          obtain rfl := Option.some.inj (hput.symm.trans hw')
          exact hiff.mp hin
        · exact fun h => ⟨_, hput, hiff.mpr (h hsrc z rfl hclosed)⟩
  · rw [if_neg hsrc]
    exact iff_of_true ⟨w, rfl, he⟩ fun h => absurd h hsrc

variable (hw : Counted w)
include hw

theorem exclusive_close (i : Nat) : ∃ w', w.use (.close i) = some w' ∧ w'.Exclusive := by
  cases hz : w.objs[i]? with
  | none => exact ⟨w, use_none hz _, he⟩
  | some z =>
    cases hclosed : z.closed with
    | true =>
      refine ⟨_, use_put hz (c := w.cell z) (Or.inl ?_), he.put_same hz rfl rfl⟩
      simp [luazmqSktDestroy, World.cell, hclosed]
    | false =>
      have hget := getElem?_owned hz
      obtain ⟨c', hrun, hc, hcloses⟩ := destroy_owned (c := w.cell z) hclosed (hw.pos hz) fun h hh =>
        he.live h (List.mem_of_getElem? (hget.trans (congrArg some hh)))
      refine ⟨w.put i c', use_put hz (Or.inl hrun), ?_⟩
      have hnone : c'.zskt.owned = none := by rw [ZSocket.owned, hc, Bool.true_or, if_pos rfl]
      rw [World.Exclusive, owned_put, hnone]
      show Owners.Exclusive _ c'.closes
      rw [hcloses]
      show Owners.Exclusive (w.owned.set i none) (z.owned.toList ++ w.closes)
      cases howned : z.owned with
      | none => exact he.drop i
      | some h => exact Owners.exclusive_cons_iff.mpr ⟨he.drop i, he.free_drop (hget.trans (congrArg some howned))⟩

/-- A new socket owns its handle. -/
theorem exclusive_newSocket : w.newSocket.Exclusive := by
  have happend := he.append (x := some w.nextHandle) fun h hh => by
    obtain rfl := Option.some.inj hh
    exact hw.free
  rw [World.Exclusive]
  simpa [World.owned, World.newSocket, ZSocket.owned] using happend

theorem exclusive_dropped : (w.newSocket.dropped w.objs.length w.nextHandle).Exclusive := by
  have hnew := exclusive_newSocket he hw
  have hlive := live_newSocket hw.count.nonneg hw.fresh
  have hget := getElem?_owned hlive.obj
  have hput := Owners.exclusive_cons_iff.mpr ⟨hnew.drop w.objs.length, hnew.free_drop hget⟩
  -- the object is closed, and its handle with it
  have howned : (w.newSocket.dropped w.objs.length w.nextHandle).owned = w.newSocket.owned.set w.objs.length none :=
    List.map_set
  rw [World.Exclusive, howned]
  exact hput

theorem exclusive_socket (env : Env) (args : List Val) :
    ∃ w', w.use (.socket env args) = some w' ∧ w'.Exclusive := by
  rw [World.use]
  by_cases hopens : opensHandle env args = true
  · obtain ⟨hself, htype, hsocket⟩ := opensHandle_iff.mp hopens
    obtain ⟨f, hrun, hworld⟩ :=
      (ctxSocket_constructed hw.opened hw.count.nonneg hw.fresh hself htype hsocket).world
    refine ⟨f.world, ?_, ?_⟩
    · rcases hrun with ⟨results, hrun⟩ | hrun
      · rw [hrun]
      · rw [hrun]
    · rcases hworld with hworld | hworld | hworld
      · rw [hworld]
        exact exclusive_newSocket he hw
      · rw [hworld]
        exact exclusive_dropped he hw
      · rw [hworld]
        exact exclusive_newSocket he hw
  · obtain ⟨f, hf, hrun | ⟨e, hrun⟩⟩ := ctxSocket_refused hw.opened (Bool.eq_false_iff.mpr hopens)
    · exact ⟨w, by simp [hrun, hf], he⟩
    · exact ⟨w, by simp [hrun, hf], he⟩

/-- **One use** keeps the handles in order exactly when it respects them. -/
theorem exclusive_use_iff (u : Use) : (∃ w', w.use u = some w' ∧ w'.Exclusive) ↔ Respects w u := by
  cases u with
  | socket env args => exact iff_of_true (exclusive_socket he hw env args) trivial
  | close i => exact iff_of_true (exclusive_close he hw i) trivial
  | onClose i fn =>
    refine iff_of_true ?_ trivial
    cases hz : w.objs[i]? with
    | none => exact ⟨w, use_none hz _, he⟩
    | some z =>
      obtain ⟨c', hrun, howned, hcloses⟩ := onClose_owned (w.cell z) fn
      exact ⟨_, use_put hz hrun, he.put_same hz howned hcloses⟩
  | resetHandle i src own close => exact exclusive_resetHandle_iff he i src own close
  | initSocket src =>
    refine iff_of_true ?_ trivial
    rw [World.use]
    by_cases hsrc : src < w.nextHandle
    · rw [if_pos hsrc]
      -- the object borrows the handle
      have happend := he.append (x := none) fun h hh => by cases hh
      exact ⟨_, rfl, by simpa [World.Exclusive, World.owned, ZSocket.owned] using happend⟩
    · rw [if_neg hsrc]
      exact ⟨w, rfl, he⟩
  | foreign => exact iff_of_true ⟨_, rfl, he⟩ trivial

end Use

/-! ## Runs -/

/-- **The handles stay in order, exactly**: in a run of any uses every step succeeds, no object owns the handle of
    another one or a closed one, and no handle is closed twice, exactly when each `reset_handle` takes and closes
    handles that are free. -/
theorem exclusive_run_iff (us : List Use) :
    Keeps World.use (fun _ _ w' => w'.Exclusive) .init us ↔ Meets World.use Respects .init us := by
  refine keeps_iff_meets World.use (fun w => Counted w ∧ w.Exclusive)
    (fun w u hw => exclusive_use_iff hw.2 hw.1 u) ?_ us .init ⟨counted_init, Owners.exclusive_nil⟩
  intro w u w' hw hu hin
  rcases hw.1.use u with ⟨w'', hw'', hcounted⟩ | ⟨hnone, -⟩
  · obtain rfl := Option.some.inj (hw''.symm.trans hu)
    exact ⟨hcounted, hin⟩
  · rw [hnone] at hu
    cases hu

end Lzmq.CContext
