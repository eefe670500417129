/-
  `Message:set_size` and `Message:set_data` in each case.

  Both methods have a case without a new buffer, and one in which the buffer cannot be had.  There `set_data`
  gives up, but `set_size` goes on with nil for the new message: it crashes if there is something to copy,
  else the object takes nil and is closed.
-/
import Lzmq.FfiMessage.Message

namespace Lzmq.FfiMessage

open Lzmq.Buffer Lzmq.CMessage Lzmq.Messages

/-! ## A message built anew -/

/-- The heap after a message has been built in `tmp_msg` that holds the first bytes of an old one. -/
def built (w : World) (junk : Nat → UInt8) (own : Nat) (size len : Int) : Heap :=
  if 0 < len then (w.heap.init w.tmp (uninit junk (sizeT size))).transfer w.tmp own (sizeT len)
  else w.heap.init w.tmp (uninit junk (sizeT size))

/-- After the two zmq_msg_t's have changed roles. -/
def World.swapped (w : World) (i own : Nat) (h : Heap) (msg : Option Nat) : World :=
  { w with heap := h.close own, tmp := own, msgs := w.msgs.set i msg }

/-- How many old bytes `set_size` and `set_data` copy. -/
def keptSize (osize : Nat) (n : Int) : Int := if osize < sizeT n then osize else n

def keptData (osize : Nat) (pos : Int) : Int := if sizeT pos < osize then pos else osize

section Built

variable {w : World} {own : Nat} {size len : Int}

theorem part_built (junk : Nat → UInt8) :
    (built w junk own size len).part = (w.heap.init w.tmp (uninit junk (sizeT size))).part := by
  rw [built]
  by_cases hlen : 0 < len
  · rw [if_pos hlen, Heap.part_transfer]
  · rw [if_neg hlen]

theorem more_built (junk : Nat → UInt8) : (built w junk own size len).more w.tmp = false := by
  rw [Heap.more, part_built]
  exact Heap.more_new _ _ _ _

theorem size_built (junk : Nat → UInt8) : (built w junk own size len).size w.tmp = sizeT size := by
  have hinit : (w.heap.init w.tmp (uninit junk (sizeT size))).size w.tmp = sizeT size := by
    rw [Heap.size, Heap.init, Heap.data_new, length_uninit]
  rw [built]
  by_cases hlen : 0 < len
  · rw [if_pos hlen, Heap.size_transfer, hinit]
  · rw [if_neg hlen, hinit]

/-- All other messages are what they were. -/
theorem part_built_of_ne (junk : Nat → UInt8) {a : Nat} (ha : a ≠ w.tmp) :
    (built w junk own size len).part a = w.heap.part a := by
  rw [part_built]
  exact Heap.part_new_of_ne ha

/-- Copying the old bytes, if there are any to copy. -/
theorem run_copyOld (junk : Nat → UInt8) :
    copyOld (some w.tmp) own len { w with heap := w.heap.init w.tmp (uninit junk (sizeT size)) } =
      .ret () { w with heap := built w junk own size len } := by
  by_cases hlen : 0 < len
  · rw [built, if_pos hlen]
    exact congrFun (if_pos hlen) _
  · rw [built, if_neg hlen]
    exact congrFun (if_neg hlen) _

/-- Without a new message that crashes. -/
theorem run_copyOld_nil (w : World) : copyOld none own len w = if 0 < len then .abort else .ret () w := by
  by_cases hlen : 0 < len
  · rw [if_pos hlen]
    exact congrFun (if_pos hlen) w
  · rw [if_neg hlen]
    exact congrFun (if_neg hlen) w

end Built

/-! ## Running the methods -/

section Run

variable {w : World} {i own : Nat} {env : Env}

theorem run_checked (hown : w.struct i = some own) : checked i w = .ret own w := by
  rw [checked, Lua.run_bind, Lua.run_read, Lua.andThen_ret, hown]
  rfl

theorem run_checked_closed (hown : w.struct i = none) : checked i w = .raise w := by
  rw [checked, Lua.run_bind, Lua.run_read, Lua.andThen_ret, hown]
  rfl

/-- A method that returns has been called on an open object. -/
theorem of_checked {R : Type} {g : Nat → Lua World R} {r : R} {w' : World} (h : (checked i >>= g) w = .ret r w') :
    ∃ own, w.struct i = some own ∧ g own w = .ret r w' := by
  rw [Lua.run_bind] at h
  cases hown : w.struct i with
  | none =>
    rw [run_checked_closed hown] at h
    cases h
  | some own =>
    rw [run_checked hown] at h
    exact ⟨own, rfl, h⟩

theorem run_zmqMsgInitSize_ok {a : Nat} {len : Int} (halloc : env.alloc = none) :
    zmqMsgInitSize env (some a) len w =
      .ret (some a) { w with heap := w.heap.init a (uninit env.junk (sizeT len)) } := by
  rw [zmqMsgInitSize, zmqMsgInitSizeOf, halloc]
  rfl

theorem run_zmqMsgInitSize_fails {a e : Nat} {len : Int} (halloc : env.alloc = some e) :
    zmqMsgInitSize env (some a) len w = .ret none { w with errno := e } := by
  rw [zmqMsgInitSize, zmqMsgInitSizeOf, halloc]
  rfl

theorem run_close_open (hown : w.struct i = some own) : close i w =
    .ret .pass { w with heap := w.heap.close own, msgs := w.msgs.set i none } := by
  rw [close, Lua.run_bind, Lua.run_read, Lua.andThen_ret, hown]
  rfl

theorem run_close_closed (hclosed : w.struct i = none) : close i w = .ret .pass w := by
  rw [close, Lua.run_bind, Lua.run_read, Lua.andThen_ret, hclosed]
  rfl

/-- `zmq_msg_move` and `zmq_msg_copy` do what they are to do, or leave an error. -/
theorem callMove_cases (env : Env) (w : World) (f : Heap → Nat → Nat → Heap) (dest src : Nat) :
    (w.heap.isOpen src = true ∧ callMove env f dest src w = .ret true { w with heap := f w.heap dest src }) ∨
    ∃ e, callMove env f dest src w = .ret false { w with errno := e } := by
  rw [callMove, Lua.run_bind, Lua.run_read, Lua.andThen_ret]
  cases hvalid : w.heap.isOpen src with
  | false => exact .inr ⟨efault, rfl⟩
  | true =>
    cases hcall : env.call with
    | some e => exact .inr ⟨e, rfl⟩
    | none => exact .inl ⟨rfl, rfl⟩

theorem run_setSize_closed (hown : w.struct i = none) (n : Int) : setSize env i n w = .raise w := by
  rw [setSize, Lua.run_bind, run_checked_closed hown, Lua.andThen_raise]

theorem run_setSize_same {n : Int} (hown : w.struct i = some own) (hsize : sizeT n = w.heap.size own) :
    setSize env i n w = .ret .pass w := by
  rw [setSize, Lua.run_bind, run_checked hown, Lua.andThen_ret, Lua.run_bind, Lua.run_read, Lua.andThen_ret]
  exact congrFun (if_pos hsize) w

/-- A new message. -/
theorem run_setSize_resizes {n : Int} (hown : w.struct i = some own) (hsize : sizeT n ≠ w.heap.size own)
    (halloc : env.alloc = none) : setSize env i n w =
      .ret .pass (w.swapped i own (built w env.junk own n (keptSize (w.heap.size own) n)) (some w.tmp)) := by
  rw [setSize, Lua.run_bind, run_checked hown, Lua.andThen_ret, Lua.run_bind, Lua.run_read, Lua.andThen_ret]
  refine (congrFun (if_neg hsize) w).trans ?_
  rw [Lua.run_bind, Lua.run_read, Lua.andThen_ret, Lua.run_bind, run_zmqMsgInitSize_ok halloc,
    Lua.andThen_ret,
    Lua.run_bind]
  exact congrArg (Lua.andThen · _) (run_copyOld env.junk)

/-- The buffer cannot be had. -/
theorem run_setSize_fails {n : Int} {e : Nat} (hown : w.struct i = some own)
    (hsize : sizeT n ≠ w.heap.size own) (halloc : env.alloc = some e) : setSize env i n w =
      if 0 < keptSize (w.heap.size own) n then .abort
      else .ret .pass (World.swapped { w with errno := e } i own w.heap none) := by
  rw [setSize, Lua.run_bind, run_checked hown, Lua.andThen_ret, Lua.run_bind, Lua.run_read, Lua.andThen_ret]
  refine (congrFun (if_neg hsize) w).trans ?_
  rw [Lua.run_bind, Lua.run_read, Lua.andThen_ret, Lua.run_bind, run_zmqMsgInitSize_fails halloc,
    Lua.andThen_ret,
    Lua.run_bind]
  show Lua.andThen (copyOld none own (keptSize (w.heap.size own) n) _) _ = _
  rw [run_copyOld_nil]
  by_cases hlen : 0 < keptSize (w.heap.size own) n
  · rw [if_pos hlen, if_pos hlen]
    rfl
  · rw [if_neg hlen, if_neg hlen]
    rfl

theorem run_setData_refused {pos : Option Int} (hpos : ¬ 0 < pos.getD 1) (s : LuaString) :
    setData env i pos s w = .raise w := by
  rw [setData]
  exact congrFun (if_neg hpos) w

theorem run_setData_closed {pos : Option Int} (hown : w.struct i = none) (s : LuaString) :
    setData env i pos s w = .raise w := by
  by_cases hpos : 0 < pos.getD 1
  · rw [setData]
    refine (congrFun (if_pos hpos) w).trans ?_
    rw [Lua.run_bind, run_checked_closed hown, Lua.andThen_raise]
  · exact run_setData_refused hpos s

/-- The size that `set_data` wants. -/
def wanted (pos : Option Int) (s : LuaString) : Int := pos.getD 1 + s.bytes.length - 1

theorem run_setData_inPlace {pos : Option Int} {s : LuaString} (hpos : 0 < pos.getD 1)
    (hown : w.struct i = some own) (hsize : sizeT (wanted pos s) ≤ w.heap.size own) :
    setData env i pos s w = .ret .pass { w with heap := w.heap.store own (pos.getD 1 - 1) s.bytes } := by
  rw [setData]
  refine (congrFun (if_pos hpos) w).trans ?_
  rw [Lua.run_bind, run_checked hown, Lua.andThen_ret, Lua.run_bind, Lua.run_read, Lua.andThen_ret]
  exact congrFun (if_pos hsize) w

theorem run_setData_fails {pos : Option Int} {s : LuaString} {e : Nat} (hpos : 0 < pos.getD 1)
    (hown : w.struct i = some own) (hsize : w.heap.size own < sizeT (wanted pos s))
    (halloc : env.alloc = some e) :
    setData env i pos s w = .ret (.fail e) { w with errno := e } := by
  rw [setData]
  refine (congrFun (if_pos hpos) w).trans ?_
  rw [Lua.run_bind, run_checked hown, Lua.andThen_ret, Lua.run_bind, Lua.run_read, Lua.andThen_ret]
  refine (congrFun (if_neg (Nat.not_le.mpr hsize)) w).trans ?_
  rw [Lua.run_bind, Lua.run_read, Lua.andThen_ret, Lua.run_bind, run_zmqMsgInitSize_fails halloc]
  rfl

/-- A new message; the string is written with its terminating zero. -/
theorem run_setData_grows {pos : Option Int} {s : LuaString} (hpos : 0 < pos.getD 1)
    (hown : w.struct i = some own) (hsize : w.heap.size own < sizeT (wanted pos s))
    (halloc : env.alloc = none) :
    setData env i pos s w = .ret .pass (w.swapped i own
      ((built w env.junk own (wanted pos s) (keptData (w.heap.size own) (pos.getD 1))).store w.tmp
        (pos.getD 1 - 1) (s.bytes ++ [0])) (some w.tmp)) := by
  rw [setData]
  refine (congrFun (if_pos hpos) w).trans ?_
  rw [Lua.run_bind, run_checked hown, Lua.andThen_ret, Lua.run_bind, Lua.run_read, Lua.andThen_ret]
  refine (congrFun (if_neg (Nat.not_le.mpr hsize)) w).trans ?_
  rw [Lua.run_bind, Lua.run_read, Lua.andThen_ret, Lua.run_bind, run_zmqMsgInitSize_ok halloc,
    Lua.andThen_ret]
  exact congrArg (Lua.andThen · _) (run_copyOld env.junk)

end Run

/-! ## All cases -/

/-- An edit that asks for a new buffer. -/
def Reallocates (w : World) (own : Nat) : Edit Int → Prop
  | .setData pos s => 0 < pos.getD 1 ∧ w.heap.size own < sizeT (wanted pos s)
  | .setSize n => sizeT n ≠ w.heap.size own

def IsSetSize : Edit Int → Prop
  | .setData _ _ => False
  | .setSize _ => True

section Cases

variable {w : World} {i own : Nat} {env : Env}

theorem struct_lt {k a : Nat} (h : w.struct k = some a) : k < w.msgs.length := by
  rw [World.struct, List.getD_eq_getElem?_getD] at h
  by_contra hge
  rw [List.getElem?_eq_none (by omega)] at h
  cases h

theorem struct_swapped {h : Heap} {msg : Option Nat} (hown : w.struct i = some own) :
    (w.swapped i own h msg).struct i = msg := by
  rw [World.struct, World.swapped, List.getD_eq_getElem?_getD, List.getElem?_set_self (struct_lt hown),
    Option.getD_some]

/-- Without a new buffer the zmq_msg_t stays. -/
theorem run_edit_inPlace (env : Env) {e : Edit Int} (hown : w.struct i = some own)
    (he : ¬ Reallocates w own e) :
    ∃ h', (edit env i e w = .raise { w with heap := h' } ∨
      edit env i e w = .ret .pass { w with heap := h' }) ∧
      h'.part = w.heap.part := by
  cases e with
  | setData pos s =>
    by_cases hpos : 0 < pos.getD 1
    · have hsize := Nat.le_of_not_lt fun h => he ⟨hpos, h⟩
      exact ⟨_, .inr (run_setData_inPlace hpos hown hsize), rfl⟩
    · exact ⟨w.heap, .inl (run_setData_refused hpos s), rfl⟩
  | setSize n => exact ⟨w.heap, .inr (run_setSize_same hown (not_not.mp he)), rfl⟩

/-- With one the object has the former `tmp_msg`, without the flag. -/
theorem run_edit_grows {e : Edit Int} (hown : w.struct i = some own) (hne : own ≠ w.tmp)
    (he : Reallocates w own e) (halloc : env.alloc = none) :
    ∃ w', edit env i e w = .ret .pass w' ∧ w'.struct i = some w.tmp ∧ w'.heap.more w.tmp = false := by
  cases e with
  | setData pos s =>
    refine ⟨_, run_setData_grows he.1 hown he.2 halloc, struct_swapped hown, ?_⟩
    refine (Heap.more_close_of_ne hne.symm).trans ?_
    rw [Heap.more_store, more_built]
  | setSize n =>
    refine ⟨_, run_setSize_resizes hown he halloc, struct_swapped hown, ?_⟩
    exact (Heap.more_close_of_ne hne.symm).trans (more_built _)

theorem run_edit_fails {e : Edit Int} {err : Nat} (hown : w.struct i = some own) (he : Reallocates w own e)
    (halloc : env.alloc = some err) (hset : ¬ IsSetSize e) :
    edit env i e w = .ret (.fail err) { w with errno := err } := by
  cases e with
  | setData pos s => exact run_setData_fails he.1 hown he.2 halloc
  | setSize n => exact absurd trivial hset

/-- `set_size` loses the message. -/
theorem run_edit_lost {e : Edit Int} {err : Nat} (hown : w.struct i = some own) (he : Reallocates w own e)
    (halloc : env.alloc = some err) (hset : IsSetSize e) :
    edit env i e w = .abort ∨ ∃ w', edit env i e w = .ret .pass w' ∧ w'.struct i = none := by
  cases e with
  | setData pos s => exact hset.elim
  | setSize n =>
    have hrun := run_setSize_fails hown he halloc
    by_cases hlen : 0 < keptSize (w.heap.size own) n
    · rw [if_pos hlen] at hrun
      exact .inl hrun
    · rw [if_neg hlen] at hrun
      have hown' : World.struct { w with errno := err } i = some own := hown
      exact .inr ⟨_, hrun, struct_swapped hown'⟩

end Cases

end Lzmq.FfiMessage
