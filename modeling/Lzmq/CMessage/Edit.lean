/-
  Editing messages in the C binding (`luazmq_msg_set_data` and `luazmq_msg_set_size` of `zmsg.c`).

  A message is edited in place as long as it does not change its size, else it is replaced: a local
  zmq_msg_t gets the new size, takes over the old bytes and is moved to the message.  Positions are C ints
  that start with 1; the sum of the position and the length is a size_t, modulo 2^64.

  The check of the position lets 0 pass, although its text says that it does not.  Without it a message is a
  byte array: `edit_ok_iff` is about one call, `edits_iff` about sequences of calls.
-/
import Lzmq.Messages.Heap
import Lzmq.Lib.Lua
import Lzmq.Lib.Steps
import Mathlib.Algebra.Group.Int.Defs
import Mathlib.Algebra.Group.Nat.Defs

namespace Lzmq.CMessage

open Lzmq.Buffer Lzmq.Messages

/-! ## Calls -/

/-- The contents of a Lua string, which is shorter than 2^63. -/
structure LuaString where
  bytes : List UInt8
  fits : bytes.length < 2 ^ 63

/-- What a call of an editing method finds: the error that ends `zmq_msg_init_size`, or the bytes that a new
    buffer holds. -/
structure Env where
  alloc : Option Nat
  junk : Nat → UInt8

/-- `true`, or nil and an error. -/
inductive Reply
  | pass
  | fail (errno : Nat)
deriving DecidableEq, Repr

/-- A call of an editing method; `P` are the positions. -/
inductive Edit (P : Type)
  | setData (pos : Option P) (s : LuaString)
  | setSize (n : Int)

/-! ## The C functions -/

/-- The address of the zmq_msg_t of a message object, and of the local one of the C functions. -/
def addr (k : Nat) : Nat := k + 1

def loc : Nat := 0

/-- A value that is converted to `size_t`. -/
def sizeT (n : Int) : Nat := (BitVec.ofInt 64 n).toNat

/-- `luazmq_getmessage` -/
def luazmqGetmessage (k : Nat) : Lua Heap Unit := do
  let h ← Lua.read id
  if h.isOpen (addr k) then pure () else Lua.raise

/-- `zmq_msg_init_size`, `memcpy` of the first `n` bytes, `zmq_msg_move` and `zmq_msg_close`: the error, if
    there is one. -/
def replace (env : Env) (k nsize n : Nat) : Lua Heap (Option Nat) := do
  match env.alloc with
  | some e => pure (some e)
  | none => do
    Lua.modify fun h => h.init loc (uninit env.junk nsize)
    Lua.modify fun h => h.transfer loc (addr k) n
    Lua.modify fun h => h.move (addr k) loc
    Lua.modify fun h => h.close loc
    pure none

/-- `memcpy( (char*)zmq_msg_data(&zmsg->msg) + start_pos, data, size)`, and `luazmq_pass` -/
def writeData (k : Nat) (startPos : Int) (s : LuaString) : Lua Heap Reply := do
  Lua.modify fun h => h.store (addr k) startPos s.bytes
  pure .pass

def luazmqMsgSetData (env : Env) (k : Nat) (pos : Option (BitVec 32)) (s : LuaString) : Lua Heap Reply := do
  luazmqGetmessage k
  let startPos := (pos.getD 1).toInt
  if 0 ≤ startPos then do -- can not be negative or zero
    let size ← Lua.read fun h => h.size (addr k)
    let nsize := sizeT (startPos - 1 + s.bytes.length) -- -1 wraps around
    if size < nsize then do
      match ← replace env k nsize size with
      | some e => pure (.fail e)
      | none => writeData k (startPos - 1) s
    else writeData k (startPos - 1) s
  else Lua.raise

def luazmqMsgSetSize (env : Env) (k : Nat) (n : Int) : Lua Heap Reply := do
  luazmqGetmessage k
  let nsize := sizeT n
  let osize ← Lua.read fun h => h.size (addr k)
  if nsize = osize then pure .pass
  else do
    match ← replace env k nsize (if osize < nsize then osize else nsize) with
    | some e => pure (.fail e)
    | none => pure .pass

/-- `luazmq_msg_more` -/
def luazmqMsgMore (k : Nat) : Lua Heap Bool := do
  luazmqGetmessage k
  Lua.read fun h => h.more (addr k)

def Edit.run (env : Env) (k : Nat) : Edit (BitVec 32) → Lua Heap Reply
  | .setData pos s => luazmqMsgSetData env k pos s
  | .setSize n => luazmqMsgSetSize env k n

/-! ## Replacing a message -/

section Replace

variable {h : Heap} {k nsize n : Nat}

/-- The heap after a message has been replaced. -/
def replaced (h : Heap) (junk : Nat → UInt8) (k nsize n : Nat) : Heap :=
  (((h.init loc (uninit junk nsize)).transfer loc (addr k) n).move (addr k) loc).close loc

theorem run_replace_ok {env : Env} (halloc : env.alloc = none) :
    replace env k nsize n h = .ret none (replaced h env.junk k nsize n) := by
  rw [replace, halloc]
  rfl

theorem run_replace_fails {env : Env} {e : Nat} (halloc : env.alloc = some e) :
    replace env k nsize n h = .ret (some e) h := by
  rw [replace, halloc]
  rfl

theorem addr_ne_loc (k : Nat) : addr k ≠ loc := Nat.succ_ne_zero k

/-- It holds the bytes that were copied. -/
theorem data_replaced (junk : Nat → UInt8) :
    (replaced h junk k nsize n).data (addr k) =
      overwrite (uninit junk nsize) 0 ((h.data (addr k)).take n) := by
  rw [replaced, Heap.data_close_of_ne (addr_ne_loc k), Heap.data_move (addr_ne_loc k), Heap.data_transfer,
    Heap.init, Heap.data_new, Heap.data_new_of_ne (addr_ne_loc k)]

/-- And has lost its flag. -/
theorem more_replaced (junk : Nat → UInt8) : (replaced h junk k nsize n).more (addr k) = false := by
  rw [replaced, Heap.more_close_of_ne (addr_ne_loc k), Heap.more_move (addr_ne_loc k), Heap.more_transfer,
    Heap.init, Heap.more_new]

theorem size_replaced (junk : Nat → UInt8) : (replaced h junk k nsize n).size (addr k) = nsize := by
  rw [Heap.size, data_replaced, length_overwrite, length_uninit]

theorem isOpen_replaced (junk : Nat → UInt8) : (replaced h junk k nsize n).isOpen (addr k) = true := by
  rw [Heap.isOpen, replaced, Heap.part_close_of_ne (addr_ne_loc k), Heap.part_move (addr_ne_loc k),
    Heap.part_transfer]
  exact Heap.isOpen_new _ _ _ _

theorem overrun_replaced (junk : Nat → UInt8) (hn : n ≤ nsize) (hsize : n ≤ h.size (addr k)) :
    (replaced h junk k nsize n).overrun = h.overrun := by
  have hdata : (h.init loc (uninit junk nsize)).data (addr k) = h.data (addr k) :=
    Heap.data_new_of_ne (addr_ne_loc k)
  refine (Heap.overrun_transfer ?_ ?_).trans rfl
  · rw [Heap.size, Heap.init, Heap.data_new, length_uninit]
    exact hn
  · rw [Heap.size, hdata]
    exact hsize

/-- The old bytes are there again. -/
theorem get_replaced (junk : Nat → UInt8) (hn : n ≤ nsize) (hsize : n ≤ h.size (addr k)) {i : Nat}
    (hi : i < n) :
    ((replaced h junk k nsize n).data (addr k))[i]? = (h.data (addr k))[i]? := by
  have hlen : ((h.data (addr k)).take n).length = n := List.length_take_of_le hsize
  rw [data_replaced, get_overwrite_inside, Int.sub_zero, Int.toNat_natCast, List.getElem?_take_of_lt hi]
  · rw [length_uninit, hlen]
    exact ⟨Int.le_refl 0, by omega⟩
  · omega
  · rw [hlen]
    omega

end Replace

/-! ## Running the methods -/

section Run

variable {h : Heap} {k : Nat} (hopen : h.isOpen (addr k) = true) (env : Env)

include hopen

theorem run_luazmqGetmessage : luazmqGetmessage k h = .ret () h := by
  rw [luazmqGetmessage, Lua.run_bind, Lua.run_read, Lua.andThen_ret]
  exact congrFun (if_pos hopen) h

/-- A position that is refused. -/
theorem run_setData_refused {pos : Option (BitVec 32)} (s : LuaString) (hpos : (pos.getD 1).toInt < 0) :
    luazmqMsgSetData env k pos s h = .raise h := by
  rw [luazmqMsgSetData, Lua.run_bind, run_luazmqGetmessage hopen, Lua.andThen_ret]
  exact congrFun (if_neg (Int.not_le.mpr hpos)) h

/-- A write that does not reach beyond the end. -/
theorem run_setData_inPlace {pos : Option (BitVec 32)} {s : LuaString} (hpos : 0 ≤ (pos.getD 1).toInt)
    (hsize : sizeT ((pos.getD 1).toInt - 1 + s.bytes.length) ≤ h.size (addr k)) :
    luazmqMsgSetData env k pos s h = .ret .pass (h.store (addr k) ((pos.getD 1).toInt - 1) s.bytes) := by
  rw [luazmqMsgSetData, Lua.run_bind, run_luazmqGetmessage hopen, Lua.andThen_ret]
  refine (congrFun (if_pos hpos) h).trans ?_
  rw [Lua.run_bind, Lua.run_read, Lua.andThen_ret]
  exact congrFun (if_neg (Nat.not_lt.mpr hsize)) h

/-- A write that does. -/
theorem run_setData_grows {pos : Option (BitVec 32)} {s : LuaString} (hpos : 0 ≤ (pos.getD 1).toInt)
    (hsize : h.size (addr k) < sizeT ((pos.getD 1).toInt - 1 + s.bytes.length)) :
    luazmqMsgSetData env k pos s h = match env.alloc with
      | some e => .ret (.fail e) h
      | none => .ret .pass
          ((replaced h env.junk k (sizeT ((pos.getD 1).toInt - 1 + s.bytes.length))
            (h.size (addr k))).store (addr k) ((pos.getD 1).toInt - 1) s.bytes) := by
  rw [luazmqMsgSetData, Lua.run_bind, run_luazmqGetmessage hopen, Lua.andThen_ret]
  refine (congrFun (if_pos hpos) h).trans ?_
  rw [Lua.run_bind, Lua.run_read, Lua.andThen_ret]
  refine (congrFun (if_pos hsize) h).trans ?_
  rw [Lua.run_bind]
  cases halloc : env.alloc with
  | some e => rw [run_replace_fails halloc]; rfl
  | none => rw [run_replace_ok halloc]; rfl

theorem run_setSize_same {n : Int} (hsize : sizeT n = h.size (addr k)) :
    luazmqMsgSetSize env k n h = .ret .pass h := by
  rw [luazmqMsgSetSize, Lua.run_bind, run_luazmqGetmessage hopen, Lua.andThen_ret, Lua.run_bind, Lua.run_read,
    Lua.andThen_ret]
  exact congrFun (if_pos hsize) h

theorem run_setSize_resizes {n : Int} (hsize : sizeT n ≠ h.size (addr k)) :
    luazmqMsgSetSize env k n h = match env.alloc with
      | some e => .ret (.fail e) h
      | none => .ret .pass (replaced h env.junk k (sizeT n) (min (h.size (addr k)) (sizeT n))) := by
  have hmin : (if h.size (addr k) < sizeT n then h.size (addr k) else sizeT n) =
    min (h.size (addr k)) (sizeT n) := by
    by_cases hlt : h.size (addr k) < sizeT n
    · rw [if_pos hlt, Nat.min_eq_left (Nat.le_of_lt hlt)]
    · rw [if_neg hlt, Nat.min_eq_right (Nat.not_lt.mp hlt)]
  rw [luazmqMsgSetSize, Lua.run_bind, run_luazmqGetmessage hopen, Lua.andThen_ret]
  rw [Lua.run_bind, Lua.run_read, Lua.andThen_ret]
  refine (congrFun (if_neg hsize) h).trans ?_
  rw [hmin, Lua.run_bind]
  cases halloc : env.alloc with
  | some e => rw [run_replace_fails halloc]; rfl
  | none => rw [run_replace_ok halloc]; rfl

end Run

section Getmessage

variable {h : Heap} {k : Nat}

theorem run_luazmqGetmessage_closed (hclosed : h.isOpen (addr k) ≠ true) : luazmqGetmessage k h = .raise h := by
  rw [luazmqGetmessage, Lua.run_bind, Lua.run_read, Lua.andThen_ret]
  exact congrFun (if_neg hclosed) h

/-- A method that returns has been called on an open message. -/
theorem of_getmessage {R : Type} {g : Unit → Lua Heap R} {r : R} {h' : Heap}
    (hrun : (luazmqGetmessage k >>= g) h = .ret r h') : h.isOpen (addr k) = true ∧ g () h = .ret r h' := by
  rw [Lua.run_bind] at hrun
  by_cases hopen : h.isOpen (addr k) = true
  · rw [run_luazmqGetmessage hopen] at hrun
    exact ⟨hopen, hrun⟩
  · rw [run_luazmqGetmessage_closed hopen] at hrun
    cases hrun

end Getmessage

/-! ## All cases -/

/-- An edit that asks for a new buffer. -/
def Reallocates (k : Nat) (h : Heap) : Edit (BitVec 32) → Prop
  | .setData pos s =>
    0 ≤ (pos.getD 1).toInt ∧ h.size (addr k) < sizeT ((pos.getD 1).toInt - 1 + s.bytes.length)
  | .setSize n => sizeT n ≠ h.size (addr k)

section Cases

variable {h : Heap} {k : Nat} (hopen : h.isOpen (addr k) = true) (env : Env)

include hopen

/-- Without a new buffer the message keeps its flags. -/
theorem run_edit_inPlace {e : Edit (BitVec 32)} (he : ¬ Reallocates k h e) :
    ∃ h', (e.run env k h = .raise h' ∨ e.run env k h = .ret .pass h') ∧ h'.part = h.part := by
  cases e with
  | setData pos s =>
    by_cases hpos : 0 ≤ (pos.getD 1).toInt
    · have hsize := Nat.le_of_not_lt fun h => he ⟨hpos, h⟩
      exact ⟨_, .inr (run_setData_inPlace hopen env hpos hsize), rfl⟩
    · exact ⟨h, .inl (run_setData_refused hopen env s (Int.not_le.mp hpos)), rfl⟩
  | setSize n => exact ⟨h, .inr (run_setSize_same hopen env (not_not.mp he)), rfl⟩

theorem run_edit_fails {e : Edit (BitVec 32)} {err : Nat} (he : Reallocates k h e)
    (halloc : env.alloc = some err) :
    e.run env k h = .ret (.fail err) h := by
  cases e with
  | setData pos s =>
    have hrun := run_setData_grows hopen env he.1 he.2
    rw [halloc] at hrun
    exact hrun
  | setSize n =>
    have hrun := run_setSize_resizes hopen env he
    rw [halloc] at hrun
    exact hrun

/-- With one they are gone. -/
theorem run_edit_grows {e : Edit (BitVec 32)} (he : Reallocates k h e) (halloc : env.alloc = none) :
    ∃ h', e.run env k h = .ret .pass h' ∧ h'.isOpen (addr k) = true ∧ h'.more (addr k) = false := by
  cases e with
  | setData pos s =>
    have hrun := run_setData_grows hopen env he.1 he.2
    rw [halloc] at hrun
    exact ⟨_, hrun, isOpen_replaced env.junk, more_replaced env.junk⟩
  | setSize n =>
    have hrun := run_setSize_resizes hopen env he
    rw [halloc] at hrun
    exact ⟨_, hrun, isOpen_replaced env.junk, more_replaced env.junk⟩

end Cases

/-! ## Byte arrays -/

/-- What `set_data` is to do at position `p`, which counts from 1. -/
structure Written (k : Nat) (h h' : Heap) (p : Int) (s : List UInt8) : Prop where
  isOpen : h'.isOpen (addr k) = true
  inBounds : h'.overrun = false
  size : (h'.size (addr k) : Int) = max (h.size (addr k) : Int) (p - 1 + s.length)
  inside : ∀ j < s.length, (h'.data (addr k))[(p - 1).toNat + j]? = s[j]?
  outside : ∀ i : Nat, i < h.size (addr k) → (i : Int) < p - 1 ∨ p - 1 + s.length ≤ i →
    (h'.data (addr k))[i]? = (h.data (addr k))[i]?

/-- What `set_size` is to do. -/
structure Resized (k : Nat) (h h' : Heap) (n : Nat) : Prop where
  isOpen : h'.isOpen (addr k) = true
  inBounds : h'.overrun = false
  size : h'.size (addr k) = n
  kept : ∀ i < min (h.size (addr k)) n, (h'.data (addr k))[i]? = (h.data (addr k))[i]?

/-- What a call is to do whose allocation succeeds. -/
def EditOk (k : Nat) (h : Heap) : Edit (BitVec 32) → Ending Heap Reply → Prop
  | .setData pos s, r =>
    if (pos.getD 1).toInt < 1 then r = .raise h
    else ∃ h', r = .ret .pass h' ∧ Written k h h' (pos.getD 1).toInt s.bytes
  | .setSize n, r => ∃ h', r = .ret .pass h' ∧ Resized k h h' (sizeT n)

/-- A call that is not `set_data` at position 0. -/
def Edit.PosOk : Edit (BitVec 32) → Prop
  | .setData pos _ => pos ≠ some 0
  | .setSize _ => True

theorem sizeT_of_nonneg {n : Int} (h : 0 ≤ n) (hlt : n < 2 ^ 64) : sizeT n = n.toNat := by
  rw [sizeT, BitVec.toNat_ofInt, Int.emod_eq_of_lt h (by exact_mod_cast hlt)]

/-- A write that ends inside of the message, which may have been replaced before. -/
theorem written_store {k : Nat} {h g : Heap} {p : Int} {s : List UInt8} (hpos : 1 ≤ p)
    (hopen : g.isOpen (addr k) = true) (hclean : g.overrun = false)
    (hsize : (g.size (addr k) : Int) = max (h.size (addr k) : Int) (p - 1 + s.length))
    (hkept : ∀ i < h.size (addr k), (g.data (addr k))[i]? = (h.data (addr k))[i]?) :
    Written k h (g.store (addr k) (p - 1) s) p s := by
  have hfits : Fits (g.data (addr k)).length (p - 1) s.length := by
    have hlen : ((g.data (addr k)).length : Int) = max (h.size (addr k) : Int) (p - 1 + s.length) := hsize
    exact ⟨by omega, by omega⟩
  refine ⟨hopen, (Heap.overrun_store hfits).trans hclean, ?_, fun j hj => ?_, fun i hi hout => ?_⟩
  · rw [Heap.size, Heap.data_store, length_overwrite]
    exact hsize
  · have hoff : (((p - 1).toNat + j : Nat) - (p - 1) : Int).toNat = j := by omega
    rw [Heap.data_store, get_overwrite_inside _ hfits (by omega) (by omega), hoff]
  · rw [Heap.data_store, get_overwrite_outside _ hout]
    exact hkept i hi

theorem one_le_of_ne {pos : Option (BitVec 32)} (hzero : pos ≠ some 0) (hpos : 0 ≤ (pos.getD 1).toInt) :
    1 ≤ (pos.getD 1).toInt := by
  cases pos with
  | none => decide
  | some v =>
    have hne : v.toInt ≠ (0 : BitVec 32).toInt := fun h => hzero (congrArg some (BitVec.toInt_inj.mp h))
    have hv : (0 : BitVec 32).toInt = 0 := rfl
    rw [Option.getD_some] at hpos ⊢
    omega

section Call

variable {k : Nat} {h : Heap} (hopen : h.isOpen (addr k) = true) (junk : Nat → UInt8)

include hopen

/-- Both branches of `set_data` write where they are to. -/
theorem written_setData (hclean : h.overrun = false) {pos : Option (BitVec 32)} (hpos : 1 ≤ (pos.getD 1).toInt)
    (s : LuaString) : ∃ h', luazmqMsgSetData ⟨none, junk⟩ k pos s h = .ret .pass h' ∧
      Written k h h' (pos.getD 1).toInt s.bytes := by
  have hlt : (pos.getD 1).toInt < 2 ^ 31 := BitVec.toInt_lt
  have hlen : (s.bytes.length : Int) < 2 ^ 63 := by exact_mod_cast s.fits
  -- with a position from 1 on nothing wraps around
  have hsize := sizeT_of_nonneg (show 0 ≤ (pos.getD 1).toInt - 1 + s.bytes.length by omega) (by omega)
  by_cases hgrows : h.size (addr k) < sizeT ((pos.getD 1).toInt - 1 + s.bytes.length)
  · have hle := Nat.le_of_lt hgrows
    refine ⟨_, run_setData_grows hopen _ (by omega) hgrows, ?_⟩
    refine written_store hpos (isOpen_replaced junk) ?_ ?_ fun i hi => ?_
    · rw [overrun_replaced junk hle (Nat.le_refl _), hclean]
    · rw [size_replaced]
      omega
    · exact get_replaced junk hle (Nat.le_refl _) hi
  · refine ⟨_, run_setData_inPlace hopen _ (by omega) (by omega), ?_⟩
    exact written_store hpos hopen hclean (by omega) fun i _ => rfl

theorem resized_setSize (hclean : h.overrun = false) (n : Int) :
    ∃ h', luazmqMsgSetSize ⟨none, junk⟩ k n h = .ret .pass h' ∧ Resized k h h' (sizeT n) := by
  by_cases hsize : sizeT n = h.size (addr k)
  · exact ⟨h, run_setSize_same hopen _ hsize, hopen, hclean, hsize.symm, fun i _ => rfl⟩
  · have hold := Nat.min_le_left (h.size (addr k)) (sizeT n)
    have hnew := Nat.min_le_right (h.size (addr k)) (sizeT n)
    refine ⟨_, run_setSize_resizes hopen _ hsize, isOpen_replaced junk, ?_, size_replaced junk, fun i hi => ?_⟩
    · rw [overrun_replaced junk hnew hold, hclean]
    · exact get_replaced junk hnew hold hi

/-- Position 0 does not raise an error. -/
theorem accepted_setData (s : LuaString) : luazmqMsgSetData ⟨none, junk⟩ k (some 0) s h ≠ .raise h := by
  have hpos : 0 ≤ ((some (0 : BitVec 32)).getD 1).toInt := by decide
  intro hraise
  by_cases hgrows : h.size (addr k) < sizeT (((some (0 : BitVec 32)).getD 1).toInt - 1 + s.bytes.length)
  · rw [run_setData_grows hopen _ hpos hgrows] at hraise
    cases hraise
  · rw [run_setData_inPlace hopen _ hpos (Nat.le_of_not_lt hgrows)] at hraise
    cases hraise

/-- **One call.** -/
theorem edit_ok_iff (hclean : h.overrun = false) (e : Edit (BitVec 32)) :
    EditOk k h e (e.run ⟨none, junk⟩ k h) ↔ e.PosOk := by
  cases e with
  | setData pos s =>
    show EditOk k h (.setData pos s) (luazmqMsgSetData ⟨none, junk⟩ k pos s h) ↔ pos ≠ some 0
    by_cases hneg : (pos.getD 1).toInt < 0
    · -- refused, as it should be
      rw [run_setData_refused hopen _ s hneg]
      refine iff_of_true ((if_pos (by omega)).mpr rfl) fun hzero => ?_
      rw [hzero] at hneg
      exact absurd hneg (by decide)
    · by_cases hzero : pos = some 0
      · -- accepted, although position 0 is below 1
        refine iff_of_false (fun hok => ?_) fun h => h hzero
        have hbelow : (pos.getD 1).toInt < 1 := by rw [hzero]; decide
        have hraise : luazmqMsgSetData ⟨none, junk⟩ k pos s h = .raise h := (if_pos hbelow).mp hok
        rw [hzero] at hraise
        exact accepted_setData hopen junk s hraise
      · have hpos : 1 ≤ (pos.getD 1).toInt := one_le_of_ne hzero (by omega)
        exact iff_of_true ((if_neg (by omega)).mpr (written_setData hopen junk hclean hpos s)) hzero
  | setSize n => exact iff_of_true (resized_setSize hopen junk hclean n) trivial

end Call

/-! ## Sequences of calls -/

/-- A call of an editing method whose allocation succeeds, with the bytes that a new buffer holds. -/
structure Call where
  edit : Edit (BitVec 32)
  junk : Nat → UInt8

/-- After a call, also after one that raises an error. -/
def Call.step (k : Nat) (h : Heap) (c : Call) : Option Heap := Lua.after (c.edit.run ⟨none, c.junk⟩ k) h

/-- A message object that is open, with whatever is in it. -/
structure OpenMessage where
  k : Nat
  heap : Heap
  isOpen : heap.isOpen (addr k) = true
  clean : heap.overrun = false

/-- A call that does what it is to do leaves an open message, for the next call. -/
theorem step_of_ok {k : Nat} {h : Heap} {c : Call} (hopen : h.isOpen (addr k) = true)
    (hclean : h.overrun = false) (hok : EditOk k h c.edit (c.edit.run ⟨none, c.junk⟩ k h)) :
    ∃ h', c.step k h = some h' ∧ h'.isOpen (addr k) = true ∧ h'.overrun = false := by
  obtain ⟨edit, junk⟩ := c
  cases edit with
  | setData pos s =>
    by_cases hneg : (pos.getD 1).toInt < 1
    · have hraise := (if_pos hneg).mp hok
      exact ⟨h, Lua.after_of (.inr hraise), hopen, hclean⟩
    · obtain ⟨h', hret, hwritten⟩ := (if_neg hneg).mp hok
      exact ⟨h', Lua.after_of (.inl ⟨_, hret⟩), hwritten.isOpen, hwritten.inBounds⟩
  | setSize n =>
    obtain ⟨h', hret, hresized⟩ := hok
    exact ⟨h', Lua.after_of (.inl ⟨_, hret⟩), hresized.isOpen, hresized.inBounds⟩

/-- **A message is a byte array** through a sequence of calls iff none of them is `set_data` at position 0. -/
theorem edits_iff (m : OpenMessage) (calls : List Call) :
    Steps.Keeps (Call.step m.k)
      (fun h c _ => EditOk m.k h c.edit (c.edit.run ⟨none, c.junk⟩ m.k h)) m.heap calls ↔
      Steps.Meets (Call.step m.k) (fun _ c => c.edit.PosOk) m.heap calls := by
  refine Steps.keeps_iff_meets (Call.step m.k) (fun h => h.isOpen (addr m.k) = true ∧ h.overrun = false)
    (fun h c hinv => ?_) (fun h c h' hinv hstep hok => ?_) calls m.heap ⟨m.isOpen, m.clean⟩
  · rw [← edit_ok_iff hinv.1 c.junk hinv.2 c.edit]
    refine ⟨fun ⟨_, _, hok⟩ => hok, fun hok => ?_⟩
    obtain ⟨h', hstep, -⟩ := step_of_ok hinv.1 hinv.2 hok
    exact ⟨h', hstep, hok⟩
  · obtain ⟨g, hg, hopen⟩ := step_of_ok hinv.1 hinv.2 hok
    rw [Option.some.inj (hstep.symm.trans hg)]
    exact hopen

/-- An empty message, as the first one. -/
def OpenMessage.first : OpenMessage := ⟨0, Heap.empty.init (addr 0) [], rfl, rfl⟩

/-- `msg:set_data(0, "a")` -/
def atZero : Call := ⟨.setData (some 0) ⟨[97], by decide⟩, fun _ => 0⟩

/-- Position 0 is not rejected. -/
theorem atZero_accepted : ¬ Steps.Keeps (Call.step OpenMessage.first.k)
    (fun h c _ => EditOk 0 h c.edit (c.edit.run ⟨none, c.junk⟩ 0 h)) OpenMessage.first.heap [atZero] := by
  intro h
  obtain ⟨h', -, hok, -⟩ := h
  have hpos := (edit_ok_iff OpenMessage.first.isOpen atZero.junk OpenMessage.first.clean atZero.edit).mp hok
  exact hpos rfl

end Lzmq.CMessage
