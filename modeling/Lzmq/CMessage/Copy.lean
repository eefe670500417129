/-
  Copies of messages in the C binding (`luazmq_msg_copy` of `zmsg.c`), and what a call on one message does to
  another one.

  `zmq_msg_copy` gives a message that is too large to be kept in the zmq_msg_t no buffer of its own: it uses
  the one of its source.  An edit that replaces the message leaves that buffer to the other one, and so does
  a close.  But an edit in place writes into it, and nobody looks whether it is shared.
-/
import Lzmq.CMessage.Edit

namespace Lzmq.CMessage

open Lzmq.Buffer Lzmq.Messages

/-! ## The C functions -/

/-- What `luazmq_msg_copy` finds: the errors of `zmq_msg_init` and `zmq_msg_copy`, the size up to which
    libzmq keeps a message in its zmq_msg_t, and the object that Lua makes. -/
structure CopyEnv where
  init : Option Nat
  call : Option Nat
  limit : Nat
  made : Nat

/-- A message object, or nil and an error. -/
inductive CopyReply
  | message (k : Nat)
  | fail (errno : Nat)
deriving DecidableEq, Repr

/-- `zmq_msg_copy`, and the result. -/
def copyTo (env : CopyEnv) (dst src : Nat) : Lua Heap CopyReply :=
  match env.call with
  | some e => pure (.fail e)
  | none => do
    Lua.modify fun h => h.copy env.limit (addr dst) (addr src)
    pure (.message dst)

/-- With one argument it is the source, with two the first one is the destination. -/
def luazmqMsgCopy (env : CopyEnv) (first : Nat) (second : Option Nat) : Lua Heap CopyReply := do
  luazmqGetmessage first
  match second with
  | none => do
    match env.init with
    | some e => pure (.fail e)
    | none => do
      Lua.modify fun h => h.init (addr env.made) []
      copyTo env env.made first
  | some second => do
    luazmqGetmessage second
    copyTo env first second

/-- An object that is closed already is left as it is. -/
def luazmqMsgClose (k : Nat) : Lua Heap Reply := do
  let h ← Lua.read id
  if h.isOpen (addr k) then do
    Lua.modify fun h => h.close (addr k)
    pure .pass
  else pure .pass

def luazmqMsgSize (k : Nat) : Lua Heap Nat := do
  luazmqGetmessage k
  Lua.read fun h => h.size (addr k)

def luazmqMsgData (k : Nat) : Lua Heap (List UInt8) := do
  luazmqGetmessage k
  Lua.read fun h => h.data (addr k)

/-- A call of `set_data`, `set_size` or `close`. -/
inductive Change (P : Type)
  | edit (e : Edit P)
  | close

def Change.run (env : Env) (k : Nat) : Change (BitVec 32) → Lua Heap Reply
  | .edit e => e.run env k
  | .close => luazmqMsgClose k

/-- After a call, also after one that raises an error. -/
def changeStep (k : Nat) (h : Heap) (c : Change (BitVec 32) × Env) : Option Heap := Lua.after (c.1.run c.2 k) h

/-- A call that writes `s` into the buffer that the message has. -/
structure InPlace (k : Nat) (h : Heap) (c : Change (BitVec 32)) (pos : Option (BitVec 32)) (s : LuaString) :
    Prop where
  call : c = .edit (.setData pos s)
  isOpen : h.isOpen (addr k) = true
  start : 0 ≤ (pos.getD 1).toInt
  fits : sizeT ((pos.getD 1).toInt - 1 + s.bytes.length) ≤ h.size (addr k)

/-- A call that does so although message `j` has the same buffer, with other bytes there. -/
def Overwrites (k j : Nat) (h : Heap) (c : Change (BitVec 32)) : Prop :=
  ∃ pos s, InPlace k h c pos s ∧ h.Disturbs (addr k) (addr j) ((pos.getD 1).toInt - 1) s.bytes

/-! ## Messages that are closed -/

section Closed

variable {h : Heap} {k : Nat} (hclosed : h.isOpen (addr k) ≠ true)

include hclosed

theorem run_edit_closed (env : Env) (e : Edit (BitVec 32)) : e.run env k h = .raise h := by
  cases e with
  | setData pos s =>
    show luazmqMsgSetData env k pos s h = _
    rw [luazmqMsgSetData, Lua.run_bind, run_luazmqGetmessage_closed hclosed, Lua.andThen_raise]
  | setSize n =>
    show luazmqMsgSetSize env k n h = _
    rw [luazmqMsgSetSize, Lua.run_bind, run_luazmqGetmessage_closed hclosed, Lua.andThen_raise]

theorem run_close_closed : luazmqMsgClose k h = .ret .pass h := by
  rw [luazmqMsgClose, Lua.run_bind, Lua.run_read, Lua.andThen_ret]
  exact congrFun (if_neg hclosed) h

end Closed

theorem run_close_open {h : Heap} {k : Nat} (hopen : h.isOpen (addr k) = true) :
    luazmqMsgClose k h = .ret .pass (h.close (addr k)) := by
  rw [luazmqMsgClose, Lua.run_bind, Lua.run_read, Lua.andThen_ret]
  exact congrFun (if_pos hopen) h

/-! ## What another message sees -/

/-- Message `j` is what it has been, and has not come to share a buffer with `k`. -/
structure Kept (k j : Nat) (h h' : Heap) : Prop where
  part : h'.part (addr j) = h.part (addr j)
  data : h'.data (addr j) = h.data (addr j)
  apart : h.Apart (addr k) (addr j) → h'.Apart (addr k) (addr j)

section Others

variable {h : Heap} {k j : Nat}

theorem Kept.refl (k j : Nat) (h : Heap) : Kept k j h h := ⟨rfl, rfl, id⟩

theorem addr_ne (hjk : j ≠ k) : addr j ≠ addr k := fun heq => hjk (Nat.succ.inj heq)

/-- A message that is replaced gets a buffer of its own. -/
theorem kept_replaced (hjk : j ≠ k) (junk : Nat → UInt8) (nsize n : Nat) :
    (replaced h junk k nsize n).Apart (addr k) (addr j) ∧ Kept k j h (replaced h junk k nsize n) := by
  have hloc : addr j ≠ loc := addr_ne_loc j
  have hnew : (h.init loc (uninit junk nsize)).Apart loc (addr j) := Heap.apart_new hloc
  have hpart : (replaced h junk k nsize n).part (addr j) = (h.init loc (uninit junk nsize)).part (addr j) := by
    rw [replaced, Heap.part_close_of_ne hloc, Heap.part_move_of_ne (addr_ne hjk) hloc, Heap.part_transfer]
  have hself : (replaced h junk k nsize n).part (addr k) = (h.init loc (uninit junk nsize)).part loc := by
    rw [replaced, Heap.part_close_of_ne (addr_ne_loc k), Heap.part_move (addr_ne_loc k), Heap.part_transfer]
  have hapart := hnew.of_part hself hpart
  refine ⟨hapart, hpart.trans (Heap.part_new_of_ne hloc), ?_, fun _ => hapart⟩
  rw [replaced, Heap.data_close_of_ne hloc, Heap.data_move_of_ne (addr_ne hjk) hloc,
    Heap.data_transfer_of_apart hnew]
  exact Heap.data_new_of_ne hloc

/-- So a write that follows is not seen by others. -/
theorem kept_replaced_store (hjk : j ≠ k) (junk : Nat → UInt8) (nsize n : Nat) (pos : Int) (src : List UInt8) :
    Kept k j h ((replaced h junk k nsize n).store (addr k) pos src) := by
  obtain ⟨hapart, hkept⟩ := kept_replaced (h := h) hjk junk nsize n
  exact ⟨hkept.part, (Heap.data_store_of_apart hapart pos src).trans hkept.data, fun _ => hapart⟩

theorem kept_close (hjk : j ≠ k) : Kept k j h (h.close (addr k)) :=
  ⟨Heap.part_close_of_ne (addr_ne hjk), Heap.data_close_of_ne (addr_ne hjk), fun _ => Heap.apart_close⟩

theorem step_inPlace {c : Change (BitVec 32)} {pos : Option (BitVec 32)} {s : LuaString} (env : Env)
    (hin : InPlace k h c pos s) :
    changeStep k h (c, env) = some (h.store (addr k) ((pos.getD 1).toInt - 1) s.bytes) := by
  obtain ⟨rfl, hopen, hpos, hsize⟩ := hin
  exact Lua.after_of (.inl ⟨_, run_setData_inPlace hopen env hpos hsize⟩)

theorem step_setData_kept (hjk : j ≠ k) (hopen : h.isOpen (addr k) = true) (env : Env)
    {pos : Option (BitVec 32)} {s : LuaString} (hnot : ¬ InPlace k h (.edit (.setData pos s)) pos s) :
    ∃ h', changeStep k h (.edit (.setData pos s), env) = some h' ∧ Kept k j h h' := by
  by_cases hpos : 0 ≤ (pos.getD 1).toInt
  · have hgrows := Nat.lt_of_not_le fun hle => hnot ⟨rfl, hopen, hpos, hle⟩
    have hrun := run_setData_grows hopen env hpos hgrows
    cases halloc : env.alloc with
    | some err =>
      rw [halloc] at hrun
      exact ⟨h, Lua.after_of (.inl ⟨_, hrun⟩), .refl k j h⟩
    | none =>
      rw [halloc] at hrun
      exact ⟨_, Lua.after_of (.inl ⟨_, hrun⟩), kept_replaced_store hjk env.junk _ _ _ _⟩
  · exact ⟨h, Lua.after_of (.inr (run_setData_refused hopen env s (Int.not_le.mp hpos))), .refl k j h⟩

theorem step_setSize_kept (hjk : j ≠ k) (hopen : h.isOpen (addr k) = true) (env : Env) (n : Int) :
    ∃ h', changeStep k h (.edit (.setSize n), env) = some h' ∧ Kept k j h h' := by
  by_cases hsize : sizeT n = h.size (addr k)
  · exact ⟨h, Lua.after_of (.inl ⟨_, run_setSize_same hopen env hsize⟩), .refl k j h⟩
  · have hrun := run_setSize_resizes hopen env hsize
    cases halloc : env.alloc with
    | some err =>
      rw [halloc] at hrun
      exact ⟨h, Lua.after_of (.inl ⟨_, hrun⟩), .refl k j h⟩
    | none =>
      rw [halloc] at hrun
      exact ⟨_, Lua.after_of (.inl ⟨_, hrun⟩), (kept_replaced hjk env.junk _ _).2⟩

/-- A call that does not write into the buffer leaves all other messages alone. -/
theorem step_kept (hjk : j ≠ k) (env : Env) {c : Change (BitVec 32)} (hnot : ∀ pos s, ¬ InPlace k h c pos s) :
    ∃ h', changeStep k h (c, env) = some h' ∧ Kept k j h h' := by
  by_cases hopen : h.isOpen (addr k) = true
  · match c with
    | .edit (.setData pos s) => exact step_setData_kept hjk hopen env (hnot pos s)
    | .edit (.setSize n) => exact step_setSize_kept hjk hopen env n
    | .close => exact ⟨_, Lua.after_of (.inl ⟨_, run_close_open hopen⟩), kept_close hjk⟩
  · match c with
    | .edit e => exact ⟨h, Lua.after_of (.inr (run_edit_closed hopen env e)), .refl k j h⟩
    | .close => exact ⟨h, Lua.after_of (.inl ⟨_, run_close_closed hopen⟩), .refl k j h⟩

/-- **A call and another message.**  It stays where it is, it stays apart, and it keeps its bytes iff they are
    not overwritten. -/
theorem step_change (hjk : j ≠ k) (c : Change (BitVec 32) × Env) : ∃ h', changeStep k h c = some h' ∧
    h'.part (addr j) = h.part (addr j) ∧ (h.Apart (addr k) (addr j) → h'.Apart (addr k) (addr j)) ∧
    (h'.data (addr j) = h.data (addr j) ↔ ¬ Overwrites k j h c.1) := by
  obtain ⟨c, env⟩ := c
  by_cases hin : ∃ pos s, InPlace k h c pos s
  · obtain ⟨pos, s, hin⟩ := hin
    refine ⟨_, step_inPlace env hin, rfl, id, (Heap.data_store_iff _ _).trans ?_⟩
    apply not_congr
    constructor
    · intro hdist
      exact ⟨pos, s, hin, hdist⟩
    · rintro ⟨pos', s', hin', hdist⟩
      cases hin.call.symm.trans hin'.call
      exact hdist
  · obtain ⟨h', hstep, hkept⟩ := step_kept hjk env fun pos s h => hin ⟨pos, s, h⟩
    refine ⟨h', hstep, hkept.part, hkept.apart, iff_of_true hkept.data ?_⟩
    rintro ⟨pos, s, hpos, -⟩
    exact hin ⟨pos, s, hpos⟩

end Others

/-! ## A copy that has been made -/

section Copied

variable {env : CopyEnv} {h h' : Heap} {k first second : Nat}

theorem of_copyTo {dst src : Nat} (hrun : copyTo env dst src h = .ret (.message k) h') :
    k = dst ∧ h' = h.copy env.limit (addr dst) (addr src) := by
  cases hcall : env.call with
  | some e =>
    rw [copyTo, hcall] at hrun
    cases hrun
  | none =>
    rw [copyTo, hcall] at hrun
    cases hrun
    exact ⟨rfl, rfl⟩

/-- `dst:copy(src)` has returned a message. -/
theorem of_copy_second (hrun : luazmqMsgCopy env first (some second) h = .ret (.message k) h') :
    k = first ∧ h.isOpen (addr first) = true ∧ h.isOpen (addr second) = true ∧
      h' = h.copy env.limit (addr first) (addr second) := by
  obtain ⟨hfirst, hrun⟩ := of_getmessage hrun
  obtain ⟨hsecond, hrun⟩ := of_getmessage hrun
  obtain ⟨hk, hh'⟩ := of_copyTo hrun
  exact ⟨hk, hfirst, hsecond, hh'⟩

/-- `src:copy()` has. -/
theorem of_copy_first (hrun : luazmqMsgCopy env first none h = .ret (.message k) h') :
    k = env.made ∧ h.isOpen (addr first) = true ∧
      h' = (h.init (addr env.made) []).copy env.limit (addr env.made) (addr first) := by
  obtain ⟨hfirst, hrun⟩ := of_getmessage hrun
  cases hinit : env.init with
  | some e =>
    rw [hinit] at hrun
    cases hrun
  | none =>
    rw [hinit] at hrun
    obtain ⟨u, g, hset, hrun⟩ := Lua.of_bind_ret hrun
    cases hset
    obtain ⟨hk, hh'⟩ := of_copyTo hrun
    exact ⟨hk, hfirst, hh'⟩

end Copied

end Lzmq.CMessage
