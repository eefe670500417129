/-
  Edits of a message that fail, in both bindings.

  When `zmq_msg_init_size` fails, three of the four methods return before they have touched anything.
  `set_size` of the FFI binding does not look: the call crashes, or reports success and closes the message.
-/
import Lzmq.FfiMessage.Sharing

namespace Lzmq.Messages

open Lzmq.CMessage (LuaString Edit addr)

/-- An edit of an open message that asks `zmq_msg_init_size` for a new buffer in vain. -/
inductive FailedEdit
  | c (m : CMessage.OpenMessage) (e : Edit (BitVec 32)) (errno : Nat) (junk : Nat → UInt8)
      (asks : CMessage.Reallocates m.k m.heap e)
  | ffi (m : FfiMessage.OpenMessage) (e : Edit Int) (errno : Nat) (env : FfiMessage.Env)
      (fails : env.alloc = some errno) (asks : FfiMessage.Reallocates m.world m.own e)

/-- nil and the error, and the message as it was. -/
def FailedEdit.Unharmed : FailedEdit → Prop
  | .c m e errno junk _ => ∃ h, e.run ⟨some errno, junk⟩ m.k m.heap = .ret (.fail errno) h ∧
      h.isOpen (addr m.k) = true ∧ h.size (addr m.k) = m.heap.size (addr m.k) ∧
      h.data (addr m.k) = m.heap.data (addr m.k)
  | .ffi m e errno env _ _ => ∃ w own, FfiMessage.edit env m.i e m.world = .ret (.fail errno) w ∧
      w.struct m.i = some own ∧ w.heap.size own = m.world.heap.size m.own ∧
      w.heap.data own = m.world.heap.data m.own

/-- `set_size` of the FFI binding. -/
def FailedEdit.IsFfiSetSize : FailedEdit → Prop
  | .c _ _ _ _ _ => False
  | .ffi _ e _ _ _ _ => FfiMessage.IsSetSize e

/-- **A failed edit leaves the message as it was**, except for `set_size` of the FFI binding. -/
theorem unharmed_iff (f : FailedEdit) : f.Unharmed ↔ ¬ f.IsFfiSetSize := by
  cases f with
  | c m e errno junk asks =>
    refine iff_of_true ⟨m.heap, ?_, m.isOpen, rfl, rfl⟩ id
    exact CMessage.run_edit_fails m.isOpen ⟨some errno, junk⟩ asks rfl
  | ffi m e errno env fails asks =>
    constructor
    · rintro ⟨w, own, hrun, -⟩ hset
      rcases FfiMessage.run_edit_lost m.isOpen asks fails hset with hcrash | ⟨w', hpass, -⟩
      · rw [hcrash] at hrun
        cases hrun
      · rw [hpass] at hrun
        cases hrun
    · intro hset
      exact ⟨_, m.own, FfiMessage.run_edit_fails m.isOpen asks fails hset, m.isOpen, rfl, rfl⟩

/-- `zmq.msg_init()` -/
def emptyMessage : FfiMessage.OpenMessage where
  world := ⟨Heap.empty.init 1 [], 2, 0, [some 1], 0⟩
  i := 0
  own := 1
  isOpen := rfl
  inv := FfiMessage.inv_run (show Steps.run FfiMessage.step .start [(.new .none, .fine)] = some _ from rfl)
  clean := rfl

/-- There is no memory for a larger message. -/
def noMemory : FfiMessage.Env := { FfiMessage.Env.fine with alloc := some 12 }

/-- `msg:set_size(1)` on an empty message reports success, and the message is closed. -/
theorem setSize_closes : ¬ (FailedEdit.ffi emptyMessage (.setSize 1) 12 noMemory rfl
      (show CMessage.sizeT 1 ≠ emptyMessage.world.heap.size 1 by decide)).Unharmed ∧
    ∃ w, FfiMessage.edit noMemory 0 (.setSize 1) emptyMessage.world = .ret .pass w ∧ w.struct 0 = none := by
  refine ⟨?_, _, rfl, rfl⟩
  rintro ⟨w, own, hrun, -⟩
  cases hrun

end Lzmq.Messages
