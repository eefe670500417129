/-
  Where `ffi.copy` writes in the FFI binding.

  Without a length `ffi.copy` writes a string and its terminating zero.  A message of as many bytes as the
  string has no room for the zero: `msg_init_data` always writes one byte too many, and so does `set_data`
  when it makes a new buffer.  In the buffer of `identity_fd` there is room for all but the longest identity.

  `copies_iff` says for each of the three when all copies stay inside.
-/
import Lzmq.FfiMessage.Sharing

namespace Lzmq.FfiMessage

open Lzmq.Buffer Lzmq.CMessage Lzmq.Messages

/-! ## `identity_fd` -/

/-- `ffi.sizeof(fd_t)` -/
def fdSize (win64 : Bool) : Nat := if win64 then 8 else 4

/-- `ffi.new` of an array of bytes -/
def ffiNewBytes (n : Nat) : Lua World Nat := do
  let a ← ffiNew
  onHeap fun h => h.new a (List.replicate n 0) false
  pure a

/-- `zmq_skt_getopt_identity_fd`; `fd` is what `zmq_getsockopt` stores, unless it fails. -/
def zmqSktGetoptIdentityFd (win64 : Bool) (fd : Option (List UInt8)) (id : List UInt8) :
    Lua World (Option (List UInt8)) := do
  if id.length ≤ 255 then do
    let buffer ← ffiNewBytes 255
    let val ← ffiNewBytes (fdSize win64)
    ffiCopyString buffer 0 id
    match fd with
    | none => pure none
    | some fd => do
      onHeap fun h => h.store buffer 0 (fd.take (fdSize win64))
      onHeap fun h => h.transfer val buffer (fdSize win64)
      let v ← Lua.read fun w => w.heap.data val
      pure (some v)
  else Lua.raise

/-! ## Copies -/

/-- A state of the module in which nothing has been written out of bounds. -/
structure CleanWorld where
  world : World
  clean : world.heap.overrun = false

/-- The calls of the binding that copy strings. -/
inductive Copying
  | msgInitData (w : CleanWorld) (s : LuaString)
  | setData (m : OpenMessage) (pos : Option Int) (hpos : 1 ≤ pos.getD 1) (s : LuaString)
  | identityFd (w : CleanWorld) (win64 : Bool) (fd : Option (List UInt8)) (id : List UInt8)
    (hid : id.length ≤ 255)

/-- All copies of a call stay inside. -/
def InBounds {α : Type} (r : Ending World α) : Prop := Lua.Leaves (fun w => w.heap.overrun = false) r

def Copying.InBounds (env : Env) : Copying → Prop
  | .msgInitData w s => FfiMessage.InBounds (FfiMessage.new env (.str s) w.world)
  | .setData m pos _ s => FfiMessage.InBounds (FfiMessage.setData env m.i pos s m.world)
  | .identityFd w win64 fd id _ => FfiMessage.InBounds (zmqSktGetoptIdentityFd win64 fd id w.world)

/-- Without a buffer there is nothing to copy to. -/
def Copying.Fits (env : Env) : Copying → Prop
  | .msgInitData _ _ => env.alloc ≠ none
  | .setData m pos _ s =>
    wanted pos s ≤ m.world.heap.size m.own ∨
      (m.world.heap.size m.own < sizeT (wanted pos s) ∧ env.alloc ≠ none)
  | .identityFd _ _ _ id _ => id.length ≤ 254

section Copies

variable {env : Env}

theorem length_terminated (s : List UInt8) : (s ++ [0]).length = s.length + 1 := List.length_append

theorem sizeT_le {n : Int} (h : 0 ≤ n) : (sizeT n : Int) ≤ n := by
  rw [sizeT, BitVec.toNat_ofInt, Int.toNat_of_nonneg (Int.emod_nonneg _ (by decide))]
  omega

/-- A message as long as a string, and the string copied into it. -/
def stringHeap (h : Heap) (a : Nat) (junk : Nat → UInt8) (s : LuaString) : Heap :=
  (h.init a (uninit junk (sizeT s.bytes.length))).store a 0 (s.bytes ++ [0])

/-- It has no room for the zero. -/
theorem overrun_stringHeap (h : Heap) (a : Nat) (junk : Nat → UInt8) (s : LuaString) :
    (stringHeap h a junk s).overrun = true := by
  have hlt : (s.bytes.length : Int) < 2 ^ 64 := by have := s.fits; omega
  have hlen : sizeT s.bytes.length = s.bytes.length := by
    rw [sizeT_of_nonneg (by omega) hlt, Int.toNat_natCast]
  apply Heap.overrun_store_of_not
  rw [Heap.size, Heap.init, Heap.data_new, length_uninit, hlen, length_terminated]
  rintro ⟨-, hend⟩
  omega

theorem msgInitData_inBounds_iff (w : CleanWorld) (s : LuaString) :
    InBounds (FfiMessage.new env (.str s) w.world) ↔ env.alloc ≠ none := by
  cases halloc : env.alloc with
  | some e =>
    have habort : FfiMessage.new env (.str s) w.world = .abort := by
      show Lua.andThen (Lua.andThen (zmqMsgInitSize env none s.bytes.length w.world) _) _ = _
      rw [run_zmqMsgInitSize_new, run_zmqMsgInitSize_fails halloc]
      rfl
    rw [habort]
    exact iff_of_true trivial fun h => by cases h
  | none =>
    have hrun : FfiMessage.new env (.str s) w.world = wrap w.world.next
        { w.world with
          next := w.world.next + 1
          heap := stringHeap w.world.heap w.world.next env.junk s } := by
      show Lua.andThen (Lua.andThen (zmqMsgInitSize env none s.bytes.length w.world) _) _ = _
      rw [run_zmqMsgInitSize_new, run_zmqMsgInitSize_ok halloc]
      rfl
    rw [hrun]
    refine iff_of_false (fun h => ?_) fun h => h rfl
    exact Bool.noConfusion ((overrun_stringHeap _ _ _ _).symm.trans h)

/-- In place all is well; a new buffer is one byte too short. -/
theorem setData_inBounds_iff (m : OpenMessage) {pos : Option Int} (hpos : 1 ≤ pos.getD 1) (s : LuaString) :
    InBounds (FfiMessage.setData env m.i pos s m.world) ↔
      wanted pos s ≤ m.world.heap.size m.own ∨
        (m.world.heap.size m.own < sizeT (wanted pos s) ∧ env.alloc ≠ none) := by
  have hwanted : wanted pos s = pos.getD 1 + s.bytes.length - 1 := rfl
  have hle := sizeT_le (n := wanted pos s) (by omega)
  by_cases hsize : sizeT (wanted pos s) ≤ m.world.heap.size m.own
  · rw [run_setData_inPlace (by omega) m.isOpen hsize]
    -- unless the sum has wrapped around, there is room
    have hiff : Fits (m.world.heap.size m.own) (pos.getD 1 - 1) s.bytes.length ↔
        wanted pos s ≤ m.world.heap.size m.own :=
      ⟨fun h => by have := h.2; omega, fun h => ⟨by omega, by omega⟩⟩
    by_cases hfits : Fits (m.world.heap.size m.own) (pos.getD 1 - 1) s.bytes.length
    · exact iff_of_true ((Heap.overrun_store hfits).trans m.clean) (.inl (hiff.mp hfits))
    · refine iff_of_false (fun h => ?_) fun h => ?_
      · exact Bool.noConfusion ((Heap.overrun_store_of_not hfits).symm.trans h)
      · exact h.elim (fun h => hfits (hiff.mpr h)) fun h => Nat.not_lt.mpr hsize h.1
  · have hgrows := Nat.lt_of_not_le hsize
    cases halloc : env.alloc with
    | some e =>
      rw [run_setData_fails (by omega) m.isOpen hgrows halloc]
      exact iff_of_true m.clean (.inr ⟨hgrows, fun h => by cases h⟩)
    | none =>
      rw [run_setData_grows (by omega) m.isOpen hgrows halloc]
      refine iff_of_false (fun h => ?_) fun h => h.elim (fun h => by omega) fun h => h.2 rfl
      -- the zero comes right behind the new buffer
      have hfits : ¬ Fits (sizeT (wanted pos s)) (pos.getD 1 - 1) (s.bytes ++ [0]).length := by
        rw [length_terminated]
        rintro ⟨-, hend⟩
        omega
      rw [← size_built (w := m.world) env.junk] at hfits
      exact Bool.noConfusion ((Heap.overrun_store_of_not hfits).symm.trans h)

/-- The two buffers of `identity_fd`. -/
def buffers (h : Heap) (a : Nat) (win64 : Bool) : Heap :=
  (h.new a (List.replicate 255 0) false).new (a + 1) (List.replicate (fdSize win64) 0) false

/-- The identity in the first one. -/
def asked (h : Heap) (a : Nat) (win64 : Bool) (id : List UInt8) : Heap := (buffers h a win64).store a 0 (id ++ [0])

/-- The answer of libzmq, copied to the second one. -/
def answered (h : Heap) (a : Nat) (win64 : Bool) (fd : List UInt8) : Heap :=
  (h.store a 0 (fd.take (fdSize win64))).transfer (a + 1) a (fdSize win64)

section Buffers

variable {h : Heap} {a : Nat} {win64 : Bool}

theorem size_buffers : (buffers h a win64).size a = 255 ∧ (buffers h a win64).size (a + 1) = fdSize win64 := by
  constructor
  · rw [Heap.size, buffers, Heap.data_new_of_ne (Nat.succ_ne_self a).symm, Heap.data_new, List.length_replicate]
  · rw [Heap.size, buffers, Heap.data_new, List.length_replicate]

/-- There is room for 254 bytes and the zero. -/
theorem overrun_asked_iff (hclean : h.overrun = false) (id : List UInt8) :
    (asked h a win64 id).overrun = false ↔ id.length ≤ 254 := by
  have hfits : Fits ((buffers h a win64).size a) 0 (id ++ [0]).length ↔ id.length ≤ 254 := by
    rw [size_buffers.1, length_terminated]
    exact ⟨fun h => by have := h.2; omega, fun h => ⟨Int.le_refl 0, by omega⟩⟩
  by_cases hlen : id.length ≤ 254
  · exact iff_of_true ((Heap.overrun_store (hfits.mpr hlen)).trans hclean) hlen
  · refine iff_of_false (fun h => ?_) hlen
    exact Bool.noConfusion ((Heap.overrun_store_of_not fun h => hlen (hfits.mp h)).symm.trans h)

/-- What libzmq returns is copied inside of both buffers, whatever the identity has been. -/
theorem overrun_answered (id fd : List UInt8) :
    (answered (asked h a win64 id) a win64 fd).overrun = (asked h a win64 id).overrun := by
  have hsize : fdSize win64 ≤ 8 := by cases win64 <;> decide
  have htake : (fd.take (fdSize win64)).length ≤ fdSize win64 := List.length_take_le _ _
  have hbuffer : (asked h a win64 id).size a = 255 := (Heap.size_store _ _).trans size_buffers.1
  have hval : (asked h a win64 id).size (a + 1) = fdSize win64 := (Heap.size_store _ _).trans size_buffers.2
  rw [answered, Heap.overrun_transfer, Heap.overrun_store]
  · rw [hbuffer]
    exact ⟨Int.le_refl 0, by omega⟩
  · exact Nat.le_of_eq ((Heap.size_store _ _).trans hval).symm
  · rw [Heap.size_store, hbuffer]
    omega

end Buffers

theorem run_identityFd (win64 : Bool) (fd : Option (List UInt8)) {id : List UInt8} (hid : id.length ≤ 255)
    (w : World) : zmqSktGetoptIdentityFd win64 fd id w = match fd with
      | none => .ret none { w with next := w.next + 2, heap := asked w.heap w.next win64 id }
      | some fd => .ret (some ((answered (asked w.heap w.next win64 id) w.next win64 fd).data (w.next + 1)))
          { w with next := w.next + 2, heap := answered (asked w.heap w.next win64 id) w.next win64 fd } := by
  rw [zmqSktGetoptIdentityFd]
  refine (congrFun (if_pos hid) w).trans ?_
  cases fd with
  | none => rfl
  | some fd => rfl

theorem identityFd_inBounds_iff (w : CleanWorld) (win64 : Bool) (fd : Option (List UInt8)) {id : List UInt8}
    (hid : id.length ≤ 255) : InBounds (zmqSktGetoptIdentityFd win64 fd id w.world) ↔ id.length ≤ 254 := by
  have hiff := @overrun_asked_iff _ w.world.next win64 w.clean id
  rw [← hiff, run_identityFd win64 fd hid]
  cases fd with
  | none => exact Iff.rfl
  | some fd =>
    show (answered _ _ _ _).overrun = false ↔ _
    rw [overrun_answered]

end Copies

/-- **When copies stay inside.** -/
theorem copies_iff (env : Env) (c : Copying) : c.InBounds env ↔ c.Fits env := by
  cases c with
  | msgInitData w s => exact msgInitData_inBounds_iff w s
  | setData m pos hpos s => exact setData_inBounds_iff m hpos s
  | identityFd w win64 fd id hid => exact identityFd_inBounds_iff w win64 fd hid

/-- The module as it has been loaded. -/
def CleanWorld.start : CleanWorld := ⟨World.start, rfl⟩

/-- `zmq.msg_init_data("a")` writes two bytes into a message of one. -/
theorem msgInitData_overruns : ¬ (Copying.msgInitData .start ⟨[97], by decide⟩).InBounds .fine := fun h =>
  (msgInitData_inBounds_iff .start ⟨[97], by decide⟩).mp h rfl

end Lzmq.FfiMessage
