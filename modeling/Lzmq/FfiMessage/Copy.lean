/-
  What a call on one message object of the FFI binding does to another one.

  As in the C binding, an edit in place writes into a buffer that a copy may share, and every other call
  leaves it to the copy.  A `set_size` that gets no buffer crashes when there are bytes to be kept.
-/
import Lzmq.CMessage.Copy
import Lzmq.FfiMessage.Sharing

namespace Lzmq.FfiMessage

open Lzmq.Buffer Lzmq.CMessage Lzmq.Messages

/-! ## Calls -/

/-- The method that is called. -/
def changeOp (i : Nat) : Change Int → Op
  | .edit e => .edit i e
  | .close => .close i

def changeStep (i : Nat) (w : World) (c : Change Int × Env) : Option World := step w (changeOp i c.1, c.2)

/-- A call that writes `s` into the buffer that the message has, which is `own`. -/
structure InPlace (i : Nat) (w : World) (c : Change Int) (own : Nat) (pos : Option Int) (s : LuaString) :
    Prop where
  call : c = .edit (.setData pos s)
  struct : w.struct i = some own
  start : 0 < pos.getD 1
  fits : sizeT (wanted pos s) ≤ w.heap.size own

/-- A call that does so although object `j` has the same buffer, with other bytes there. -/
def Overwrites (i j : Nat) (w : World) (c : Change Int) : Prop :=
  ∃ own pos s b, InPlace i w c own pos s ∧ w.struct j = some b ∧
    w.heap.Disturbs own b (pos.getD 1 - 1) s.bytes

/-- A call that gets no buffer, and then copies old bytes to NULL. -/
def Crashes (i : Nat) (w : World) (c : Change Int × Env) : Prop :=
  ∃ n own, c.1 = .edit (.setSize n) ∧ c.2.alloc ≠ none ∧ w.struct i = some own ∧
    sizeT n ≠ w.heap.size own ∧ 0 < keptSize (w.heap.size own) n

/-- Two objects have different buffers. -/
def Separate (i j : Nat) (w : World) : Prop :=
  ∀ own b, w.struct i = some own → w.struct j = some b → w.heap.Apart own b

/-! ## What another object sees -/

section Built

variable {w : World} {own b : Nat} {size len : Int}

/-- The message that is built anew has a buffer of its own. -/
theorem apart_built (junk : Nat → UInt8) (hb : b ≠ w.tmp) : (built w junk own size len).Apart w.tmp b := by
  have hnew : (w.heap.init w.tmp (uninit junk (sizeT size))).Apart w.tmp b := Heap.apart_new hb
  exact hnew.of_part (by rw [part_built]) (by rw [part_built])

theorem data_built_of_ne (junk : Nat → UInt8) (hb : b ≠ w.tmp) :
    (built w junk own size len).data b = w.heap.data b := by
  have hnew : (w.heap.init w.tmp (uninit junk (sizeT size))).Apart w.tmp b := Heap.apart_new hb
  rw [built]
  by_cases hlen : 0 < len
  · rw [if_pos hlen, Heap.data_transfer_of_apart hnew]
    exact Heap.data_new_of_ne hb
  · rw [if_neg hlen]
    exact Heap.data_new_of_ne hb

end Built

/-- Object `j` has its bytes, and has not come to share a buffer with `i`; `b` is its zmq_msg_t. -/
structure Kept (i j b : Nat) (w w' : World) : Prop where
  data : w'.heap.data b = w.heap.data b
  separate : Separate i j w → Separate i j w'

section Others

variable {w w' : World} {i j own b : Nat} {env : Env}

theorem Kept.refl (i j b : Nat) (w : World) : Kept i j b w w := ⟨rfl, id⟩

theorem kept_errno (i j b : Nat) (w : World) (e : Nat) : Kept i j b w { w with errno := e } := ⟨rfl, id⟩

/-- An object without a message shares nothing. -/
theorem separate_of_closed (hclosed : w.struct i = none) : Separate i j w := by
  intro own b hown _
  rw [hclosed] at hown
  cases hown

/-- The object has taken what has been built. -/
theorem kept_swapped (hb : w.struct j = some b) (hij : j ≠ i) (hown : w.struct i = some own)
    (hinv : Inv w) {g : Heap} (hdata : g.data b = w.heap.data b)
    (hapart : g.Apart w.tmp b) : Kept i j b w (w.swapped i own g (some w.tmp)) := by
  have htmp : w.tmp ≠ own := fun heq => hinv.scratch i (heq ▸ hown)
  have hne : b ≠ own := fun heq => hij (hinv.apart j i b hb (heq ▸ hown))
  refine ⟨(Heap.data_close_of_ne hne).trans hdata, fun _ a b' ha hb' => ?_⟩
  have hself : (w.swapped i own g (some w.tmp)).struct i = some w.tmp := struct_swapped hown
  have hother : (w.swapped i own g (some w.tmp)).struct j = some b := (struct_set_of_ne rfl hij).trans hb
  obtain rfl : w.tmp = a := Option.some.inj (hself.symm.trans ha)
  obtain rfl : b = b' := Option.some.inj (hother.symm.trans hb')
  exact hapart.of_part (Heap.part_close_of_ne htmp) (Heap.part_close_of_ne hne)

theorem struct_set_none {h : Heap} (hown : w.struct i = some own) :
    World.struct { w with heap := h, msgs := w.msgs.set i none } i = none := struct_swapped (h := h) hown

theorem step_inPlace (env : Env) {c : Change Int} {pos : Option Int} {s : LuaString} (hin : InPlace i w c own pos s) :
    changeStep i w (c, env) = some { w with heap := w.heap.store own (pos.getD 1 - 1) s.bytes } := by
  obtain ⟨rfl, hown, hpos, hsize⟩ := hin
  exact Lua.after_of (.inl ⟨_, run_setData_inPlace hpos hown hsize⟩)

theorem step_crashes {c : Change Int × Env} (hcrash : Crashes i w c) : changeStep i w c = none := by
  obtain ⟨c, env⟩ := c
  obtain ⟨n, own, rfl, halloc, hown, hsize, hlen⟩ := hcrash
  obtain ⟨err, halloc⟩ := Option.ne_none_iff_exists'.mp halloc
  have hrun := run_setSize_fails hown hsize halloc
  rw [if_pos hlen] at hrun
  exact Lua.after_abort hrun

theorem step_setData_kept (hinv : Inv w) (hij : j ≠ i) (hb : w.struct j = some b) (hown : w.struct i = some own)
    {pos : Option Int} {s : LuaString} (hnot : ¬ InPlace i w (.edit (.setData pos s)) own pos s) :
    ∃ w', changeStep i w (.edit (.setData pos s), env) = some w' ∧ Kept i j b w w' := by
  have htmp : b ≠ w.tmp := fun heq => hinv.scratch j (heq ▸ hb)
  by_cases hpos : 0 < pos.getD 1
  · have hgrows : w.heap.size own < sizeT (wanted pos s) :=
      Nat.lt_of_not_le fun hle => hnot ⟨rfl, hown, hpos, hle⟩
    cases halloc : env.alloc with
    | some e =>
      exact ⟨_, Lua.after_of (.inl ⟨_, run_setData_fails hpos hown hgrows halloc⟩), kept_errno i j b w e⟩
    | none =>
      have hapart : (built w env.junk own (wanted pos s) (keptData (w.heap.size own) (pos.getD 1))).Apart
        w.tmp b := apart_built env.junk htmp
      refine ⟨_, Lua.after_of (.inl ⟨_, run_setData_grows hpos hown hgrows halloc⟩), ?_⟩
      apply kept_swapped hb hij hown hinv
      · exact (Heap.data_store_of_apart hapart _ _).trans (data_built_of_ne env.junk htmp)
      · exact hapart
  · exact ⟨w, Lua.after_of (.inr (run_setData_refused hpos s)), .refl i j b w⟩

theorem step_setSize_kept (hinv : Inv w) (hij : j ≠ i) (hb : w.struct j = some b) (hown : w.struct i = some own)
    {n : Int} (hcrash : ¬ Crashes i w (.edit (.setSize n), env)) :
    ∃ w', changeStep i w (.edit (.setSize n), env) = some w' ∧ Kept i j b w w' := by
  have htmp : b ≠ w.tmp := fun heq => hinv.scratch j (heq ▸ hb)
  have hne : b ≠ own := fun heq => hij (hinv.apart j i b hb (heq ▸ hown))
  by_cases hsize : sizeT n = w.heap.size own
  · exact ⟨w, Lua.after_of (.inl ⟨_, run_setSize_same hown hsize⟩), .refl i j b w⟩
  · cases halloc : env.alloc with
    | none =>
      refine ⟨_, Lua.after_of (.inl ⟨_, run_setSize_resizes hown hsize halloc⟩), ?_⟩
      apply kept_swapped hb hij hown hinv
      · exact data_built_of_ne env.junk htmp
      · exact apart_built env.junk htmp
    | some e =>
      -- nothing is to be kept, and the object is closed
      have hfails : env.alloc ≠ none := by rw [halloc]; exact Option.some_ne_none e
      have hrun := run_setSize_fails hown hsize halloc
      rw [if_neg fun hlen => hcrash ⟨n, own, rfl, hfails, hown, hsize, hlen⟩] at hrun
      have hown' : World.struct { w with errno := e } i = some own := hown
      refine ⟨_, Lua.after_of (.inl ⟨_, hrun⟩), Heap.data_close_of_ne hne, fun _ => ?_⟩
      exact separate_of_closed (struct_swapped hown')

/-- A call that neither writes into the buffer nor crashes leaves all other objects alone. -/
theorem step_kept (hinv : Inv w) (hij : j ≠ i) (hb : w.struct j = some b) {c : Change Int}
    (hnot : ∀ own pos s, ¬ InPlace i w c own pos s) (hcrash : ¬ Crashes i w (c, env)) :
    ∃ w', changeStep i w (c, env) = some w' ∧ Kept i j b w w' := by
  cases hown : w.struct i with
  | none =>
    match c with
    | .edit (.setData pos s) => exact ⟨w, Lua.after_of (.inr (run_setData_closed hown s)), .refl i j b w⟩
    | .edit (.setSize n) => exact ⟨w, Lua.after_of (.inr (run_setSize_closed hown n)), .refl i j b w⟩
    | .close => exact ⟨w, Lua.after_of (.inl ⟨_, run_close_closed hown⟩), .refl i j b w⟩
  | some own =>
    match c with
    | .edit (.setData pos s) => exact step_setData_kept hinv hij hb hown (hnot own pos s)
    | .edit (.setSize n) => exact step_setSize_kept hinv hij hb hown hcrash
    | .close =>
      have hne : b ≠ own := fun heq => hij (hinv.apart j i b hb (heq ▸ hown))
      refine ⟨_, Lua.after_of (.inl ⟨_, run_close_open hown⟩), Heap.data_close_of_ne hne, fun _ => ?_⟩
      exact separate_of_closed (struct_set_none hown)

/-- The other object has what it has had, as with all methods. -/
theorem frame_change (hinv : Inv w) (hij : j ≠ i) (hb : w.struct j = some b) {c : Change Int × Env}
    (hstep : changeStep i w c = some w') : Inv w' ∧ w'.struct j = some b := by
  have heffect := effect_step hstep
  have hother : ¬ w.struct i = some b := fun hi => hij (hinv.apart j i b hb hi)
  refine ⟨hinv.of_effect heffect, ?_⟩
  match c with
  | (.edit e, env) => exact (frame hinv heffect hb hij hother).1
  | (.close, env) => exact (frame hinv heffect hb hij hother).1

/-- **A call and another object.**  Unless the call crashes, the other one stays separate, and it keeps its
    bytes iff they are not overwritten. -/
theorem step_change (hinv : Inv w) (hij : j ≠ i) (hb : w.struct j = some b) (c : Change Int × Env)
    (hcrash : ¬ Crashes i w c) : ∃ w', changeStep i w c = some w' ∧ Inv w' ∧ w'.struct j = some b ∧
      (Separate i j w → Separate i j w') ∧
      (w'.heap.data b = w.heap.data b ↔ ¬ Overwrites i j w c.1) := by
  obtain ⟨c, env⟩ := c
  by_cases hin : ∃ own pos s, InPlace i w c own pos s
  · obtain ⟨own, pos, s, hin⟩ := hin
    have hstep := step_inPlace env hin
    obtain ⟨hinv', hb'⟩ := frame_change hinv hij hb hstep
    refine ⟨_, hstep, hinv', hb', id, (Heap.data_store_iff _ _).trans ?_⟩
    apply not_congr
    constructor
    · intro hdist
      exact ⟨own, pos, s, b, hin, hb, hdist⟩
    · rintro ⟨own', pos', s', b', hin', hb', hdist⟩
      cases hin.call.symm.trans hin'.call
      cases hin.struct.symm.trans hin'.struct
      cases hb.symm.trans hb'
      exact hdist
  · obtain ⟨w', hstep, hkept⟩ := step_kept hinv hij hb (fun own pos s h => hin ⟨own, pos, s, h⟩) hcrash
    obtain ⟨hinv', hb'⟩ := frame_change hinv hij hb hstep
    refine ⟨w', hstep, hinv', hb', hkept.separate, iff_of_true hkept.data ?_⟩
    rintro ⟨own, pos, s, b', hpos, -⟩
    exact hin ⟨own, pos, s, hpos⟩

end Others

/-! ## A copy that has been made -/

section Copied

variable {env : Env} {w w' : World} {f : Heap → Nat → Nat → Heap}

theorem of_getMsgCopy_some {dest src a : Nat} (h : getMsgCopy env f dest (some src) w = .ret (some a) w') :
    w.heap.isOpen src = true ∧ w' = { w with heap := f w.heap dest src } := by
  obtain ⟨b, u, hmove, hrest⟩ := Lua.of_bind_ret h
  rcases callMove_cases env w f dest src with ⟨hopen, hrun⟩ | ⟨e, hrun⟩
  · rw [hrun] at hmove
    cases hmove
    cases hrest
    exact ⟨hopen, rfl⟩
  · rw [hrun] at hmove
    cases hmove
    cases hrest

/-- Without a source a new zmq_msg_t is the destination. -/
theorem of_getMsgCopy_none {dest a : Nat} (h : getMsgCopy env f dest none w = .ret (some a) w') :
    a = w.next ∧ (w.heap.init w.next []).isOpen dest = true ∧
      w' = { w with heap := f (w.heap.init w.next []) w.next dest, next := w.next + 1 } := by
  obtain ⟨o, u, hinit, hrest⟩ := Lua.of_bind_ret h
  cases henv : env.init with
  | some e =>
    rw [zmqMsgInit, henv] at hinit
    cases hinit
    cases hrest
  | none =>
    rw [zmqMsgInit, henv] at hinit
    cases hinit
    obtain ⟨b, v, hmove, hrest⟩ := Lua.of_bind_ret hrest
    rcases callMove_cases env { w with heap := w.heap.init w.next [], next := w.next + 1 } f w.next dest with
      ⟨hopen, hrun⟩ | ⟨e, hrun⟩
    · cases hrun.symm.trans hmove
      cases hrest
      exact ⟨rfl, hopen, rfl⟩
    · cases hrun.symm.trans hmove
      cases hrest

variable {i j k : Nat}

/-- `dst:copy(src)` of an open source has returned a message. -/
theorem of_copy_message {s : Nat} (hsrc : w.struct j = some s)
    (h : copy env i (.message j) w = .ret (.message k) w') :
    ∃ own, w.struct i = some own ∧ k = i ∧ w.heap.isOpen s = true ∧
      w' = { w with heap := w.heap.copy env.limit own s } := by
  obtain ⟨own, hown, h⟩ := of_checked h
  obtain ⟨src, u, hread, h⟩ := Lua.of_bind_ret h
  obtain ⟨rfl, rfl⟩ : src = some s ∧ w = u := by
    cases hread
    exact ⟨hsrc, rfl⟩
  obtain ⟨o, u, hget, h⟩ := Lua.of_bind_ret h
  cases o with
  | none => cases h
  | some a =>
    cases h
    obtain ⟨hopen, hu⟩ := of_getMsgCopy_some hget
    exact ⟨own, hown, rfl, hopen, hu⟩

/-- `src:copy()` has returned a message. -/
theorem of_copy_none (h : copy env i .none w = .ret (.message k) w') :
    ∃ own, w.struct i = some own ∧ k = w.msgs.length ∧ (w.heap.init w.next []).isOpen own = true ∧
      w' = { w with
        heap := (w.heap.init w.next []).copy env.limit w.next own
        next := w.next + 1
        msgs := w.msgs ++ [some w.next] } := by
  obtain ⟨own, hown, h⟩ := of_checked h
  obtain ⟨o, u, hget, h⟩ := Lua.of_bind_ret h
  cases o with
  | none => cases h
  | some a =>
    cases h
    obtain ⟨rfl, hopen, rfl⟩ := of_getMsgCopy_none hget
    exact ⟨own, hown, rfl, hopen, rfl⟩

end Copied

end Lzmq.FfiMessage
