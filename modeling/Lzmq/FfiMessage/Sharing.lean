/-
  No two message objects share a zmq_msg_t.

  A zmq_msg_t that an object refers to is neither the one of another object nor `tmp_msg`.  This is kept
  although resizing hands zmq_msg_t's around: the object takes `tmp_msg`, and what it gives back has been
  its own.

  `Effect` says what a method can do to the zmq_msg_t's and to the objects.  The invariant, and that the other
  objects are left alone, both follow from it (`sharing`).
-/
import Lzmq.FfiMessage.Edit
import Mathlib.Data.List.GetD

namespace Lzmq.FfiMessage

open Lzmq.Buffer Lzmq.CMessage Lzmq.Messages

/-! ## Effects -/

/-- Only `S`, and what did not exist before, is written to. -/
structure Quiet (S : Nat → Prop) (w w' : World) : Prop where
  next : w.next ≤ w'.next
  tmp : w'.tmp = w.tmp
  msgs : w'.msgs = w.msgs
  part : ∀ a < w.next, ¬ S a → w'.heap.part a = w.heap.part a

/-- What has become of the objects after a method of object `i`. -/
inductive Refs (i : Nat) (w w' : World) : Prop
  | same (tmp : w'.tmp = w.tmp) (msgs : w'.msgs = w.msgs)
  | made (next : w.next < w'.next) (tmp : w'.tmp = w.tmp) (msgs : w'.msgs = w.msgs ++ [some w.next])
  | closed (tmp : w'.tmp = w.tmp) (msgs : w'.msgs = w.msgs.set i none)
  | swapped (msg : Option Nat) (own : w.struct i = some w'.tmp) (hmsg : msg = none ∨ msg = some w.tmp)
      (msgs : w'.msgs = w.msgs.set i msg)

/-- `S` are the zmq_msg_t's that the method is given. -/
structure Effect (i : Nat) (S : Nat → Prop) (w w' : World) : Prop where
  next : w.next ≤ w'.next
  part : ∀ a < w.next, a ≠ w.tmp → ¬ S a → w'.heap.part a = w.heap.part a
  refs : Refs i w w'

section Quiet

variable {S T : Nat → Prop} {w w' w'' : World}

theorem Quiet.refl (S : Nat → Prop) (w : World) : Quiet S w w := ⟨Nat.le_refl _, rfl, rfl, fun _ _ _ => rfl⟩

theorem Quiet.trans (h : Quiet S w w') (h' : Quiet S w' w'') : Quiet S w w'' where
  next := Nat.le_trans h.next h'.next
  tmp := h'.tmp.trans h.tmp
  msgs := h'.msgs.trans h.msgs
  part a ha hS := (h'.part a (Nat.lt_of_lt_of_le ha h.next) hS).trans (h.part a ha hS)

/-- What did not exist before does not count. -/
theorem Quiet.mono (h : Quiet S w w') (hS : ∀ a < w.next, S a → T a) : Quiet T w w' :=
  ⟨h.next, h.tmp, h.msgs, fun a ha hT => h.part a ha fun hSa => hT (hS a ha hSa)⟩

theorem Quiet.effect (h : Quiet S w w') (i : Nat) : Effect i S w w' :=
  ⟨h.next, fun a ha _ => h.part a ha, .same h.tmp h.msgs⟩

theorem quiet_heap {h : Heap} (hpart : ∀ a < w.next, ¬ S a → h.part a = w.heap.part a) :
    Quiet S w { w with heap := h } := ⟨Nat.le_refl _, rfl, rfl, hpart⟩

theorem quiet_errno (e : Nat) : Quiet S w { w with errno := e } := ⟨Nat.le_refl _, rfl, rfl, fun _ _ _ => rfl⟩

end Quiet

/-! ## The API -/

section Api

variable (env : Env) (w : World)

/-- A function of the API that gives a new zmq_msg_t, or none. -/
def Makes (w : World) (r : Ending World (Option Nat)) : Prop :=
  ∃ o w', r = .ret o w' ∧ Quiet (fun _ => False) w w' ∧ w.next < w'.next ∧ (o = none ∨ o = some w.next)

theorem makes_zmqMsgInit : Makes w (zmqMsgInit env w) := by
  rw [zmqMsgInit]
  cases hinit : env.init with
  | some e => exact ⟨none, _, rfl, ⟨Nat.le_succ _, rfl, rfl, fun _ _ _ => rfl⟩, Nat.lt_succ_self _, .inl rfl⟩
  | none =>
    refine ⟨some w.next, _, rfl, ⟨Nat.le_succ _, rfl, rfl, fun a ha _ => ?_⟩, Nat.lt_succ_self _, .inr rfl⟩
    exact Heap.part_new_of_ne (Nat.ne_of_lt ha)

theorem run_zmqMsgInitSize_new (len : Int) :
    zmqMsgInitSize env none len w = zmqMsgInitSize env (some w.next) len { w with next := w.next + 1 } := rfl

theorem makes_zmqMsgInitSize (len : Int) : Makes w (zmqMsgInitSize env none len w) := by
  rw [run_zmqMsgInitSize_new]
  cases halloc : env.alloc with
  | some e =>
    exact ⟨none, _, run_zmqMsgInitSize_fails halloc, ⟨Nat.le_succ _, rfl, rfl, fun _ _ _ => rfl⟩,
      Nat.lt_succ_self w.next, .inl rfl⟩
  | none =>
    refine ⟨some w.next, _, run_zmqMsgInitSize_ok halloc, ⟨Nat.le_succ _, rfl, rfl, fun a ha _ => ?_⟩,
      Nat.lt_succ_self w.next, .inr rfl⟩
    exact Heap.part_new_of_ne (Nat.ne_of_lt ha)

/-- Unless it is NULL, the new message gets its string. -/
theorem makes_zmqMsgInitString (s : LuaString) :
    zmqMsgInitString env s w = .abort ∨ Makes w (zmqMsgInitString env s w) := by
  obtain ⟨o, w', hrun, hquiet, hnext, ho⟩ := makes_zmqMsgInitSize env w s.bytes.length
  have hstring : zmqMsgInitString env s w = Lua.andThen (zmqMsgSetData o s.bytes w') fun _ => pure o := by
    rw [zmqMsgInitString, Lua.run_bind, hrun]
    rfl
  rw [hstring]
  cases o with
  | none => exact .inl rfl
  | some a => exact .inr ⟨some a, _, rfl, hquiet.trans (quiet_heap fun _ _ _ => rfl), hnext, ho⟩

/-- `zmq_msg_move` and `zmq_msg_copy` touch two zmq_msg_t's. -/
def TwoParts (f : Heap → Nat → Nat → Heap) : Prop := ∀ h d s a, a ≠ d → a ≠ s → (f h d s).part a = h.part a

theorem quiet_callMove {f : Heap → Nat → Nat → Heap} (hf : TwoParts f) (dest src : Nat) :
    ∃ b w', callMove env f dest src w = .ret b w' ∧ Quiet (fun a => a = dest ∨ a = src) w w' := by
  rcases callMove_cases env w f dest src with ⟨-, hrun⟩ | ⟨e, hrun⟩
  · refine ⟨true, _, hrun, quiet_heap fun a _ ha => ?_⟩
    exact hf _ _ _ _ (fun h => ha (.inl h)) fun h => ha (.inr h)
  · exact ⟨false, _, hrun, quiet_errno e⟩

theorem twoParts_move : TwoParts Heap.move := fun _ _ _ _ hd hs => Heap.part_move_of_ne hd hs

theorem twoParts_copy (limit : Nat) : TwoParts fun h => h.copy limit :=
  fun _ _ _ _ hd _ => Heap.part_copy_of_ne hd

/-- With a source the destination is returned, else a new message. -/
theorem quiet_getMsgCopy {f : Heap → Nat → Nat → Heap} (hf : TwoParts f) (dest : Nat) (src : Option Nat) :
    ∃ o w', getMsgCopy env f dest src w = .ret o w' ∧ Quiet (fun a => a = dest ∨ src = some a) w w' ∧
      (src = none → o = none ∨ (o = some w.next ∧ w.next < w'.next)) := by
  cases src with
  | some src =>
    obtain ⟨b, w', hrun, hquiet⟩ := quiet_callMove env w hf dest src
    refine ⟨if b then some dest else none, w', ?_, hquiet.mono fun a _ ha => ?_, fun h => by cases h⟩
    case refine_2 => exact ha.imp id fun h => congrArg some h.symm
    rw [getMsgCopy, Lua.run_bind, hrun]
    cases b <;> rfl
  | none =>
    obtain ⟨o, w', hrun, hquiet, hnext, ho⟩ := makes_zmqMsgInit env w
    cases o with
    | none =>
      refine ⟨none, w', ?_, hquiet.mono fun _ _ h => h.elim, fun _ => .inl rfl⟩
      rw [getMsgCopy, Lua.run_bind, hrun]
      rfl
    | some new =>
      obtain rfl : new = w.next := by rcases ho with ho | ho <;> cases ho; rfl
      obtain ⟨b, w'', hrun', hquiet'⟩ := quiet_callMove env w' hf w.next dest
      have hgo : getMsgCopy env f dest none w = Lua.andThen (.ret b w'') fun b =>
          (if b then pure (some w.next) else do
            onHeap fun h => h.close w.next
            pure none : Lua World (Option Nat)) := by
        rw [getMsgCopy, Lua.run_bind, hrun, Lua.andThen_ret, ← hrun']
        rfl
      -- the new zmq_msg_t did not exist before, so that it does not count
      have hall : Quiet (fun a => a = w.next ∨ a = dest) w w'' :=
        (hquiet.mono fun _ _ h => h.elim).trans hquiet'
      have hold : ∀ a < w.next, a = w.next ∨ a = dest → a = dest ∨ none = some a := fun a ha h =>
        h.elim (fun h => absurd h (Nat.ne_of_lt ha)) .inl
      cases b with
      | true =>
        have hgrows := Nat.lt_of_lt_of_le hnext hquiet'.next
        exact ⟨some w.next, w'', hgo, hall.mono hold, fun _ => .inr ⟨rfl, hgrows⟩⟩
      | false =>
        refine ⟨none, _, hgo, (hall.trans (quiet_heap fun a _ ha => ?_)).mono hold, fun _ => .inl rfl⟩
        exact Heap.part_close_of_ne fun h => ha (.inl h)

end Api

/-! ## The methods -/

/-- The zmq_msg_t's that are handed to a method. -/
def Operand.Touches (w : World) (a : Nat) : Operand → Prop
  | .none => False
  | .nil => False
  | .message j => w.struct j = some a
  | .raw b => a = b

def Op.Touches (w : World) (a : Nat) : Op → Prop
  | .new _ => False
  | .close i => w.struct i = some a
  | .edit i _ => w.struct i = some a
  | .move i msg => w.struct i = some a ∨ msg.Touches w a
  | .copy i msg => w.struct i = some a ∨ msg.Touches w a
  | .send i => w.struct i = some a
  | .recv i => w.struct i = some a

/-- The object whose method it is, or which it makes. -/
def Op.object (w : World) : Op → Nat
  | .new _ => w.msgs.length
  | .close i => i
  | .edit i _ => i
  | .move i _ => i
  | .copy i _ => i
  | .send i => i
  | .recv i => i

section Methods

variable {env : Env} {w : World} {i own : Nat}

/-- A new zmq_msg_t that is wrapped, or an error. -/
theorem effect_wrapped {S : Nat → Prop} {w' : World} {o : Option Nat} (hquiet : Quiet S w w')
    (ho : o = none ∨ (o = some w.next ∧ w.next < w'.next)) :
    Lua.Leaves (Effect i S w) (wrapped o w') := by
  rcases ho with rfl | ⟨rfl, hnext⟩
  · exact hquiet.effect i
  · refine ⟨hquiet.next, fun a ha _ => hquiet.part a ha, .made hnext hquiet.tmp ?_⟩
    exact congrArg (· ++ [some w.next]) hquiet.msgs

theorem effect_new (content : Content) :
    Lua.Leaves (Effect i (fun _ => False) w) (FfiMessage.new env content w) := by
  have hmakes : ∀ {x : Lua World (Option Nat)}, Makes w (x w) → Lua.Leaves (Effect i (fun _ => False) w)
      (Lua.andThen (x w) wrapped) := by
    rintro x ⟨o, w', hrun, hquiet, hnext, ho⟩
    rw [hrun]
    exact effect_wrapped hquiet (ho.imp id fun h => ⟨h, hnext⟩)
  cases content with
  | none => exact hmakes (makes_zmqMsgInit env w)
  | len n => exact hmakes (makes_zmqMsgInitSize env w n)
  | str s =>
    rcases makes_zmqMsgInitString env w s with habort | h
    · show Lua.Leaves _ (Lua.andThen (zmqMsgInitString env s w) _)
      rw [habort]
      trivial
    · exact hmakes h

theorem effect_close : Lua.Leaves (Effect i (w.struct i = some ·) w) (close i w) := by
  cases hown : w.struct i with
  | none =>
    rw [run_close_closed hown]
    exact (Quiet.refl _ w).effect i
  | some own =>
    rw [run_close_open hown]
    refine ⟨Nat.le_refl _, fun a _ _ ha => ?_, .closed rfl rfl⟩
    exact Heap.part_close_of_ne fun h => ha (congrArg some h.symm)

/-- The two zmq_msg_t's that `World.swapped` writes to. -/
theorem effect_swapped {h : Heap} {msg : Option Nat} {e : Nat} (hown : w.struct i = some own)
    (hpart : ∀ a, a ≠ w.tmp → h.part a = w.heap.part a) (hmsg : msg = none ∨ msg = some w.tmp) :
    Effect i (w.struct i = some ·) w (World.swapped { w with errno := e } i own h msg) := by
  refine ⟨Nat.le_refl _, fun a _ htmp ha => ?_, .swapped msg hown hmsg rfl⟩
  have hne : a ≠ own := fun h => ha (h ▸ hown)
  exact (Heap.part_close_of_ne hne).trans (hpart a htmp)

theorem effect_setSize (n : Int) : Lua.Leaves (Effect i (w.struct i = some ·) w) (setSize env i n w) := by
  cases hown : w.struct i with
  | none =>
    rw [run_setSize_closed hown]
    exact (Quiet.refl _ w).effect i
  | some own =>
    rw [← hown]
    by_cases hsize : sizeT n = w.heap.size own
    · rw [run_setSize_same hown hsize]
      exact (Quiet.refl _ w).effect i
    · cases halloc : env.alloc with
      | none =>
        rw [run_setSize_resizes hown hsize halloc]
        exact effect_swapped hown (fun a ha => part_built_of_ne _ ha) (.inr rfl)
      | some e =>
        rw [run_setSize_fails hown hsize halloc]
        by_cases hlen : 0 < keptSize (w.heap.size own) n
        · rw [if_pos hlen]
          trivial
        · rw [if_neg hlen]
          exact effect_swapped hown (fun a _ => rfl) (.inl rfl)

theorem effect_setData (pos : Option Int) (s : LuaString) :
    Lua.Leaves (Effect i (w.struct i = some ·) w) (setData env i pos s w) := by
  by_cases hpos : 0 < pos.getD 1
  · cases hown : w.struct i with
    | none =>
      rw [run_setData_closed hown]
      exact (Quiet.refl _ w).effect i
    | some own =>
      rw [← hown]
      by_cases hsize : sizeT (wanted pos s) ≤ w.heap.size own
      · rw [run_setData_inPlace hpos hown hsize]
        exact (quiet_heap (h := w.heap.store own (pos.getD 1 - 1) s.bytes) fun _ _ _ => rfl).effect i
      · have hgrows := Nat.lt_of_not_le hsize
        cases halloc : env.alloc with
        | some e =>
          rw [run_setData_fails hpos hown hgrows halloc]
          exact (quiet_errno e).effect i
        | none =>
          rw [run_setData_grows hpos hown hgrows halloc]
          exact effect_swapped hown (fun a ha => part_built_of_ne _ ha) (.inr rfl)
  · rw [run_setData_refused hpos]
    exact (Quiet.refl _ w).effect i

theorem effect_genMove {f : Heap → Nat → Nat → Heap} (hf : TwoParts f) (msg : Operand) :
    Lua.Leaves (Effect i (fun a => w.struct i = some a ∨ msg.Touches w a) w) (genMove env f i msg w) := by
  cases hown : w.struct i with
  | none =>
    rw [genMove, Lua.run_bind, run_checked_closed hown]
    exact (Quiet.refl _ w).effect i
  | some own =>
    rw [genMove, Lua.run_bind, run_checked hown, Lua.andThen_ret]
    have hsrc : ∀ src : Option Nat, (∀ a, src = some a → msg.Touches w a) →
        ∃ o w', getMsgCopy env f own src w = .ret o w' ∧
          Quiet (fun a => some own = some a ∨ msg.Touches w a) w w' ∧
          (src = none → o = none ∨ (o = some w.next ∧ w.next < w'.next)) := by
      intro src htouch
      obtain ⟨o, w', hrun, hquiet, hnew⟩ := quiet_getMsgCopy env w hf own src
      exact ⟨o, w', hrun, hquiet.mono fun a _ h => h.imp (fun h => congrArg some h.symm) (htouch a), hnew⟩
    cases msg with
    | nil => exact (Quiet.refl _ w).effect i
    | none =>
      obtain ⟨o, w', hrun, hquiet, hnew⟩ := hsrc none fun a h => by cases h
      show Lua.Leaves _ (Lua.andThen (getMsgCopy env f own none w) _)
      rw [hrun]
      exact effect_wrapped hquiet (hnew rfl)
    | message j =>
      obtain ⟨o, w', hrun, hquiet, -⟩ := hsrc (w.struct j) fun a h => h
      show Lua.Leaves _ (Lua.andThen (getMsgCopy env f own (w.struct j) w) _)
      rw [hrun]
      cases o with
      | none => exact hquiet.effect i
      | some a => exact hquiet.effect i
    | raw b =>
      obtain ⟨o, w', hrun, hquiet, -⟩ := hsrc (some b) fun a h => (Option.some.inj h).symm
      show Lua.Leaves _ (Lua.andThen (getMsgCopy env f own (some b) w) _)
      rw [hrun]
      cases o with
      | none => exact hquiet.effect i
      | some a => exact hquiet.effect i

theorem quiet_transmit (env : Env) (w : World) (own : Nat) : ∃ b w', transmit env own w = .ret b w' ∧
    Quiet (some own = some ·) w w' := by
  -- as far as others are concerned it does not matter what is left in the zmq_msg_t
  have hnew : Quiet (some own = some ·) w { w with heap := w.heap.new own env.left.1 env.left.2 } :=
    quiet_heap fun a _ ha => Heap.part_new_of_ne fun h => ha (congrArg some h.symm)
  cases hcall : env.call with
  | none => exact ⟨true, _, by rw [transmit, hcall]; rfl, hnew⟩
  | some e => exact ⟨false, _, by rw [transmit, hcall]; rfl, hnew.trans (quiet_errno e)⟩

/-- `send` and `recv`, which do nothing more than to look at the result. -/
theorem effect_transmitted {k : Nat → Bool → Lua World Reply} (hk : ∀ own b w', ∃ r, k own b w' = .ret r w') :
    Lua.Leaves (Effect i (w.struct i = some ·) w)
      ((checked i >>= fun own => transmit env own >>= k own) w) := by
  cases hown : w.struct i with
  | none =>
    rw [Lua.run_bind, run_checked_closed hown]
    exact (Quiet.refl _ w).effect i
  | some own =>
    obtain ⟨b, w', hrun, hquiet⟩ := quiet_transmit env w own
    obtain ⟨r, hr⟩ := hk own b w'
    rw [Lua.run_bind, run_checked hown, Lua.andThen_ret, Lua.run_bind, hrun, Lua.andThen_ret, hr]
    exact hquiet.effect i

theorem effect_send : Lua.Leaves (Effect i (w.struct i = some ·) w) (send env i w) := by
  apply effect_transmitted (k := fun _ b => if b then pure .pass else zerror)
  intro own b w'
  cases b with
  | true => exact ⟨_, rfl⟩
  | false => exact ⟨_, rfl⟩

theorem effect_recv : Lua.Leaves (Effect i (w.struct i = some ·) w) (recv env i w) := by
  apply effect_transmitted (k := fun own b => if b then do
      let more ← Lua.read fun w => w.heap.more own
      pure (.received i more)
    else zerror)
  intro own b w'
  cases b with
  | true => exact ⟨_, rfl⟩
  | false => exact ⟨_, rfl⟩

/-- **What a method can do.** -/
theorem effect_step {c : Op × Env} {w' : World} (h : step w c = some w') :
    Effect (c.1.object w) (c.1.Touches w ·) w w' := by
  obtain ⟨op, env⟩ := c
  refine Lua.of_leaves ?_ h
  cases op with
  | new content => exact effect_new content
  | close i => exact effect_close
  | edit i e =>
    cases e with
    | setData pos s => exact effect_setData pos s
    | setSize n => exact effect_setSize n
  | move i msg => exact effect_genMove twoParts_move msg
  | copy i msg => exact effect_genMove (twoParts_copy env.limit) msg
  | send i => exact effect_send
  | recv i => exact effect_recv

end Methods

/-! ## Ownership -/

/-- No zmq_msg_t has two owners, `tmp_msg` being one. -/
structure Inv (w : World) : Prop where
  tmp : w.tmp < w.next
  old : ∀ k a, w.struct k = some a → a < w.next
  scratch : ∀ k, w.struct k ≠ some w.tmp
  apart : ∀ k l a, w.struct k = some a → w.struct l = some a → k = l

/-- Whether an operation is one of the object `k`, or its operand is. -/
def Operand.Names (w : World) (k : Nat) : Operand → Prop
  | .none => False
  | .nil => False
  | .message j => k = j
  | .raw b => w.struct k = some b

def Op.Names (w : World) (k : Nat) : Op → Prop
  | .new _ => False
  | .close i => k = i
  | .edit i _ => k = i
  | .move i msg => k = i ∨ msg.Names w k
  | .copy i msg => k = i ∨ msg.Names w k
  | .send i => k = i
  | .recv i => k = i

section Ownership

variable {w w' : World} {i : Nat}

theorem struct_set_of_ne {msg : Option Nat} (h : w'.msgs = w.msgs.set i msg) {k : Nat} (hk : k ≠ i) :
    w'.struct k = w.struct k := by
  rw [World.struct, World.struct, h, List.getD_eq_getElem?_getD, List.getD_eq_getElem?_getD,
    List.getElem?_set_ne hk.symm]

theorem struct_set {msg : Option Nat} (h : w'.msgs = w.msgs.set i msg) {k a : Nat}
    (hk : w'.struct k = some a) :
    (k = i ∧ msg = some a) ∨ (k ≠ i ∧ w.struct k = some a) := by
  by_cases hki : k = i
  · have hlt := struct_lt hk
    rw [h, List.length_set] at hlt
    rw [World.struct, h, List.getD_eq_getElem?_getD, hki, List.getElem?_set_self (hki ▸ hlt),
      Option.getD_some] at hk
    exact .inl ⟨hki, hk⟩
  · rw [struct_set_of_ne h hki] at hk
    exact .inr ⟨hki, hk⟩

theorem struct_append_of_some {b : Option Nat} (h : w'.msgs = w.msgs ++ [b]) {k a : Nat}
    (hk : w.struct k = some a) : w'.struct k = some a := by
  rw [World.struct, h, List.getD_append _ _ _ _ (struct_lt hk)]
  exact hk

theorem struct_append {b : Nat} (h : w'.msgs = w.msgs ++ [some b]) {k a : Nat} (hk : w'.struct k = some a) :
    (k = w.msgs.length ∧ a = b) ∨ w.struct k = some a := by
  have hlt := struct_lt hk
  rw [h, List.length_append, List.length_singleton] at hlt
  by_cases hkl : k = w.msgs.length
  · rw [World.struct, h, List.getD_append_right _ _ _ _ (by omega), hkl, Nat.sub_self] at hk
    exact .inl ⟨hkl, (Option.some.inj hk).symm⟩
  · rw [World.struct, h, List.getD_append _ _ _ _ (by omega)] at hk
    exact .inr hk

theorem struct_congr (h : w'.msgs = w.msgs) (k : Nat) : w'.struct k = w.struct k := by
  rw [World.struct, World.struct, h]

theorem Inv.same (hinv : Inv w) (hnext : w.next ≤ w'.next) (htmp : w'.tmp = w.tmp) (hmsgs : w'.msgs = w.msgs) :
    Inv w' := by
  have hsame := struct_congr hmsgs
  have hlt := hinv.tmp
  refine ⟨by omega, fun k a hk => ?_, fun k => ?_, fun k l a hk hl => ?_⟩
  · exact Nat.lt_of_lt_of_le (hinv.old k a (hsame k ▸ hk)) hnext
  · rw [hsame, htmp]
    exact hinv.scratch k
  · exact hinv.apart k l a (hsame k ▸ hk) (hsame l ▸ hl)

/-- A new object has a new zmq_msg_t. -/
theorem Inv.made (hinv : Inv w) (hgrows : w.next < w'.next) (htmp : w'.tmp = w.tmp)
    (hmsgs : w'.msgs = w.msgs ++ [some w.next]) : Inv w' := by
  have hlt := hinv.tmp
  refine ⟨by omega, fun k a hk => ?_, fun k hk => ?_, fun k l a hk hl => ?_⟩
  · rcases struct_append hmsgs hk with ⟨-, rfl⟩ | hk
    · exact hgrows
    · exact Nat.lt_trans (hinv.old k a hk) hgrows
  · rw [htmp] at hk
    rcases struct_append hmsgs hk with ⟨-, heq⟩ | hk
    · omega
    · exact hinv.scratch k hk
  · rcases struct_append hmsgs hk with ⟨hkl, ha⟩ | hk
    · rcases struct_append hmsgs hl with ⟨hll, -⟩ | hl
      · exact hkl.trans hll.symm
      · have := hinv.old l a hl
        omega
    · rcases struct_append hmsgs hl with ⟨-, ha⟩ | hl
      · have := hinv.old k a hk
        omega
      · exact hinv.apart k l a hk hl

theorem Inv.closed (hinv : Inv w) (hnext : w.next ≤ w'.next) (htmp : w'.tmp = w.tmp)
    (hmsgs : w'.msgs = w.msgs.set i none) : Inv w' := by
  have hlt := hinv.tmp
  have hrest : ∀ {k a}, w'.struct k = some a → w.struct k = some a := fun hk =>
    (struct_set hmsgs hk).elim (fun h => by cases h.2) And.right
  refine ⟨by omega, fun k a hk => ?_, fun k hk => ?_, fun k l a hk hl => ?_⟩
  · exact Nat.lt_of_lt_of_le (hinv.old k a (hrest hk)) hnext
  · rw [htmp] at hk
    exact hinv.scratch k (hrest hk)
  · exact hinv.apart k l a (hrest hk) (hrest hl)

/-- The object has at most the former `tmp_msg`, which no other one has, and `tmp_msg` is what it has had. -/
theorem Inv.swapped (hinv : Inv w) (hnext : w.next ≤ w'.next) {msg : Option Nat}
    (hown : w.struct i = some w'.tmp) (hmsg : msg = none ∨ msg = some w.tmp)
    (hmsgs : w'.msgs = w.msgs.set i msg) : Inv w' := by
  have hlt := hinv.tmp
  have hold := hinv.old i _ hown
  have hself : ∀ {a}, msg = some a → a = w.tmp := fun ha => by
    rcases hmsg with h | h
    · rw [h] at ha
      cases ha
    · rw [h] at ha
      exact (Option.some.inj ha).symm
  have hothers : ∀ {k a}, w.struct k = some a → a ≠ w.tmp := fun hk ha => hinv.scratch _ (ha ▸ hk)
  refine ⟨by omega, fun k a hk => ?_, fun k hk => ?_, fun k l a hk hl => ?_⟩
  · rcases struct_set hmsgs hk with ⟨-, ha⟩ | ⟨-, hk⟩
    · rw [hself ha]
      omega
    · exact Nat.lt_of_lt_of_le (hinv.old k a hk) hnext
  · rcases struct_set hmsgs hk with ⟨-, ha⟩ | ⟨hki, hk⟩
    · exact hothers hown (hself ha)
    · exact hki (hinv.apart k i _ hk hown)
  · rcases struct_set hmsgs hk with ⟨hki, ha⟩ | ⟨-, hk⟩
    · rcases struct_set hmsgs hl with ⟨hli, -⟩ | ⟨-, hl⟩
      · exact hki.trans hli.symm
      · exact absurd (hself ha) (hothers hl)
    · rcases struct_set hmsgs hl with ⟨-, ha⟩ | ⟨-, hl⟩
      · exact absurd (hself ha) (hothers hk)
      · exact hinv.apart k l a hk hl

/-- **Step lemma.** -/
theorem Inv.of_effect {S : Nat → Prop} (hinv : Inv w) (h : Effect i S w w') : Inv w' := by
  cases h.refs with
  | same htmp hmsgs => exact hinv.same h.next htmp hmsgs
  | made hgrows htmp hmsgs => exact hinv.made hgrows htmp hmsgs
  | closed htmp hmsgs => exact hinv.closed h.next htmp hmsgs
  | swapped msg hown hmsg hmsgs => exact hinv.swapped h.next hown hmsg hmsgs

theorem inv_start : Inv World.start where
  tmp := Nat.zero_lt_one
  old k a hk := by cases hk
  scratch k hk := by cases hk
  apart k l a hk := by cases hk

/-- **Run lemma.** -/
theorem inv_run {cs : List (Op × Env)} (h : Steps.run step World.start cs = some w) : Inv w :=
  Steps.run_invariant step (fun _ _ _ hinv hstep => hinv.of_effect (effect_step hstep)) cs _ _ inv_start h

/-- Only objects that are named lose or share what they have. -/
theorem names_of_touches (hinv : Inv w) {op : Op} {k a : Nat} (hk : w.struct k = some a)
    (h : op.Touches w a) :
    op.Names w k := by
  have hown : ∀ {i}, w.struct i = some a → k = i := fun hi => hinv.apart k _ a hk hi
  have hmsg : ∀ {msg : Operand}, msg.Touches w a → msg.Names w k := fun {msg} h => by
    cases msg with
    | none => exact h
    | nil => exact h
    | message j => exact hown h
    | raw b => exact (show a = b from h) ▸ hk
  cases op with
  | new content => exact h
  | close i => exact hown h
  | edit i e => exact hown h
  | move i msg => exact h.imp hown hmsg
  | copy i msg => exact h.imp hown hmsg
  | send i => exact hown h
  | recv i => exact hown h

theorem ne_object {op : Op} {k a : Nat} (hk : w.struct k = some a) (h : ¬ op.Names w k) :
    k ≠ op.object w := by
  cases op with
  | new content => exact Nat.ne_of_lt (struct_lt hk)
  | close i => exact h
  | edit i e => exact h
  | move i msg => exact fun hk => h (.inl hk)
  | copy i msg => exact fun hk => h (.inl hk)
  | send i => exact h
  | recv i => exact h

/-- Other objects keep what they have, as it is. -/
theorem frame {S : Nat → Prop} (hinv : Inv w) (h : Effect i S w w') {k a : Nat} (hk : w.struct k = some a)
    (hki : k ≠ i) (hS : ¬ S a) : w'.struct k = some a ∧ w'.heap.part a = w.heap.part a := by
  refine ⟨?_, h.part a (hinv.old k a hk) (fun ha => hinv.scratch k (ha ▸ hk)) hS⟩
  cases h.refs with
  | same htmp hmsgs => exact (struct_congr hmsgs k).trans hk
  | made hgrows htmp hmsgs => exact struct_append_of_some hmsgs hk
  | closed htmp hmsgs => exact (struct_set_of_ne hmsgs hki).trans hk
  | swapped msg hown hmsg hmsgs => exact (struct_set_of_ne hmsgs hki).trans hk

end Ownership

/-- A message object that is open, in any state of the module; nothing has been written out of bounds. -/
structure OpenMessage where
  world : World
  i : Nat
  own : Nat
  isOpen : world.struct i = some own
  inv : Inv world
  clean : world.heap.overrun = false

/-- **FFI messages never share storage.**  In every run open objects have their own zmq_msg_t's, `tmp_msg` is
    none of them, and a method leaves the zmq_msg_t of every object alone that it is not about. -/
theorem sharing (cs : List (Op × Env)) (w : World) (h : Steps.run step World.start cs = some w) :
    (∀ k l a, w.struct k = some a → w.struct l = some a → k = l) ∧
    (∀ k, w.struct k ≠ some w.tmp) ∧
    ∀ c w', step w c = some w' → ∀ k a, ¬ c.1.Names w k → w.struct k = some a →
      w'.struct k = some a ∧ w'.heap.part a = w.heap.part a := by
  have hinv := inv_run h
  refine ⟨hinv.apart, hinv.scratch, fun c w' hstep k a hnames hk => ?_⟩
  exact frame hinv (effect_step hstep) hk (ne_object hk hnames) fun htouch =>
    hnames (names_of_touches hinv hk htouch)

/-- Everything succeeds. -/
def Env.fine : Env := ⟨none, none, none, fun _ => 0, 0, ([], false)⟩

/-- Two messages, the first of which gets another size. -/
def resizing : List (Op × Env) := [(.new .none, .fine), (.new .none, .fine), (.edit 0 (.setSize 1), .fine)]

/-- The former `tmp_msg` has an owner now. -/
theorem sharing_resized : ∃ w, Steps.run step World.start resizing = some w ∧
    (w.struct 0, w.struct 1, w.tmp) = (some 0, some 2, 1) ∧ ∀ k, w.struct k ≠ some w.tmp := by
  obtain ⟨w, hrun⟩ : ∃ w, Steps.run step World.start resizing = some w := ⟨_, rfl⟩
  exact ⟨w, hrun, Steps.run_shows step (f := fun w => (w.struct 0, w.struct 1, w.tmp)) hrun rfl,
    (sharing resizing w hrun).2.1⟩

end Lzmq.FfiMessage
