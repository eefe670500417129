/-
  Copied messages, in both bindings.

  After `dst:copy(src)` or `src:copy()` there are two messages with the same bytes, and calls on one of them
  are to be of no consequence for the other one.  For a message that libzmq keeps in its zmq_msg_t this is so
  (`small_copies`).  A larger one has a buffer that both messages use from then on, until one of them is
  replaced or closed; a `set_data` that stays within the size writes into it.

  So the copy is independent iff no call overwrites the shared bytes with other ones, and no call crashes
  (`copy_independent_iff`).
-/
import Lzmq.CMessage.Copy
import Lzmq.FfiMessage.Copy

namespace Lzmq.Messages

open Lzmq.CMessage (Change LuaString addr)
open Lzmq.FfiMessage (World Inv)

/-- `msg:size()` and `msg:data()` answer the same in two states. -/
structure SameContents {S : Type} (size : Lua S Nat) (data : Lua S (List UInt8)) (s s' : S) : Prop where
  size : Lua.SameAnswer size s s'
  data : Lua.SameAnswer data s s'

/-- Of two messages one is the copy, and calls are made on one of them. -/
structure Roles (dst src edited other : Nat) : Prop where
  two : dst ≠ src
  pair : (edited = dst ∧ other = src) ∨ (edited = src ∧ other = dst)

theorem Roles.ne {dst src edited other : Nat} (h : Roles dst src edited other) : other ≠ edited := by
  rcases h.pair with ⟨rfl, rfl⟩ | ⟨rfl, rfl⟩
  · exact h.two.symm
  · exact h.two

/-! ## The C binding -/

section C

/-- A call of the C binding that has made a copy. -/
structure CCopied where
  env : CMessage.CopyEnv
  before : Heap
  first : Nat
  second : Option Nat
  dst : Nat
  after : Heap
  copied : CMessage.luazmqMsgCopy env first second before = .ret (.message dst) after
  edited : Nat
  other : Nat
  roles : Roles dst (second.getD first) edited other

abbrev CChange : Type := Change (BitVec 32) × CMessage.Env

/-- What message `j` contains has not changed. -/
abbrev CSame (j : Nat) : Heap → Heap → Prop :=
  SameContents (CMessage.luazmqMsgSize j) (CMessage.luazmqMsgData j)

variable {g h : Heap} {k j : Nat}

theorem run_luazmqMsgSize (hopen : h.isOpen (addr j) = true) :
    CMessage.luazmqMsgSize j h = .ret (h.size (addr j)) h := by
  rw [CMessage.luazmqMsgSize, Lua.run_bind, CMessage.run_luazmqGetmessage hopen]
  rfl

theorem run_luazmqMsgData (hopen : h.isOpen (addr j) = true) :
    CMessage.luazmqMsgData j h = .ret (h.data (addr j)) h := by
  rw [CMessage.luazmqMsgData, Lua.run_bind, CMessage.run_luazmqGetmessage hopen]
  rfl

theorem cSame_iff (hg : g.isOpen (addr j) = true) (hh : h.isOpen (addr j) = true) :
    CSame j g h ↔ h.data (addr j) = g.data (addr j) := by
  have hdata := Lua.sameAnswer_iff (run_luazmqMsgData hg) (run_luazmqMsgData hh)
  refine ⟨fun hsame => hdata.mp hsame.data, fun heq => ⟨?_, hdata.mpr heq⟩⟩
  exact (Lua.sameAnswer_iff (run_luazmqMsgSize hg) (run_luazmqMsgSize hh)).mpr (congrArg List.length heq)

/-- An answer comes from an open message. -/
theorem isOpen_of_cSame (hsame : CSame j g h) : g.isOpen (addr j) = true ∧ h.isOpen (addr j) = true := by
  obtain ⟨n, hg, hh⟩ := hsame.size
  exact ⟨(CMessage.of_getmessage hg).1, (CMessage.of_getmessage hh).1⟩

/-- One call. -/
theorem cStep_same_iff (hjk : j ≠ k) (hsame : CSame j g h) (c : CChange) :
    (∃ h', CMessage.changeStep k h c = some h' ∧ CSame j g h') ↔ ¬ CMessage.Overwrites k j h c.1 := by
  obtain ⟨hg, hh⟩ := isOpen_of_cSame hsame
  obtain ⟨h', hstep, hpart, -, hdata⟩ := CMessage.step_change (h := h) hjk c
  have hh' : h'.isOpen (addr j) = true := by rw [Heap.isOpen, hpart]; exact hh
  have hkept := (cSame_iff hg hh).mp hsame
  rw [← hdata, hkept, ← cSame_iff hg hh']
  constructor
  · rintro ⟨u, hu, hsame'⟩
    obtain rfl : h' = u := Option.some.inj (hstep.symm.trans hu)
    exact hsame'
  · intro hsame'
    exact ⟨h', hstep, hsame'⟩

/-- After a copy both messages are open, and they are apart iff the source is small. -/
theorem CCopied.spec (p : CCopied) : p.after.isOpen (addr p.dst) = true ∧
    p.after.isOpen (addr (p.second.getD p.first)) = true ∧
    (p.after.Apart (addr p.dst) (addr (p.second.getD p.first)) ↔
      p.before.size (addr (p.second.getD p.first)) ≤ p.env.limit) := by
  obtain ⟨env, before, first, second, dst, after, copied, edited, other, two, pair⟩ := p
  cases second with
  | some second =>
    obtain ⟨rfl, -, hsrc, rfl⟩ := CMessage.of_copy_second copied
    have hne : addr second ≠ addr dst := CMessage.addr_ne two.symm
    refine ⟨Heap.isOpen_copy hsrc _, ?_, Heap.apart_copy_iff hsrc hne.symm _⟩
    show Heap.isOpen _ (addr second) = true
    rw [Heap.isOpen, Heap.part_copy_of_ne hne]
    exact hsrc
  | none =>
    obtain ⟨rfl, hsrc, rfl⟩ := CMessage.of_copy_first copied
    have hne : addr first ≠ addr env.made := CMessage.addr_ne two.symm
    have hsrc' : (before.init (addr env.made) []).isOpen (addr first) = true := by
      rw [Heap.isOpen, Heap.init, Heap.part_new_of_ne hne]
      exact hsrc
    have hsize : (before.init (addr env.made) []).size (addr first) = before.size (addr first) :=
      congrArg List.length (Heap.data_new_of_ne hne)
    refine ⟨Heap.isOpen_copy hsrc' _, ?_, (Heap.apart_copy_iff hsrc' hne.symm _).trans (by rw [hsize]; rfl)⟩
    show Heap.isOpen _ (addr first) = true
    rw [Heap.isOpen, Heap.part_copy_of_ne hne]
    exact hsrc'

theorem CCopied.isOpen_other (p : CCopied) : p.after.isOpen (addr p.other) = true := by
  obtain ⟨hdst, hsrc, -⟩ := p.spec
  rcases p.roles.pair with ⟨-, hother⟩ | ⟨-, hother⟩
  · rw [hother]
    exact hsrc
  · rw [hother]
    exact hdst

theorem CCopied.apart_iff (p : CCopied) : p.after.Apart (addr p.edited) (addr p.other) ↔
    p.before.size (addr (p.second.getD p.first)) ≤ p.env.limit := by
  rw [← p.spec.2.2]
  rcases p.roles.pair with ⟨hedited, hother⟩ | ⟨hedited, hother⟩
  · rw [hedited, hother]
  · rw [hedited, hother]
    exact ⟨Heap.Apart.symm, Heap.Apart.symm⟩

theorem CCopied.same (p : CCopied) : CSame p.other p.after p.after :=
  (cSame_iff p.isOpen_other p.isOpen_other).mpr rfl

end C

/-! ## The FFI binding -/

section Ffi

/-- The arguments of `copy`. -/
def copyOperand : Option Nat → FfiMessage.Operand
  | some j => .message j
  | none => .none

/-- A call of the FFI binding that has made a copy of an open message. -/
structure FfiCopied where
  env : FfiMessage.Env
  before : World
  inv : Inv before
  first : Nat
  second : Option Nat
  isOpen : ∀ j, second = some j → before.struct j ≠ none
  dst : Nat
  after : World
  copied : FfiMessage.copy env first (copyOperand second) before = .ret (.message dst) after
  edited : Nat
  other : Nat
  roles : Roles dst (second.getD first) edited other

abbrev FfiChange : Type := Change Int × FfiMessage.Env

abbrev FfiSame (j : Nat) : World → World → Prop := SameContents (FfiMessage.size j) (FfiMessage.data j)

variable {v w : World} {i j a b : Nat}

theorem run_size (hb : w.struct j = some b) : FfiMessage.size j w = .ret (w.heap.size b) w := by
  rw [FfiMessage.size, Lua.run_bind, FfiMessage.run_checked hb]
  rfl

theorem run_data (hb : w.struct j = some b) : FfiMessage.data j w = .ret (w.heap.data b) w := by
  rw [FfiMessage.data, Lua.run_bind, FfiMessage.run_checked hb]
  rfl

theorem ffiSame_iff (ha : v.struct j = some a) (hb : w.struct j = some b) :
    FfiSame j v w ↔ w.heap.data b = v.heap.data a := by
  have hdata := Lua.sameAnswer_iff (run_data ha) (run_data hb)
  refine ⟨fun hsame => hdata.mp hsame.data, fun heq => ⟨?_, hdata.mpr heq⟩⟩
  exact (Lua.sameAnswer_iff (run_size ha) (run_size hb)).mpr (congrArg List.length heq)

theorem struct_of_ffiSame (hsame : FfiSame j v w) :
    (∃ a, v.struct j = some a) ∧ ∃ b, w.struct j = some b := by
  obtain ⟨n, hv, hw⟩ := hsame.size
  obtain ⟨a, ha, -⟩ := FfiMessage.of_checked hv
  obtain ⟨b, hb, -⟩ := FfiMessage.of_checked hw
  exact ⟨⟨a, ha⟩, b, hb⟩

/-- One call. -/
theorem ffiStep_same_iff (hinv : Inv w) (hij : j ≠ i) (hsame : FfiSame j v w) (c : FfiChange) :
    (∃ w', FfiMessage.changeStep i w c = some w' ∧ FfiSame j v w') ↔
      ¬ FfiMessage.Crashes i w c ∧ ¬ FfiMessage.Overwrites i j w c.1 := by
  obtain ⟨⟨a, ha⟩, b, hb⟩ := struct_of_ffiSame hsame
  by_cases hcrash : FfiMessage.Crashes i w c
  · refine iff_of_false ?_ fun h => h.1 hcrash
    rintro ⟨w', hstep, -⟩
    rw [FfiMessage.step_crashes hcrash] at hstep
    cases hstep
  · obtain ⟨w', hstep, -, hb', -, hdata⟩ := FfiMessage.step_change hinv hij hb c hcrash
    have hkept := (ffiSame_iff ha hb).mp hsame
    rw [← hdata, hkept, ← ffiSame_iff ha hb']
    constructor
    · rintro ⟨u, hu, hsame'⟩
      obtain rfl : w' = u := Option.some.inj (hstep.symm.trans hu)
      exact ⟨hcrash, hsame'⟩
    · rintro ⟨-, hsame'⟩
      exact ⟨w', hstep, hsame'⟩

/-- After a copy both objects are open, and they are separate iff the source is small. -/
theorem FfiCopied.spec (q : FfiCopied) : Inv q.after ∧ ∃ d s, q.after.struct q.dst = some d ∧
    q.after.struct (q.second.getD q.first) = some s ∧ q.before.struct (q.second.getD q.first) = some s ∧
    (q.after.heap.Apart d s ↔ q.before.heap.size s ≤ q.env.limit) := by
  obtain ⟨env, before, inv, first, second, isOpen, dst, after, copied, edited, other, two, pair⟩ := q
  have hstep : FfiMessage.step before (.copy first (copyOperand second), env) = some after :=
    Lua.after_of (.inl ⟨_, copied⟩)
  refine ⟨inv.of_effect (FfiMessage.effect_step hstep), ?_⟩
  cases second with
  | some j =>
    obtain ⟨s, hs⟩ := Option.ne_none_iff_exists'.mp (isOpen j rfl)
    obtain ⟨d, hd, rfl, hsrc, rfl⟩ := FfiMessage.of_copy_message hs copied
    have hne : d ≠ s := fun heq => two (inv.apart dst j s (heq ▸ hd) hs)
    exact ⟨d, s, hd, hs, hs, Heap.apart_copy_iff hsrc hne _⟩
  | none =>
    obtain ⟨s, hs, rfl, hsrc, rfl⟩ := FfiMessage.of_copy_none copied
    have hne : s ≠ before.next := Nat.ne_of_lt (inv.old first s hs)
    have hsize : (before.heap.init before.next []).size s = before.heap.size s :=
      congrArg List.length (Heap.data_new_of_ne hne)
    refine ⟨before.next, s, ?_, FfiMessage.struct_append_of_some rfl hs, hs, ?_⟩
    · show (before.msgs ++ [some before.next]).getD before.msgs.length none = some before.next
      rw [List.getD_append_right _ _ _ _ (Nat.le_refl _), Nat.sub_self]
      rfl
    · exact (Heap.apart_copy_iff hsrc hne.symm _).trans (by rw [hsize])

theorem FfiCopied.separate (q : FfiCopied)
    (hsmall : ∀ s, q.before.struct (q.second.getD q.first) = some s → q.before.heap.size s ≤ q.env.limit) :
    FfiMessage.Separate q.edited q.other q.after := by
  obtain ⟨-, d, s, hd, hs, hs', hapart⟩ := q.spec
  have hds := hapart.mpr (hsmall s hs')
  intro a b ha hb
  rcases q.roles.pair with ⟨hedited, hother⟩ | ⟨hedited, hother⟩
  · rw [hedited, hd] at ha
    rw [hother, hs] at hb
    cases ha
    cases hb
    exact hds
  · rw [hedited, hs] at ha
    rw [hother, hd] at hb
    cases ha
    cases hb
    exact hds.symm

theorem FfiCopied.same (q : FfiCopied) : FfiSame q.other q.after q.after := by
  obtain ⟨-, d, s, hd, hs, -⟩ := q.spec
  rcases q.roles.pair with ⟨-, hother⟩ | ⟨-, hother⟩
  · rw [hother]
    exact (ffiSame_iff hs hs).mpr rfl
  · rw [hother]
    exact (ffiSame_iff hd hd).mpr rfl

end Ffi

/-! ## Copies and their sources -/

/-- Messages that are kept in the zmq_msg_t are independent, except for a crash. -/
theorem small_copies (p : CCopied) (calls : List CChange) (q : FfiCopied) (ffiCalls : List FfiChange)
    (hp : p.before.size (addr (p.second.getD p.first)) ≤ p.env.limit)
    (hq : ∀ s, q.before.struct (q.second.getD q.first) = some s → q.before.heap.size s ≤ q.env.limit) :
    Steps.Keeps (CMessage.changeStep p.edited) (fun _ _ h' => CSame p.other p.after h') p.after calls ∧
    (Steps.Keeps (FfiMessage.changeStep q.edited) (fun _ _ w' => FfiSame q.other q.after w') q.after ffiCalls ↔
      Steps.Meets (FfiMessage.changeStep q.edited) (fun w c => ¬ FfiMessage.Crashes q.edited w c)
        q.after ffiCalls) := by
  constructor
  · apply Steps.keeps_of_inv (CMessage.changeStep p.edited) (fun h =>
      CSame p.other p.after h ∧ h.Apart (addr p.edited) (addr p.other)) ?_ calls _ ⟨p.same, p.apart_iff.mpr hp⟩
    intro h c ⟨hsame, hapart⟩
    have hquiet : ¬ CMessage.Overwrites p.edited p.other h c.1 := fun ⟨_, _, _, hdist⟩ => hdist.1 hapart
    obtain ⟨h', hstep, hsame'⟩ := (cStep_same_iff p.roles.ne hsame c).mpr hquiet
    obtain ⟨u, hu, -, hapart', -⟩ := CMessage.step_change (h := h) p.roles.ne c
    obtain rfl : h' = u := Option.some.inj (hstep.symm.trans hu)
    exact ⟨h', hstep, hsame', hsame', hapart' hapart⟩
  · apply Steps.keeps_iff_meets (FfiMessage.changeStep q.edited)
      (fun w => Inv w ∧ FfiSame q.other q.after w ∧ FfiMessage.Separate q.edited q.other w)
    · intro w c ⟨hinv, hsame, hapart⟩
      rw [ffiStep_same_iff hinv q.roles.ne hsame c]
      refine and_iff_left ?_
      rintro ⟨own, pos, s, b, hin, hb, hdist⟩
      exact hdist.1 (hapart own b hin.struct hb)
    · intro w c w' ⟨hinv, hsame, hapart⟩ hstep hsame'
      have hcrash : ¬ FfiMessage.Crashes q.edited w c := fun hcrash => by
        rw [FfiMessage.step_crashes hcrash] at hstep
        cases hstep
      obtain ⟨-, b, hb⟩ := struct_of_ffiSame hsame
      obtain ⟨u, hu, hinv', -, hapart', -⟩ := FfiMessage.step_change hinv q.roles.ne hb c hcrash
      obtain rfl : w' = u := Option.some.inj (hstep.symm.trans hu)
      exact ⟨hinv', hsame', hapart' hapart⟩
    · exact ⟨q.spec.1, q.same, q.separate hq⟩

/-- **A copy is independent of its source** iff no call overwrites bytes that the two messages share, and in
    the FFI binding none crashes. -/
theorem copy_independent_iff (p : CCopied) (calls : List CChange) (q : FfiCopied) (ffiCalls : List FfiChange) :
    (Steps.Keeps (CMessage.changeStep p.edited) (fun _ _ h' => CSame p.other p.after h') p.after calls ↔
      Steps.Meets (CMessage.changeStep p.edited)
        (fun h c => ¬ CMessage.Overwrites p.edited p.other h c.1) p.after calls) ∧
    (Steps.Keeps (FfiMessage.changeStep q.edited) (fun _ _ w' => FfiSame q.other q.after w') q.after ffiCalls ↔
      Steps.Meets (FfiMessage.changeStep q.edited)
        (fun w c => ¬ FfiMessage.Crashes q.edited w c ∧ ¬ FfiMessage.Overwrites q.edited q.other w c.1)
        q.after ffiCalls) := by
  constructor
  · apply Steps.keeps_iff_meets (CMessage.changeStep p.edited) (CSame p.other p.after)
    · intro h c hsame
      exact cStep_same_iff p.roles.ne hsame c
    · intro h c h' _ _ hsame'
      exact hsame'
    · exact p.same
  · apply Steps.keeps_iff_meets (FfiMessage.changeStep q.edited)
      (fun w => Inv w ∧ FfiSame q.other q.after w)
    · intro w c hinv
      exact ffiStep_same_iff hinv.1 q.roles.ne hinv.2 c
    · intro w c w' hinv hstep hsame'
      obtain ⟨-, b, hb⟩ := struct_of_ffiSame hinv.2
      exact ⟨(FfiMessage.frame_change hinv.1 q.roles.ne hb hstep).1, hsame'⟩
    · exact ⟨q.spec.1, q.same⟩

/-- 34 zero bytes, one more than libzmq keeps in a zmq_msg_t, and `copy = msg:copy()`; calls are made on
    `msg`. -/
def CCopied.large : CCopied where
  env := ⟨none, none, 33, 1⟩
  before := Heap.empty.new (addr 0) (List.replicate 34 0) false
  first := 0
  second := none
  dst := 1
  after := ((Heap.empty.new (addr 0) (List.replicate 34 0) false).init (addr 1) []).copy 33 (addr 1) (addr 0)
  copied := rfl
  edited := 0
  other := 1
  roles := ⟨by decide, .inr ⟨rfl, rfl⟩⟩

theorem letter_fits : ([97] : List UInt8).length < 2 ^ 63 := by decide

/-- `msg:set_data("a")` -/
def writeFirst : CChange := (.edit (.setData none ⟨[97], letter_fits⟩), ⟨none, fun _ => 0⟩)

/-- The copy has another first byte after a write into its source. -/
theorem copy_overwritten : ¬ Steps.Keeps (CMessage.changeStep CCopied.large.edited)
    (fun _ _ h' => CSame CCopied.large.other CCopied.large.after h') CCopied.large.after [writeFirst] := by
  rintro ⟨h', hstep, hsame, -⟩
  have hquiet := (cStep_same_iff CCopied.large.roles.ne CCopied.large.same writeFirst).mp ⟨h', hstep, hsame⟩
  refine hquiet ⟨none, ⟨[97], letter_fits⟩, ⟨rfl, rfl, by decide, by decide⟩, ?_, ?_⟩
  · -- 34 bytes are shared
    rw [CCopied.apart_iff]
    decide
  · intro hholds
    have hfirst := hholds 0 (by decide) (by decide) (by decide)
    revert hfirst
    decide

end Lzmq.Messages
