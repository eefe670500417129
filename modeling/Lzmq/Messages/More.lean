/-
  Editing a message and its more flag, in both bindings.

  A message object may replace its zmq_msg_t by a new one, and by the documentation its user need not care.
  But the new one has no flag, and nothing puts it back; calls that get by with the old buffer keep the flag.
  `set_size` of the FFI binding may even leave no message to ask.

  So the flag is kept iff no call makes a new message of one that has it, and none loses the message
  (`more_kept_iff`).
-/
import Lzmq.FfiMessage.Sharing

namespace Lzmq.Messages

open Lzmq.CMessage (LuaString Edit addr)

/-- `msg:more()` answers the same in two states. -/
def SameMore {S : Type} (more : Lua S Bool) (s s' : S) : Prop := ∃ b, more s = .ret b s ∧ more s' = .ret b s'

theorem sameMore_iff {S : Type} {more : Lua S Bool} {s s' : S} {b b' : Bool} (h : more s = .ret b s)
    (h' : more s' = .ret b' s') : SameMore more s s' ↔ b' = b := Lua.sameAnswer_iff h h'

/-! ## The C binding -/

section C

/-- A call of an editing method, with what libzmq does. -/
abbrev CCall : Type := Edit (BitVec 32) × CMessage.Env

/-- After a call, also after one that raises an error. -/
def cStep (k : Nat) (h : Heap) (c : CCall) : Option Heap := Lua.after (c.1.run c.2 k) h

/-- A call that does not make a new message of one with the flag. -/
def CKeepsFlag (k : Nat) (h : Heap) (c : CCall) : Prop :=
  ¬ (CMessage.Reallocates k h c.1 ∧ c.2.alloc = none ∧ h.more (addr k) = true)

variable {k : Nat} {h h' : Heap}

theorem run_luazmqMsgMore (hopen : h.isOpen (addr k) = true) :
    CMessage.luazmqMsgMore k h = .ret (h.more (addr k)) h := by
  rw [CMessage.luazmqMsgMore, Lua.run_bind, CMessage.run_luazmqGetmessage hopen]
  rfl

theorem isOpen_of_more {b : Bool} (hmore : CMessage.luazmqMsgMore k h = .ret b h) : h.isOpen (addr k) = true :=
  (CMessage.of_getmessage hmore).1

theorem sameMore_c_iff (hopen : h.isOpen (addr k) = true) (hopen' : h'.isOpen (addr k) = true) :
    SameMore (CMessage.luazmqMsgMore k) h h' ↔ h'.more (addr k) = h.more (addr k) :=
  sameMore_iff (run_luazmqMsgMore hopen) (run_luazmqMsgMore hopen')

theorem cStep_iff (hopen : h.isOpen (addr k) = true) (c : CCall) :
    (∃ h', cStep k h c = some h' ∧ SameMore (CMessage.luazmqMsgMore k) h h') ↔ CKeepsFlag k h c := by
  by_cases hre : CMessage.Reallocates k h c.1
  · cases halloc : c.2.alloc with
    | some e =>
      have hrun := CMessage.run_edit_fails hopen c.2 hre halloc
      refine iff_of_true ⟨h, Lua.after_of (.inl ⟨_, hrun⟩), (sameMore_c_iff hopen hopen).mpr rfl⟩
        fun hbad => ?_
      rw [halloc] at hbad
      cases hbad.2.1
    | none =>
      obtain ⟨h', hrun, hopen', hmore⟩ := CMessage.run_edit_grows hopen c.2 hre halloc
      have hstep : cStep k h c = some h' := Lua.after_of (.inl ⟨_, hrun⟩)
      -- the new message has no flag, so that there must not have been one
      constructor
      · rintro ⟨g, hg, hsame⟩ ⟨-, -, hflag⟩
        obtain rfl : h' = g := Option.some.inj (hstep.symm.trans hg)
        rw [sameMore_c_iff hopen hopen', hmore, hflag] at hsame
        cases hsame
      · intro hkeeps
        refine ⟨h', hstep, (sameMore_c_iff hopen hopen').mpr ?_⟩
        rw [hmore, Bool.eq_false_iff.mpr fun hflag => hkeeps ⟨hre, halloc, hflag⟩]
  · obtain ⟨h', hrun, hpart⟩ := CMessage.run_edit_inPlace hopen c.2 hre
    have hopen' : h'.isOpen (addr k) = true := by rw [Heap.isOpen, hpart]; exact hopen
    refine iff_of_true ⟨h', Lua.after_of (hrun.symm.imp (fun hret => ⟨_, hret⟩) id), ?_⟩ fun hbad =>
      hre hbad.1
    rw [sameMore_c_iff hopen hopen', Heap.more, hpart]
    rfl

end C

/-! ## The FFI binding -/

section Ffi

abbrev FfiCall : Type := Edit Int × FfiMessage.Env

def ffiStep (i : Nat) (w : FfiMessage.World) (c : FfiCall) : Option FfiMessage.World :=
  FfiMessage.step w (.edit i c.1, c.2)

/-- A call that does not make a new message of one with the flag, and does not lose the message. -/
def FfiKeepsFlag (i : Nat) (w : FfiMessage.World) (c : FfiCall) : Prop :=
  ∀ own, w.struct i = some own → FfiMessage.Reallocates w own c.1 →
    if c.2.alloc = none then w.heap.more own = false else ¬ FfiMessage.IsSetSize c.1

variable {i own own' : Nat} {w w' : FfiMessage.World}

theorem run_more (hown : w.struct i = some own) : FfiMessage.more i w = .ret (w.heap.more own) w := by
  rw [FfiMessage.more, Lua.run_bind, FfiMessage.run_checked hown]
  rfl

theorem struct_of_more {b : Bool} (hmore : FfiMessage.more i w = .ret b w) : ∃ own, w.struct i = some own := by
  obtain ⟨own, hown, -⟩ := FfiMessage.of_checked hmore
  exact ⟨own, hown⟩

theorem sameMore_ffi_iff (hown : w.struct i = some own) (hown' : w'.struct i = some own') :
    SameMore (FfiMessage.more i) w w' ↔ w'.heap.more own' = w.heap.more own :=
  sameMore_iff (run_more hown) (run_more hown')

theorem ffiStep_iff (hinv : FfiMessage.Inv w) (hown : w.struct i = some own) (c : FfiCall) :
    (∃ w', ffiStep i w c = some w' ∧ SameMore (FfiMessage.more i) w w') ↔ FfiKeepsFlag i w c := by
  have hne : own ≠ w.tmp := fun h => hinv.scratch i (h ▸ hown)
  have hkeeps : FfiKeepsFlag i w c ↔ (FfiMessage.Reallocates w own c.1 →
      if c.2.alloc = none then w.heap.more own = false else ¬ FfiMessage.IsSetSize c.1) := by
    refine ⟨fun h => h own hown, fun h own' hown' => ?_⟩
    obtain rfl : own = own' := Option.some.inj (hown.symm.trans hown')
    exact h
  rw [hkeeps]
  by_cases hre : FfiMessage.Reallocates w own c.1
  · -- with a new buffer, or without the one that was asked for
    rw [forall_prop_of_true hre]
    cases halloc : c.2.alloc with
    | none =>
      obtain ⟨w', hrun, hown', hmore⟩ := FfiMessage.run_edit_grows hown hne hre halloc
      have hstep : ffiStep i w c = some w' := Lua.after_of (.inl ⟨_, hrun⟩)
      rw [if_pos rfl]
      constructor
      · rintro ⟨g, hg, hsame⟩
        obtain rfl : w' = g := Option.some.inj (hstep.symm.trans hg)
        rw [sameMore_ffi_iff hown hown', hmore] at hsame
        exact hsame.symm
      · intro hflag
        exact ⟨w', hstep, (sameMore_ffi_iff hown hown').mpr (hmore.trans hflag.symm)⟩
    | some e =>
      rw [if_neg (by simp)]
      by_cases hset : FfiMessage.IsSetSize c.1
      · -- a crash, or a closed message
        refine iff_of_false ?_ fun h => h hset
        rintro ⟨g, hg, b, -, hb⟩
        rcases FfiMessage.run_edit_lost hown hre halloc hset with hrun | ⟨w', hrun, hclosed⟩
        · have hnone : ffiStep i w c = none := Lua.after_abort hrun
          rw [hnone] at hg
          cases hg
        · have hstep : ffiStep i w c = some w' := Lua.after_of (.inl ⟨_, hrun⟩)
          obtain rfl : w' = g := Option.some.inj (hstep.symm.trans hg)
          obtain ⟨own', hown'⟩ := struct_of_more hb
          rw [hclosed] at hown'
          cases hown'
      · have hrun := FfiMessage.run_edit_fails hown hre halloc hset
        have hown' : FfiMessage.World.struct { w with errno := e } i = some own := hown
        exact iff_of_true ⟨_, Lua.after_of (.inl ⟨_, hrun⟩), (sameMore_ffi_iff hown hown').mpr rfl⟩ hset
  · obtain ⟨h', hrun, hpart⟩ := FfiMessage.run_edit_inPlace c.2 hown hre
    have hown' : FfiMessage.World.struct { w with heap := h' } i = some own := hown
    refine iff_of_true ⟨_, Lua.after_of (hrun.symm.imp (fun hret => ⟨_, hret⟩) id), ?_⟩ fun h => absurd h hre
    rw [sameMore_ffi_iff hown hown', Heap.more, hpart]
    rfl

end Ffi

/-- **The more flag is kept** in a sequence of calls iff none of them makes a new message of one that has the
    flag, and in the FFI binding none loses the message. -/
theorem more_kept_iff (m : CMessage.OpenMessage) (calls : List CCall) (n : FfiMessage.OpenMessage)
    (ffiCalls : List FfiCall) :
    (Steps.Keeps (cStep m.k) (fun h _ h' => SameMore (CMessage.luazmqMsgMore m.k) h h') m.heap calls ↔
      Steps.Meets (cStep m.k) (CKeepsFlag m.k) m.heap calls) ∧
    (Steps.Keeps (ffiStep n.i) (fun w _ w' => SameMore (FfiMessage.more n.i) w w') n.world ffiCalls ↔
      Steps.Meets (ffiStep n.i) (FfiKeepsFlag n.i) n.world ffiCalls) := by
  constructor
  · refine Steps.keeps_iff_meets (cStep m.k) (fun h => h.isOpen (addr m.k) = true)
      (fun h c hopen => cStep_iff hopen c) (fun h c h' _ _ hsame => ?_) calls m.heap m.isOpen
    obtain ⟨b, -, hb⟩ := hsame
    exact isOpen_of_more hb
  · refine Steps.keeps_iff_meets (ffiStep n.i) (fun w => FfiMessage.Inv w ∧ ∃ own, w.struct n.i = some own)
      (fun w c hinv => ?_) (fun w c w' hinv hstep hsame => ?_) ffiCalls n.world ⟨n.inv, n.own, n.isOpen⟩
    · obtain ⟨own, hown⟩ := hinv.2
      exact ffiStep_iff hinv.1 hown c
    · obtain ⟨b, -, hb⟩ := hsame
      exact ⟨hinv.1.of_effect (FfiMessage.effect_step hstep), struct_of_more hb⟩

/-- A message of one byte that is not the last part. -/
def notLast : CMessage.OpenMessage := ⟨0, Heap.empty.new (addr 0) [97] true, rfl, rfl⟩

/-- `msg:set_size(2)` -/
def longer : CCall := (.setSize 2, ⟨none, fun _ => 0⟩)

/-- A part that is made longer becomes the last one. -/
theorem longer_is_last : ¬ Steps.Keeps (cStep notLast.k)
    (fun h _ h' => SameMore (CMessage.luazmqMsgMore notLast.k) h h')
    notLast.heap [longer] := by
  rintro ⟨h', hstep, hsame, -⟩
  have hkeeps := (cStep_iff notLast.isOpen longer).mp ⟨h', hstep, hsame⟩
  have hre : CMessage.sizeT 2 ≠ notLast.heap.size (addr 0) := by decide
  exact hkeeps ⟨hre, rfl, rfl⟩

end Lzmq.Messages
