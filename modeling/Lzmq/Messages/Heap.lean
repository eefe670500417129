/-
  libzmq's messages, as both bindings use them.

  A zmq_msg_t is a struct at an address that the binding provides.  libzmq gives it a data buffer and flags,
  of which ZMQ_MORE is the one that matters here.  `zmq_msg_init_size` makes a message with a buffer of its
  own and without the flag; `zmq_msg_move` hands on buffer and flag and leaves an empty message behind;
  `zmq_msg_copy` shares the buffer of a message that is too large to be kept in the struct.

  A copy that leaves its buffer is undefined behaviour.  The heap records it in `overrun` and goes on with
  what lies inside, since this is what happens in practice when it is about one byte.
-/
import Lzmq.Lib.Buffer
import Mathlib.Logic.Basic

namespace Lzmq.Messages

open Lzmq.Buffer

/-- What a zmq_msg_t that is not closed refers to. -/
structure Part where
  buf : Nat
  more : Bool
deriving DecidableEq, Repr

structure Heap where
  /-- The structs by address; `none` is one that is closed or has never been a message. -/
  part : Nat → Option Part
  bytes : Nat → List UInt8
  /-- From here on no buffer is in use. -/
  fresh : Nat
  /-- Whether something has been written or read outside of a buffer. -/
  overrun : Bool
  old : ∀ s p, part s = some p → p.buf < fresh

namespace Heap

/-- No messages yet. -/
def empty : Heap := ⟨fun _ => none, fun _ => [], 0, false, fun _ _ h => by cases h⟩

/-! ## Reading -/

def isOpen (h : Heap) (s : Nat) : Bool := (h.part s).isSome

/-- `zmq_msg_data` -/
def data (h : Heap) (s : Nat) : List UInt8 :=
  match h.part s with
  | some p => h.bytes p.buf
  | none => []

/-- `zmq_msg_size` -/
def size (h : Heap) (s : Nat) : Nat := (h.data s).length

/-- `zmq_msg_more` -/
def more (h : Heap) (s : Nat) : Bool :=
  match h.part s with
  | some p => p.more
  | none => false

/-! ## Writing -/

/-- A message with a new buffer. -/
def new (h : Heap) (s : Nat) (bs : List UInt8) (more : Bool) : Heap where
  part t := if t = s then some ⟨h.fresh, more⟩ else h.part t
  bytes b := if b = h.fresh then bs else h.bytes b
  fresh := h.fresh + 1
  overrun := h.overrun
  old t p ht := by
    by_cases hts : t = s
    · rw [if_pos hts] at ht
      cases ht
      exact Nat.lt_succ_self _
    · rw [if_neg hts] at ht
      exact Nat.lt_succ_of_lt (h.old t p ht)

/-- A successful `zmq_msg_init` or `zmq_msg_init_size`; `bs` is what the memory happens to hold. -/
def init (h : Heap) (s : Nat) (bs : List UInt8) : Heap := h.new s bs false

/-- `zmq_msg_close` -/
def close (h : Heap) (s : Nat) : Heap where
  part t := if t = s then none else h.part t
  bytes := h.bytes
  fresh := h.fresh
  overrun := h.overrun
  old t p ht := by
    by_cases hts : t = s
    · rw [if_pos hts] at ht
      cases ht
    · rw [if_neg hts] at ht
      exact h.old t p ht

/-- One struct becomes what another one is. -/
def assign (h : Heap) (d s : Nat) : Heap where
  part t := if t = d then h.part s else h.part t
  bytes := h.bytes
  fresh := h.fresh
  overrun := h.overrun
  old t p ht := by
    by_cases htd : t = d
    · rw [if_pos htd] at ht
      exact h.old s p ht
    · rw [if_neg htd] at ht
      exact h.old t p ht

/-- A successful `zmq_msg_move` -/
def move (h : Heap) (d s : Nat) : Heap := (h.assign d s).init s []

/-- A successful `zmq_msg_copy`; messages of up to `limit` bytes are copied by value. -/
def copy (h : Heap) (limit d s : Nat) : Heap :=
  if h.size s ≤ limit then h.new d (h.data s) (h.more s)
  else h.assign d s -- one buffer for both

/-- A copy of `src` into the data of a message, from `pos` on. -/
def store (h : Heap) (s : Nat) (pos : Int) (src : List UInt8) : Heap where
  part := h.part
  -- seen by all messages that share the buffer
  bytes b := if (h.part s).map Part.buf = some b then overwrite (h.bytes b) pos src else h.bytes b
  fresh := h.fresh
  overrun := h.overrun || !decide (Fits (h.size s) pos src.length)
  old := h.old

/-- A copy of the first `n` bytes of a message into another one. -/
def transfer (h : Heap) (d s n : Nat) : Heap where
  part := h.part
  bytes := (h.store d 0 ((h.data s).take n)).bytes
  fresh := h.fresh
  overrun := h.overrun || !decide (n ≤ h.size d ∧ n ≤ h.size s)
  old := h.old

/-! ## What is read after a write -/

variable (h : Heap) (d s t : Nat) (bs : List UInt8) (m : Bool)

@[simp] theorem isOpen_new : (h.new s bs m).isOpen s = true := by
  simp [isOpen, new]

@[simp] theorem data_new : (h.new s bs m).data s = bs := by
  simp [data, new]

@[simp] theorem more_new : (h.new s bs m).more s = m := by
  simp [more, new]

variable {h d s t bs m}

theorem part_new_of_ne (hts : t ≠ s) : (h.new s bs m).part t = h.part t := if_neg hts

theorem data_new_of_ne (hts : t ≠ s) : (h.new s bs m).data t = h.data t := by
  rw [data, data, part_new_of_ne hts]
  cases hp : h.part t with
  | none => rfl
  | some p => exact if_neg (Nat.ne_of_lt (h.old t p hp))

theorem part_close_of_ne (hts : t ≠ s) : (h.close s).part t = h.part t := if_neg hts

theorem data_close_of_ne (hts : t ≠ s) : (h.close s).data t = h.data t := by
  rw [data, data, part_close_of_ne hts]
  rfl

theorem more_close_of_ne (hts : t ≠ s) : (h.close s).more t = h.more t := by
  rw [more, more, part_close_of_ne hts]

theorem part_move (hds : d ≠ s) : (h.move d s).part d = h.part s := by
  rw [move, init, part_new_of_ne hds]
  exact if_pos rfl

theorem data_move (hds : d ≠ s) : (h.move d s).data d = h.data s := by
  have hpart : (h.assign d s).part d = h.part s := if_pos rfl
  rw [move, init, data_new_of_ne hds, data, data, hpart]
  rfl

theorem more_move (hds : d ≠ s) : (h.move d s).more d = h.more s := by
  rw [more, more, part_move hds]

theorem part_move_of_ne (htd : t ≠ d) (hts : t ≠ s) : (h.move d s).part t = h.part t := by
  rw [move, init, part_new_of_ne hts]
  exact if_neg htd

theorem part_copy_of_ne {limit : Nat} (htd : t ≠ d) : (h.copy limit d s).part t = h.part t := by
  rw [copy]
  by_cases hlimit : h.size s ≤ limit
  · rw [if_pos hlimit]
    exact part_new_of_ne htd
  · rw [if_neg hlimit]
    exact if_neg htd

@[simp] theorem part_store (pos : Int) (src : List UInt8) : (h.store s pos src).part = h.part := rfl

@[simp] theorem more_store (pos : Int) (src : List UInt8) : (h.store s pos src).more t = h.more t := rfl

theorem data_store (pos : Int) (src : List UInt8) : (h.store s pos src).data s =
    overwrite (h.data s) pos src := by
  rw [data, data, part_store]
  cases hp : h.part s with
  | none => rfl
  | some p =>
    show (h.store s pos src).bytes p.buf = _
    rw [store]
    exact if_pos (by rw [hp]; rfl)

theorem overrun_store {pos : Int} {src : List UInt8} (hfits : Fits (h.size s) pos src.length) :
    (h.store s pos src).overrun = h.overrun := by
  rw [store, decide_eq_true hfits]
  exact Bool.or_false _

theorem overrun_store_of_not {pos : Int} {src : List UInt8} (hfits : ¬ Fits (h.size s) pos src.length) :
    (h.store s pos src).overrun = true := by
  rw [store, decide_eq_false hfits]
  exact Bool.or_true _

/-- Writing changes no size. -/
theorem size_store (pos : Int) (src : List UInt8) : (h.store s pos src).size t = h.size t := by
  rw [size, size, data, data, part_store]
  cases h.part t with
  | none => rfl
  | some p =>
    show (if (h.part s).map Part.buf = some p.buf then overwrite
      (h.bytes p.buf) pos src else h.bytes p.buf).length = _
    by_cases hbuf : (h.part s).map Part.buf = some p.buf
    · rw [if_pos hbuf, length_overwrite]
    · rw [if_neg hbuf]

@[simp] theorem part_transfer (n : Nat) : (h.transfer d s n).part = h.part := rfl

@[simp] theorem more_transfer (n : Nat) : (h.transfer d s n).more t = h.more t := rfl

theorem data_transfer (n : Nat) : (h.transfer d s n).data d = overwrite (h.data d) 0 ((h.data s).take n) :=
  data_store 0 _

theorem size_transfer (n : Nat) : (h.transfer d s n).size t = h.size t := size_store 0 _

theorem overrun_transfer {n : Nat} (hd : n ≤ h.size d) (hs : n ≤ h.size s) :
    (h.transfer d s n).overrun = h.overrun := by
  rw [transfer, decide_eq_true ⟨hd, hs⟩]
  exact Bool.or_false _

/-! ## What other messages see -/

/-- Two messages have different buffers, if both are open. -/
def Apart (h : Heap) (s t : Nat) : Prop := ∀ p q, h.part s = some p → h.part t = some q → p.buf ≠ q.buf

/-- A write into `s` that `t` sees: there is one buffer for both, and other bytes are in it. -/
def Disturbs (h : Heap) (s t : Nat) (pos : Int) (src : List UInt8) : Prop :=
  ¬ h.Apart s t ∧ ¬ Holds (h.data s) pos src

theorem Apart.symm (hst : h.Apart s t) : h.Apart t s := fun p q hp hq heq => hst q p hq hp heq.symm

/-- One buffer for both. -/
theorem exists_of_not_apart (hst : ¬ h.Apart s t) :
    ∃ p q, h.part s = some p ∧ h.part t = some q ∧ p.buf = q.buf := by
  cases hp : h.part s with
  | none => exact absurd (fun p q hp' _ => by rw [hp] at hp'; cases hp') hst
  | some p =>
    cases hq : h.part t with
    | none => exact absurd (fun p q _ hq' => by rw [hq] at hq'; cases hq') hst
    | some q =>
      refine ⟨p, q, rfl, rfl, Classical.not_not.mp fun hne => hst fun p' q' hp' hq' => ?_⟩
      obtain rfl : p = p' := Option.some.inj (hp.symm.trans hp')
      obtain rfl : q = q' := Option.some.inj (hq.symm.trans hq')
      exact hne

theorem data_eq_of_buf {p q : Part} (hp : h.part s = some p) (hq : h.part t = some q) (hpq : p.buf = q.buf) :
    h.data t = h.data s := by
  rw [data, data, hp, hq]
  exact congrArg h.bytes hpq.symm

/-- Whether two messages are apart is a matter of the structs. -/
theorem Apart.of_part {h' : Heap} {s' t' : Nat} (hs : h'.part s' = h.part s) (ht : h'.part t' = h.part t)
    (hst : h.Apart s t) : h'.Apart s' t' := by
  intro p q hp hq
  rw [hs] at hp
  rw [ht] at hq
  exact hst p q hp hq

/-- A new buffer is nobody else's. -/
theorem apart_new (hts : t ≠ s) : (h.new s bs m).Apart s t := by
  intro p q hp hq
  have hself : (h.new s bs m).part s = some ⟨h.fresh, m⟩ := if_pos rfl
  rw [hself] at hp
  rw [part_new_of_ne hts] at hq
  cases hp
  exact (Nat.ne_of_lt (h.old t q hq)).symm

theorem apart_close : (h.close s).Apart s t := by
  intro p q hp _
  have hself : (h.close s).part s = none := if_pos rfl
  rw [hself] at hp
  cases hp

theorem data_store_of_apart (hst : h.Apart s t) (pos : Int) (src : List UInt8) :
    (h.store s pos src).data t = h.data t := by
  rw [data, data, part_store]
  cases hq : h.part t with
  | none => rfl
  | some q =>
    show (h.store s pos src).bytes q.buf = h.bytes q.buf
    rw [store]
    refine if_neg fun hbuf => ?_
    obtain ⟨p, hp, hpq⟩ := Option.map_eq_some_iff.mp hbuf
    exact hst p q hp hq hpq

theorem data_transfer_of_apart {r : Nat} (hst : h.Apart s t) (n : Nat) :
    (h.transfer s r n).data t = h.data t :=
  data_store_of_apart hst 0 _

/-- **A write into one message leaves another one as it is** iff it does not disturb it. -/
theorem data_store_iff (pos : Int) (src : List UInt8) :
    (h.store s pos src).data t = h.data t ↔ ¬ h.Disturbs s t pos src := by
  by_cases hst : h.Apart s t
  · exact iff_of_true (data_store_of_apart hst pos src) fun hdist => hdist.1 hst
  · obtain ⟨p, q, hp, hq, hpq⟩ := exists_of_not_apart hst
    have hdata : h.data t = h.data s := data_eq_of_buf hp hq hpq
    have hboth : (h.store s pos src).data t = (h.store s pos src).data s := data_eq_of_buf hp hq hpq
    rw [hboth, data_store, hdata, overwrite_eq_self_iff, Disturbs]
    exact ⟨fun hholds hdist => hdist.2 hholds, fun hnot => Classical.not_not.mp fun hother => hnot ⟨hst, hother⟩⟩

theorem data_move_of_ne (htd : t ≠ d) (hts : t ≠ s) : (h.move d s).data t = h.data t := by
  have hpart : (h.assign d s).part t = h.part t := if_neg htd
  rw [move, init, data_new_of_ne hts, data, data, hpart]
  rfl

/-- **A copy has a buffer of its own** iff it is small. -/
theorem apart_copy_iff (hopen : h.isOpen s = true) (hds : d ≠ s) (limit : Nat) :
    (h.copy limit d s).Apart d s ↔ h.size s ≤ limit := by
  by_cases hlimit : h.size s ≤ limit
  · rw [copy, if_pos hlimit]
    exact iff_of_true (apart_new hds.symm) hlimit
  · obtain ⟨p, hp⟩ := Option.isSome_iff_exists.mp hopen
    have hd : (h.assign d s).part d = some p := (if_pos rfl).trans hp
    have hs : (h.assign d s).part s = some p := (if_neg hds.symm).trans hp
    rw [copy, if_neg hlimit]
    exact iff_of_false (fun hst => hst p p hd hs rfl) hlimit

/-- A copy is open. -/
theorem isOpen_copy (hopen : h.isOpen s = true) (limit : Nat) : (h.copy limit d s).isOpen d = true := by
  by_cases hlimit : h.size s ≤ limit
  · rw [copy, if_pos hlimit]
    exact isOpen_new h d _ _
  · have hd : (h.assign d s).part d = h.part s := if_pos rfl
    rw [copy, if_neg hlimit, isOpen, hd]
    exact hopen

end Heap

end Lzmq.Messages
