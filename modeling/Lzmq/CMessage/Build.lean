/-
  Messages from several strings (`luazmq_msg_init_data_multi` and `luazmq_msg_init_data_array` of `zmsg.c`).

  Both functions go twice over the parts: the first time they add up the lengths, then the message is made,
  and the second time every part is copied behind the one before.  For arguments both passes look at
  `luaL_checklstring`.  For the elements of an array the first pass asks `lua_rawlen`, for which a number has
  no length, while the second one copies the digits.

  So an array is built right iff there are no numbers in it (`initData_iff`).  A sum of lengths that does not
  fit into a size_t would be wrong, too.
-/
import Lzmq.CApi.Send
import Lzmq.CMessage.Edit
import Mathlib.Algebra.GroupWithZero.Nat

namespace Lzmq.CMessage

open Lzmq.Buffer Lzmq.CApi Lzmq.Messages

variable {N : Type}

/-! ## The C functions -/

/-- `lua_rawlen` of strings and numbers; values of other types are not accepted in the second pass. -/
def luaRawlen : Elem N → Nat
  | .str s => s.length
  | _ => 0

/-- The sum of the lengths, as a `size_t`. -/
def rawSize (es : List (Elem N)) : Nat := es.foldl (fun size e => (size + luaRawlen e) % 2 ^ 64) 0

section Functions

variable [LuaNumber N]

/-- `luaL_checklstring` -/
def luaLChecklstring (e : Elem N) : Lua Heap (List UInt8) :=
  match e.bytes with
  | some data => pure data
  | none => Lua.raise

def checkedSize : List (Elem N) → Nat → Lua Heap Nat
  | [], size => pure size
  | e :: es, size => do
    let data ← luaLChecklstring e
    checkedSize es ((size + data.length) % 2 ^ 64)

/-- The second pass. -/
def copyParts (k : Nat) : List (Elem N) → Nat → Lua Heap Unit
  | [], _ => pure ()
  | e :: es, pos => do
    let data ← luaLChecklstring e -- a number has digits here
    Lua.modify fun h => h.store (addr k) pos data
    copyParts k es ((pos + data.length) % 2 ^ 64)

/-- `luazmq_msg_init` -/
def luazmqMsgInit (k : Nat) : Lua Heap Reply := do
  Lua.modify fun h => h.init (addr k) []
  pure .pass

/-- What both functions do once they have the size; the message becomes the object `k`. -/
def initParts (env : Env) (k size : Nat) (es : List (Elem N)) : Lua Heap Reply :=
  if size = 0 then luazmqMsgInit k -- whatever the parts are
  else match env.alloc with
    | some e => pure (.fail e)
    | none => do
      Lua.modify fun h => h.init (addr k) (uninit env.junk size)
      copyParts k es 0
      pure .pass

def luazmqMsgInitDataMulti (env : Env) (k : Nat) (args : List (Elem N)) : Lua Heap Reply := do
  let size ← checkedSize args 0
  initParts env k size args

def luazmqMsgInitDataArray (env : Env) (k : Nat) (t : LuaTable (Elem N)) : Lua Heap Reply :=
  initParts env k (rawSize (elems t t.border 1)) (elems t t.border 1)

end Functions

/-! ## Lengths -/

section Lengths

variable [LuaNumber N]

/-- What `luaL_checklstring` accepts. -/
def IsText (e : Elem N) : Prop := e.bytes.isSome = true

instance (e : Elem N) : Decidable (IsText e) := inferInstanceAs (Decidable (_ = true))

def text (e : Elem N) : List UInt8 := e.bytes.getD []

/-- The concatenation of the parts. -/
def concat (es : List (Elem N)) : List UInt8 := es.flatMap text

def isNumber : Elem N → Bool
  | .num _ => true
  | _ => false

theorem concat_cons (e : Elem N) (es : List (Elem N)) : concat (e :: es) = text e ++ concat es :=
  List.flatMap_cons

theorem bytes_of_isText {e : Elem N} (h : IsText e) : e.bytes = some (text e) := by
  obtain ⟨data, hdata⟩ := Option.isSome_iff_exists.mp h
  rw [text, hdata, Option.getD_some]

/-- Only a number has another length in the second pass. -/
theorem rawlen_le {e : Elem N} (h : IsText e) :
    luaRawlen e ≤ (text e).length ∧ (luaRawlen e = (text e).length ↔ isNumber e = false) := by
  cases e with
  | nil => cases h
  | other => cases h
  | str s => exact ⟨Nat.le_refl _, fun _ => rfl, fun _ => rfl⟩
  | num x =>
    have hpos : 0 < (LuaNumber.text x).length := List.length_pos_of_ne_nil (LuaNumber.text_ne x)
    refine ⟨Nat.zero_le _, fun h0 => ?_, fun h0 => by cases h0⟩
    exact absurd (show 0 = (LuaNumber.text x).length from h0) (Nat.ne_of_lt hpos)

/-- Sums of lengths, without a bound. -/
def rawTotal (es : List (Elem N)) : Nat := (es.map luaRawlen).sum

omit [LuaNumber N] in
theorem rawSize_eq (es : List (Elem N)) : rawSize es = rawTotal es % 2 ^ 64 := by
  have hfold : ∀ (es : List (Elem N)) (n : Nat),
      es.foldl (fun size e => (size + luaRawlen e) % 2 ^ 64) (n % 2 ^ 64) = (n + rawTotal es) % 2 ^ 64 := by
    intro es
    induction es with
    | nil => intro n; rfl
    | cons e es ih =>
      intro n
      rw [List.foldl_cons, Nat.mod_add_mod, ih, rawTotal, rawTotal, List.map_cons, List.sum_cons,
        Nat.add_assoc]
  refine (hfold es 0).trans ?_
  rw [Nat.zero_add]

theorem rawTotal_le {es : List (Elem N)} (h : ∀ e ∈ es, IsText e) :
    rawTotal es ≤ (concat es).length ∧
      (rawTotal es = (concat es).length ↔ ∀ e ∈ es, isNumber e = false) := by
  induction es with
  | nil => exact ⟨Nat.le_refl _, ⟨fun _ e he => absurd he List.not_mem_nil, fun _ => rfl⟩⟩
  | cons e es ih =>
    obtain ⟨hle, hiff⟩ := rawlen_le (h e List.mem_cons_self)
    obtain ⟨hrest, hiffRest⟩ := ih fun e he => h e (List.mem_cons_of_mem _ he)
    have hsum : rawTotal (e :: es) = luaRawlen e + rawTotal es := by
      rw [rawTotal, List.map_cons, List.sum_cons, rawTotal]
    rw [hsum, concat_cons, List.length_append, List.forall_mem_cons, ← hiff, ← hiffRest]
    omega

end Lengths

/-! ## The two passes -/

section Passes

variable [LuaNumber N] {k : Nat}

theorem run_luaLChecklstring {e : Elem N} (he : IsText e) (h : Heap) : luaLChecklstring e h =
    .ret (text e) h := by
  rw [luaLChecklstring, bytes_of_isText he]
  rfl

theorem run_checkedSize : ∀ {es : List (Elem N)} (n : Nat) (h : Heap), (∀ e ∈ es, IsText e) →
    checkedSize es (n % 2 ^ 64) h = .ret ((n + (concat es).length) % 2 ^ 64) h := by
  intro es
  induction es with
  | nil => intro n h _; rfl
  | cons e es ih =>
    intro n h hes
    rw [checkedSize, Lua.run_bind, run_luaLChecklstring (hes e List.mem_cons_self), Lua.andThen_ret,
      Nat.mod_add_mod,
      ih _ h fun e he => hes e (List.mem_cons_of_mem _ he), concat_cons, List.length_append, Nat.add_assoc]

theorem run_copyParts_cons {e : Elem N} (he : IsText e) (es : List (Elem N)) (pos : Nat) (h : Heap) :
    copyParts k (e :: es) pos h =
      copyParts k es ((pos + (text e).length) % 2 ^ 64) (h.store (addr k) pos (text e)) := by
  rw [copyParts, Lua.run_bind, run_luaLChecklstring he, Lua.andThen_ret, Lua.run_bind, Lua.run_modify,
    Lua.andThen_ret]

/-- The second pass keeps the size of the message. -/
theorem size_copyParts : ∀ {es : List (Elem N)} (pos : Nat) (h : Heap), (∀ e ∈ es, IsText e) →
    ∃ h', copyParts k es pos h = .ret () h' ∧ h'.size (addr k) = h.size (addr k) := by
  intro es
  induction es with
  | nil => intro pos h _; exact ⟨h, rfl, rfl⟩
  | cons e es ih =>
    intro pos h hes
    obtain ⟨h', hrun, hsize⟩ := ih ((pos + (text e).length) % 2 ^ 64) (h.store (addr k) pos (text e))
      fun e he => hes e (List.mem_cons_of_mem _ he)
    refine ⟨h', ?_, ?_⟩
    · rw [run_copyParts_cons (hes e List.mem_cons_self), hrun]
    · rw [hsize, Heap.size, Heap.data_store, length_overwrite, Heap.size]

/-- A message that has room for all parts holds them afterwards, behind what has been there. -/
theorem data_copyParts : ∀ {es : List (Elem N)} (pre rest : List UInt8) (h : Heap), (∀ e ∈ es, IsText e) →
    h.data (addr k) = pre ++ rest → rest.length = (concat es).length → pre.length + rest.length < 2 ^ 64 →
    ∃ h', copyParts k es pre.length h = .ret () h' ∧ h'.part = h.part ∧ h'.data (addr k) = pre ++ concat es ∧
      h'.overrun = h.overrun := by
  intro es
  induction es with
  | nil =>
    intro pre rest h _ hdata hlen _
    obtain rfl : rest = [] := List.length_eq_zero_iff.mp hlen
    exact ⟨h, rfl, rfl, hdata, rfl⟩
  | cons e es ih =>
    intro pre rest h hes hdata hlen hsize
    rw [concat_cons, List.length_append] at hlen
    have hpos : (pre ++ text e).length = (pre.length + (text e).length) % 2 ^ 64 := by
      rw [List.length_append, Nat.mod_eq_of_lt (by omega)]
    have hfits : Fits (h.size (addr k)) pre.length (text e).length := by
      rw [Heap.size, hdata, List.length_append]
      exact ⟨by omega, by omega⟩
    obtain ⟨h', hrun, hpart, hdata', hclean⟩ := ih (pre ++ text e) (rest.drop (text e).length)
      (h.store (addr k) pre.length (text e)) (fun e he => hes e (List.mem_cons_of_mem _ he))
      (by rw [Heap.data_store, hdata, overwrite_append _ _ (by omega)])
      (by rw [List.length_drop]; omega) (by rw [List.length_append, List.length_drop]; omega)
    refine ⟨h', ?_, hpart, ?_, ?_⟩
    · rw [run_copyParts_cons (hes e List.mem_cons_self), ← hpos, hrun]
    · rw [hdata', concat_cons, List.append_assoc]
    · rw [hclean, Heap.overrun_store hfits]

end Passes

/-! ## Both functions -/

section Both

variable [LuaNumber N] {k : Nat} {h : Heap}

/-- A call that returns a message with the given content, having copied inside of it only. -/
def Builds (k : Nat) (h : Heap) (content : List UInt8) (r : Ending Heap Reply) : Prop :=
  ∃ h', r = .ret .pass h' ∧ h'.isOpen (addr k) = true ∧ h'.data (addr k) = content ∧ h'.overrun = h.overrun

theorem run_initParts (junk : Nat → UInt8) {es : List (Elem N)} {size : Nat} (hsize : size ≠ 0) {h' : Heap}
    (hcopy : copyParts k es 0 (h.init (addr k) (uninit junk size)) = .ret () h') :
    initParts ⟨none, junk⟩ k size es h = .ret .pass h' := by
  refine (congrFun (if_neg hsize) h).trans ?_
  show Lua.andThen (copyParts k es 0 (h.init (addr k) (uninit junk size))) _ = _
  rw [hcopy]
  rfl

/-- With the second pass as it is, all depends on the size that the first one has found. -/
theorem initParts_builds_iff (junk : Nat → UInt8) {es : List (Elem N)} (hes : ∀ e ∈ es, IsText e) {size : Nat}
    (hsize : size < 2 ^ 64) :
    Builds k h (concat es) (initParts ⟨none, junk⟩ k size es h) ↔ size = (concat es).length := by
  by_cases hzero : size = 0
  · -- no second pass
    rw [initParts, if_pos hzero, hzero]
    have hdata : (h.init (addr k) []).data (addr k) = [] := Heap.data_new _ _ _ _
    constructor
    · rintro ⟨h', hrun, -, hcontent, -⟩
      obtain rfl : h.init (addr k) [] = h' := by cases hrun; rfl
      rw [← hcontent, hdata]
      rfl
    · intro hlen
      refine ⟨h.init (addr k) [], rfl, Heap.isOpen_new _ _ _ _, ?_, rfl⟩
      rw [hdata, List.eq_nil_of_length_eq_zero hlen.symm]
  · have hdata : (h.init (addr k) (uninit junk size)).data (addr k) = uninit junk size :=
      Heap.data_new _ _ _ _
    constructor
    · rintro ⟨g, hg, -, hcontent, -⟩
      obtain ⟨h', hcopy, hsame⟩ := size_copyParts (k := k) 0 (h.init (addr k) (uninit junk size)) hes
      obtain rfl : h' = g := by
        have heq := (run_initParts junk hzero hcopy).symm.trans hg
        cases heq
        rfl
      rw [Heap.size, Heap.size, hcontent, hdata, length_uninit] at hsame
      exact hsame.symm
    · intro hlen
      obtain ⟨h', hcopy, hpart, hcontent, hclean⟩ := data_copyParts (k := k) [] (uninit junk size)
        (h.init (addr k) (uninit junk size)) hes hdata (by rw [length_uninit, hlen])
        (by rw [length_uninit, List.length_nil]; omega)
      refine ⟨h', run_initParts junk hzero hcopy, ?_, hcontent, hclean⟩
      rw [Heap.isOpen, hpart]
      exact Heap.isOpen_new _ _ _ _

end Both

/-! ## Arrays -/

section Arrays

variable [LuaNumber N]

/-- An array of strings and numbers. -/
structure TextArray (N : Type) [LuaNumber N] where
  table : LuaTable (Elem N)
  isText : ∀ e ∈ elems table table.border 1, IsText e

def TextArray.elems (a : TextArray N) : List (Elem N) := CApi.elems a.table a.table.border 1

/-- **Two functions, one message**, and in bounds, iff no element is a number (and the size is a `size_t`). -/
theorem initData_iff (a : TextArray N) (k : Nat) (junk : Nat → UInt8) (h : Heap) :
    (Builds k h (concat a.elems) (luazmqMsgInitDataArray ⟨none, junk⟩ k a.table h) ∧
      Builds k h (concat a.elems) (luazmqMsgInitDataMulti ⟨none, junk⟩ k a.elems h)) ↔
    (∀ e ∈ a.elems, isNumber e = false) ∧ (concat a.elems).length < 2 ^ 64 := by
  have htext : ∀ e ∈ a.elems, IsText e := a.isText
  obtain ⟨hle, hiff⟩ := rawTotal_le htext
  have hmulti : luazmqMsgInitDataMulti ⟨none, junk⟩ k a.elems h =
      initParts ⟨none, junk⟩ k ((concat a.elems).length % 2 ^ 64) a.elems h := by
    have hcheck := run_checkedSize 0 h htext
    rw [Nat.zero_mod, Nat.zero_add] at hcheck
    rw [luazmqMsgInitDataMulti, Lua.run_bind, hcheck, Lua.andThen_ret]
  have harray : luazmqMsgInitDataArray ⟨none, junk⟩ k a.table h =
      initParts ⟨none, junk⟩ k (rawTotal a.elems % 2 ^ 64) a.elems h := by
    rw [← rawSize_eq]
    rfl
  have hpos : 0 < 2 ^ 64 := Nat.two_pow_pos 64
  rw [hmulti, harray, initParts_builds_iff junk htext (Nat.mod_lt _ hpos),
    initParts_builds_iff junk htext (Nat.mod_lt _ hpos), ← hiff]
  constructor
  · rintro ⟨hraw, hchecked⟩
    -- the size that multi has found is below 2^64, and it is the length of the concatenation
    have hlt : (concat a.elems).length < 2 ^ 64 := by
      rw [← hchecked]
      exact Nat.mod_lt _ hpos
    refine ⟨?_, hlt⟩
    rw [Nat.mod_eq_of_lt (Nat.lt_of_le_of_lt hle hlt)] at hraw
    exact hraw
  · rintro ⟨heq, hlt⟩
    rw [show rawTotal a.elems = (concat a.elems).length from heq]
    exact ⟨Nat.mod_eq_of_lt hlt, Nat.mod_eq_of_lt hlt⟩

end Arrays

/-- `{"a", 1}` -/
def letterDigit : TextArray Int where
  table := (LuaTable.empty.set 1 (some (.str [97]))).set 2 (some (.num 1))
  isText := by decide

/-- The digit of `{"a", 1}` is written behind the message, which has been made for one byte. -/
theorem letterDigit_overrun :
    ¬ Builds 0 Heap.empty (concat letterDigit.elems)
      (luazmqMsgInitDataArray ⟨none, fun _ => 0⟩ 0 letterDigit.table Heap.empty) ∧
    ∃ h, luazmqMsgInitDataArray ⟨none, fun _ => 0⟩ 0 letterDigit.table Heap.empty = .ret .pass h ∧
      h.overrun = true := by
  refine ⟨?_, _, rfl, by decide⟩
  rintro ⟨h, hrun, -, -, hclean⟩
  cases hrun
  exact absurd hclean (by decide)

end Lzmq.CMessage
