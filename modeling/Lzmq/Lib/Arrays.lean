/-
  Arrays of fixed lengths, and whether the accesses to them stay inside.

  An array is known by a reference, and nil refers to none.  Every access is noted with its index and the
  length of the array it is in.  An access that leaves its array is only noted: a write is lost, and what is
  read is up to the reader.

  Arrays are not freed.  A garbage collector frees those that nobody refers to, which makes no difference.
-/
import Mathlib.Logic.Function.Basic
import Mathlib.Data.List.Basic

namespace Lzmq.Arrays

/-- An access at `index`, in an array of the given length. -/
structure Access where
  index : Nat
  length : Nat
deriving DecidableEq, Repr

def Access.Inside (x : Access) : Prop := x.index < x.length

instance (x : Access) : Decidable x.Inside := inferInstanceAs (Decidable (_ < _))

structure Mem (B : Type) where
  cells : Nat → List B
  /-- Arrays from here on have not been made yet. -/
  next : Nat
  log : List Access

namespace Mem

variable {B : Type}

def empty : Mem B := ⟨fun _ => [], 0, []⟩

/-- What a reference refers to. -/
def get (m : Mem B) : Option Nat → List B
  | none => []
  | some a => m.cells a

/-- A new array, which is referred to by `m.next`. -/
def alloc (m : Mem B) (bs : List B) : Mem B := ⟨Function.update m.cells m.next bs, m.next + 1, m.log⟩

/-- An access is noted. -/
def touch (m : Mem B) (r : Option Nat) (i : Nat) : Mem B := { m with log := m.log ++ [⟨i, (m.get r).length⟩] }

/-- The same for the first `n` positions. -/
def touchFirst (m : Mem B) (r : Option Nat) (n : Nat) : Mem B :=
  { m with log := m.log ++ (List.range n).map fun i => ⟨i, (m.get r).length⟩ }

/-- The contents of an array change. -/
def put (m : Mem B) (r : Option Nat) (f : List B → List B) : Mem B :=
  match r with
  | none => m
  | some a => { m with cells := Function.update m.cells a (f (m.cells a)) }

/-- A write. -/
def set (m : Mem B) (r : Option Nat) (i : Nat) (f : B → B) : Mem B := (m.touch r i).put r fun bs => bs.modify i f

/-- `memcpy` of the first `n` positions. -/
def copy (m : Mem B) (dst src : Option Nat) (n : Nat) : Mem B :=
  ((m.touchFirst src n).touchFirst dst n).put dst fun bs => (m.get src).take n ++ bs.drop n

/-! ## What is left alone -/

/-- The array has been made, if there is one. -/
def Made (m : Mem B) (r : Option Nat) : Prop := ∀ a, r = some a → a < m.next

/-- Arrays keep their lengths, and all accesses are inside. -/
structure Extends (m m' : Mem B) : Prop where
  next : m.next ≤ m'.next
  length : ∀ a < m.next, (m'.cells a).length = (m.cells a).length
  log : ∀ x ∈ m'.log, x ∈ m.log ∨ x.Inside

section Extends

variable {m m' m'' : Mem B} {r : Option Nat} {n i : Nat}

theorem made_none (m : Mem B) : m.Made none := fun _ h => by cases h

theorem Extends.refl (m : Mem B) : Extends m m := ⟨Nat.le_refl _, fun _ _ => rfl, fun _ h => .inl h⟩

theorem Extends.trans (h : Extends m m') (h' : Extends m' m'') : Extends m m'' where
  next := Nat.le_trans h.next h'.next
  length a ha := (h'.length a (Nat.lt_of_lt_of_le ha h.next)).trans (h.length a ha)
  log x hx := (h'.log x hx).elim (h.log x) .inr

theorem Made.mono (h : m.Made r) (hext : Extends m m') : m'.Made r :=
  fun a ha => Nat.lt_of_lt_of_le (h a ha) hext.next

theorem Extends.get (hext : Extends m m') (h : m.Made r) : (m'.get r).length = (m.get r).length := by
  cases r with
  | none => rfl
  | some a => exact hext.length a (h a rfl)

theorem extends_alloc (bs : List B) : Extends m (m.alloc bs) where
  next := Nat.le_succ _
  length a ha := by
    show (Function.update m.cells m.next bs a).length = _
    rw [Function.update_of_ne (Nat.ne_of_lt ha)]
  log _ hx := .inl hx

/-- A new array, and what it leaves alone. -/
theorem get_alloc_self (m : Mem B) (bs : List B) : (m.alloc bs).get (some m.next) = bs := Function.update_self ..

theorem get_alloc (bs : List B) (h : m.Made r) : (m.alloc bs).get r = m.get r := by
  cases r with
  | none => rfl
  | some a => exact Function.update_of_ne (Nat.ne_of_lt (h a rfl)) ..

theorem extends_touch (hi : i < (m.get r).length) : Extends m (m.touch r i) where
  next := Nat.le_refl _
  length _ _ := rfl
  log x hx := by
    rcases List.mem_append.mp hx with hx | hx
    · exact .inl hx
    · rw [List.mem_singleton.mp hx]
      exact .inr hi

theorem extends_touchFirst (hn : n ≤ (m.get r).length) : Extends m (m.touchFirst r n) where
  next := Nat.le_refl _
  length _ _ := rfl
  log x hx := by
    rcases List.mem_append.mp hx with hx | hx
    · exact .inl hx
    · obtain ⟨i, hi, rfl⟩ := List.mem_map.mp hx
      exact .inr (Nat.lt_of_lt_of_le (List.mem_range.mp hi) hn)

theorem get_put (r : Option Nat) {f : List B → List B} (hf : f [] = []) : (m.put r f).get r = f (m.get r) := by
  cases r with
  | none => exact hf.symm
  | some a => exact Function.update_self ..

theorem extends_put {f : List B → List B} (hf : (f (m.get r)).length = (m.get r).length) :
    Extends m (m.put r f) := by
  cases r with
  | none => exact .refl m
  | some a =>
    refine ⟨Nat.le_refl _, fun b _ => ?_, fun _ hx => .inl hx⟩
    show (Function.update m.cells a (f (m.cells a)) b).length = (m.cells b).length
    by_cases hba : b = a
    · rw [hba, Function.update_self]
      exact hf
    · rw [Function.update_of_ne hba]

theorem extends_set (f : B → B) (hi : i < (m.get r).length) : Extends m (m.set r i f) :=
  (extends_touch hi).trans (extends_put (List.length_modify ..))

theorem get_set (f : B → B) (hi : i < (m.get r).length) :
    (m.set r i f).get r = (m.get r).set i (f (m.get r)[i]) :=
  (get_put r (List.modify_nil ..)).trans (List.modify_eq_set_get f hi)

/-- A copy within both arrays. -/
theorem extends_copy {dst src : Option Nat} (hdst : n ≤ (m.get dst).length) (hsrc : n ≤ (m.get src).length) :
    Extends m (m.copy dst src n) := by
  refine ((extends_touchFirst hsrc).trans (extends_touchFirst hdst)).trans (extends_put ?_)
  show ((m.get src).take n ++ (m.get dst).drop n).length = (m.get dst).length
  rw [List.length_append, List.length_take, List.length_drop]
  omega

theorem get_copy {dst : Option Nat} (src : Option Nat) (hsome : dst ≠ none) :
    (m.copy dst src n).get dst = (m.get src).take n ++ (m.get dst).drop n := by
  obtain ⟨a, rfl⟩ := Option.ne_none_iff_exists'.mp hsome
  exact Function.update_self ..

end Extends

end Mem

end Lzmq.Arrays
