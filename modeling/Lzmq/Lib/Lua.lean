/-
  Code that runs inside a Lua state: it changes a state and returns, raises a Lua error (in the state
  reached so far), or aborts the process (a C assertion fails).

  `Lua σ α` is the monad of such code.  Every operation comes with the lemma that runs it on a state, so
  that a proof steps through a function by `simp` and never opens the monad.  `pcall` turns an error into
  a result; an abort goes through it.
-/
import Mathlib.Logic.Basic

namespace Lzmq

/-- How code ends. -/
inductive Ending (σ α : Type)
  | ret (a : α) (s : σ)
  | raise (s : σ)
  | abort

/-- Code over the state `σ` that returns an `α`. -/
def Lua (σ α : Type) : Type := σ → Ending σ α

namespace Lua

variable {σ α β : Type}

/-- Go on after code that returned. -/
def andThen (r : Ending σ α) (f : α → Lua σ β) : Ending σ β :=
  match r with
  | .ret a s => f a s
  | .raise s => .raise s
  | .abort => .abort

instance : Monad (Lua σ) where
  pure a := fun s => .ret a s
  bind x f := fun s => andThen (x s) f

/-- `lua_error` -/
def raise : Lua σ α := fun s => .raise s

/-- C's `assert` -/
def assert (p : Prop) [Decidable p] : Lua σ Unit := fun s => if p then .ret () s else .abort

def read (f : σ → α) : Lua σ α := fun s => .ret (f s) s

def modify (f : σ → σ) : Lua σ Unit := fun s => .ret () (f s)

/-- `lua_pcall`: whether the code returned. -/
def pcall (x : Lua σ Unit) : Lua σ Bool := fun s =>
  match x s with
  | .ret _ s => .ret true s
  | .raise s => .ret false s
  | .abort => .abort

/-- Code under `pcall`, with a note of whether it returned. -/
def attempt (x : Lua σ Unit) (note : Bool → σ → σ) : Lua σ Unit := do
  let ok ← pcall x
  modify (note ok)

/-- The state after code that an error does not end; `none` when it aborts. -/
def after (x : Lua σ α) : σ → Option σ := fun s =>
  match x s with
  | .ret _ s => some s
  | .raise s => some s
  | .abort => none

/-- The state after code that returned. -/
def returned (x : Lua σ α) : σ → Option σ := fun s =>
  match x s with
  | .ret _ s => some s
  | .raise _ => none
  | .abort => none

/-- Code that answers the same in two states, and changes neither. -/
def SameAnswer (x : Lua σ α) (s s' : σ) : Prop := ∃ a, x s = .ret a s ∧ x s' = .ret a s'

/-- `P` holds of the state that is left, if there is one. -/
def Leaves (P : σ → Prop) : Ending σ α → Prop
  | .ret _ s => P s
  | .raise s => P s
  | .abort => True

/-- From the state `s`, the code changed the state within `R`, and within `Q` as well if it returned. -/
def WithinAt (R Q : σ → σ → Prop) (s : σ) (r : Ending σ α) : Prop :=
  (∀ a s', r = .ret a s' → R s s' ∧ Q s s') ∧ ∀ s', r = .raise s' → R s s'

def Within (R : σ → σ → Prop) (x : Lua σ α) (Q : σ → σ → Prop) : Prop := ∀ s, WithinAt R Q s (x s)

/-! ## Running code -/

section Run

variable (s : σ)

@[simp] theorem andThen_ret (a : α) (f : α → Lua σ β) : andThen (.ret a s) f = f a s := rfl

@[simp] theorem andThen_raise (f : α → Lua σ β) : andThen (.raise s) f = .raise s := rfl

@[simp] theorem andThen_abort (f : α → Lua σ β) : andThen .abort f = .abort := rfl

theorem andThen_andThen {γ : Type} (r : Ending σ α) (f : α → Lua σ β) (g : β → Lua σ γ) :
    andThen (andThen r f) g = andThen r fun a => f a >>= g := by
  cases r with
  | ret a s => rfl
  | raise s => rfl
  | abort => rfl

@[simp] theorem run_pure (a : α) : (pure a : Lua σ α) s = .ret a s := rfl

@[simp] theorem run_bind (x : Lua σ α) (f : α → Lua σ β) : (x >>= f) s = andThen (x s) f := rfl

@[simp] theorem run_raise : (raise : Lua σ α) s = .raise s := rfl

@[simp] theorem run_read (f : σ → α) : read f s = .ret (f s) s := rfl

@[simp] theorem run_modify (f : σ → σ) : modify f s = .ret () (f s) := rfl

@[simp] theorem run_assert_of {p : Prop} [Decidable p] (h : p) : assert p s = .ret () s := if_pos h

theorem run_assert_of_not {p : Prop} [Decidable p] (h : ¬ p) : (assert p : Lua σ Unit) s = .abort := if_neg h

variable {s}

theorem run_pcall_ret {x : Lua σ Unit} {s' : σ} (h : x s = .ret () s') : pcall x s = .ret true s' := by
  rw [pcall, h]

theorem run_pcall_raise {x : Lua σ Unit} {s' : σ} (h : x s = .raise s') : pcall x s = .ret false s' := by
  rw [pcall, h]

theorem run_pcall_abort {x : Lua σ Unit} (h : x s = .abort) : pcall x s = .abort := by
  rw [pcall, h]

theorem run_attempt_ret {x : Lua σ Unit} {note : Bool → σ → σ} {s' : σ} (h : x s = .ret () s') :
    attempt x note s = .ret () (note true s') := by
  rw [attempt, run_bind, run_pcall_ret h, andThen_ret, run_modify]

theorem run_attempt_raise {x : Lua σ Unit} {note : Bool → σ → σ} {s' : σ} (h : x s = .raise s') :
    attempt x note s = .ret () (note false s') := by
  rw [attempt, run_bind, run_pcall_raise h, andThen_ret, run_modify]

theorem run_attempt_abort {x : Lua σ Unit} {note : Bool → σ → σ} (h : x s = .abort) :
    attempt x note s = .abort := by
  rw [attempt, run_bind, run_pcall_abort h, andThen_abort]

theorem after_of {x : Lua σ α} {s' : σ} (h : (∃ a, x s = .ret a s') ∨ x s = .raise s') :
    after x s = some s' := by
  rw [after]
  rcases h with ⟨a, h⟩ | h
  · rw [h]
  · rw [h]

theorem of_leaves {x : Lua σ α} {P : σ → Prop} {s' : σ} (hP : Leaves P (x s))
    (h : after x s = some s') : P s' := by
  rw [after] at h
  cases hx : x s with
  | ret a t =>
    rw [hx] at h hP
    exact Option.some.inj h ▸ hP
  | raise t =>
    rw [hx] at h hP
    exact Option.some.inj h ▸ hP
  | abort =>
    rw [hx] at h
    cases h

/-- Code that returns has returned from its first part. -/
theorem of_bind_ret {x : Lua σ α} {f : α → Lua σ β} {b : β} {s' : σ} (h : (x >>= f) s = .ret b s') :
    ∃ a u, x s = .ret a u ∧ f a u = .ret b s' := by
  rw [run_bind] at h
  cases hx : x s with
  | ret a u =>
    rw [hx] at h
    exact ⟨a, u, rfl, h⟩
  | raise u =>
    rw [hx] at h
    cases h
  | abort =>
    rw [hx] at h
    cases h

theorem sameAnswer_iff {x : Lua σ α} {s' : σ} {a a' : α} (h : x s = .ret a s) (h' : x s' = .ret a' s') :
    SameAnswer x s s' ↔ a' = a := by
  constructor
  · rintro ⟨b, hb, hb'⟩
    rw [h] at hb
    rw [h'] at hb'
    cases hb
    exact (Ending.ret.inj hb').1
  · rintro rfl
    exact ⟨a', h, h'⟩

/-- What every part of the code leaves true, the whole does. -/
theorem leaves_andThen {r : Ending σ α} {f : α → Lua σ β} {P : σ → Prop} (hr : Leaves P r)
    (hf : ∀ a s, P s → Leaves P (f a s)) : Leaves P (andThen r f) := by
  cases r with
  | ret a s => exact hf a s hr
  | raise s => exact hr
  | abort => trivial

theorem withinAt_ret {R Q : σ → σ → Prop} {a : α} {s' : σ} (hR : R s s') (hQ : Q s s') :
    WithinAt R Q s (.ret a s') := by
  refine ⟨fun b t h => ?_, fun t h => by cases h⟩
  obtain ⟨-, rfl⟩ := Ending.ret.inj h
  exact ⟨hR, hQ⟩

theorem withinAt_raise {R Q : σ → σ → Prop} {s' : σ} (hR : R s s') :
    WithinAt R Q s (.raise s' : Ending σ α) :=
  ⟨fun b t h => (by cases h), fun t h => Ending.raise.inj h ▸ hR⟩

theorem withinAt_abort {R Q : σ → σ → Prop} : WithinAt R Q s (.abort : Ending σ α) :=
  ⟨fun b t h => (by cases h), fun t h => by cases h⟩

theorem within_pure {R : σ → σ → Prop} (hR : ∀ s, R s s) (a : α) :
    Within R (pure a : Lua σ α) fun s s' => s' = s := fun s => withinAt_ret (hR s) rfl

theorem within_modify {R : σ → σ → Prop} {f : σ → σ} (h : ∀ s, R s (f s)) :
    Within R (modify f) fun s s' => s' = f s := fun s => withinAt_ret (h s) rfl

theorem Within.mono {R P Q : σ → σ → Prop} {x : Lua σ α} (h : Within R x P) (hPQ : ∀ s s', P s s' → Q s s') :
    Within R x Q := fun s =>
  ⟨fun a s' hs' => ⟨((h s).1 a s' hs').1, hPQ s s' ((h s).1 a s' hs').2⟩, (h s).2⟩

/-- The rule of sequences, for a transitive `R`. -/
theorem Within.bind {R P Q : σ → σ → Prop} (hR : ∀ s t u, R s t → R t u → R s u) {x : Lua σ α}
    {f : α → Lua σ β} (hx : Within R x P) (hf : ∀ a, Within R (f a) Q) :
    Within R (x >>= f) fun s s' => ∃ t, P s t ∧ R s t ∧ Q t s' ∧ R t s' := by
  intro s
  obtain ⟨hret, hraise⟩ := hx s
  rw [run_bind]
  cases hs : x s with
  | ret a t =>
    obtain ⟨hst, hP⟩ := hret a t hs
    obtain ⟨hret', hraise'⟩ := hf a t
    refine ⟨fun b s' h => ?_, fun s' h => hR s t s' hst (hraise' s' h)⟩
    obtain ⟨hts, hQ⟩ := hret' b s' h
    exact ⟨hR s t s' hst hts, t, hP, hst, hQ, hts⟩
  | raise t => exact withinAt_raise (hraise t hs)
  | abort => exact withinAt_abort

/-- Code of which only `R` matters. -/
theorem Within.any {R Q : σ → σ → Prop} {x : Lua σ α} (h : Within R x Q) : Within R x fun _ _ => True :=
  h.mono fun _ _ _ => trivial

/-- Under `pcall` code has returned, or there is a note that it raised. -/
theorem Within.attempt {R Q N : σ → σ → Prop} {x : Lua σ Unit} {note : Bool → σ → σ} (h : Within R x Q)
    (hok : ∀ s, note true s = s) (hraise : ∀ s t, R s t → R s (note false t) ∧ N s (note false t)) :
    Within R (attempt x note) fun s s' => Q s s' ∨ N s s' := by
  intro s
  cases hs : x s with
  | ret a t =>
    obtain ⟨hR, hQ⟩ := (h s).1 a t hs
    rw [run_attempt_ret hs, hok]
    exact withinAt_ret hR (Or.inl hQ)
  | raise t =>
    obtain ⟨hR, hN⟩ := hraise s t ((h s).2 t hs)
    rw [run_attempt_raise hs]
    exact withinAt_ret hR (Or.inr hN)
  | abort =>
    rw [run_attempt_abort hs]
    exact withinAt_abort

theorem Within.ret {R Q : σ → σ → Prop} {x : Lua σ α} (h : Within R x Q) {a : α} {s' : σ}
    (hs' : x s = .ret a s') : R s s' ∧ Q s s' := (h s).1 a s' hs'

theorem after_abort {x : Lua σ α} (h : x s = .abort) : after x s = none := by
  rw [after, h]

end Run

end Lua

end Lzmq
