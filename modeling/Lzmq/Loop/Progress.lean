/-
  The loop's own code never fails.

  `timer:rest` raises an error for a timer that was not set, `event_list:fire` has two assertions, and
  every call of the loop relies on being returned to with the kind of value it waits for.  None of these
  can go wrong: events are set before they are listed (`Inv.setted`), the assertions follow from what
  `restart` does (`TimeEvent.afterFire_eq`), and the frames of the stack fit on one another (`Nested`).
-/
import Lzmq.Loop.Invariant

namespace Lzmq.Loop

open Lzmq.Steps

/-! ## Stacks -/

/-- Who may call a function: user code, and `sleep_ex` or `start` for the functions they call. -/
def CanCall : Call → List Frame → Prop
  | .poll _, st => inUser st = true ∨ ∃ interval start c st', st = .sleepEx interval start c :: st'
  | .sleepEx _, st => inUser st = true ∨ ∃ ms fn st', st = .start ms fn false :: st'
  | .flush _, st => inUser st = true
  | .start _, st => inUser st = true

/-- Every frame was called from the one below it. -/
def Nested : List Frame → Prop
  | [] => True
  | .poll _ :: st => CanCall (.poll 0) st ∧ Nested st
  | .fire .. :: st => (∃ n st', st = .poll (some n) :: st') ∧ Nested st
  | .sleepEx .. :: st => CanCall (.sleepEx 0) st ∧ Nested st
  | .flush .. :: st => CanCall (.flush none) st ∧ Nested st
  | .start .. :: st => CanCall (.start none) st ∧ Nested st

/-- The top frame waits for a call that returns `cnt`. -/
def Waits : List Frame → Option Nat → Prop
  | .poll (some _) :: _, cnt => cnt ≠ none
  | .sleepEx .. :: _, _ => True
  | .start _ _ false :: _, _ => True
  | st, _ => inUser st = true

theorem Nested.drop : ∀ (n : Nat) (st : List Frame), Nested st → Nested (st.drop n) := by
  intro n
  induction n with
  | zero => intro st h; exact h
  | succ n ih =>
    intro st h
    cases st with
    | nil => trivial
    | cons f st => cases f <;> exact ih st h.2

theorem waits_of_inUser {st : List Frame} (h : inUser st = true) (cnt : Option Nat) : Waits st cnt := by
  cases st with
  | nil => exact h
  | cons f st =>
    cases f with
    | poll cnt' =>
      cases cnt' with
      | none => exact h
      | some n => cases h
    | fire i cnt' ev => exact h
    | sleepEx interval start c => trivial
    | flush interval start c => exact h
    | start ms fn running =>
      cases running with
      | false => trivial
      | true => exact h

/-- Whoever may call a function can be returned to. -/
theorem CanCall.waits {f : Call} {st : List Frame} (h : CanCall f st) (cnt : Option Nat) : Waits st cnt := by
  cases f with
  | poll interval =>
    rcases h with h | ⟨_, _, _, _, rfl⟩
    · exact waits_of_inUser h cnt
    · trivial
  | sleepEx interval =>
    rcases h with h | ⟨_, _, _, rfl⟩
    · exact waits_of_inUser h cnt
    · trivial
  | flush interval => exact waits_of_inUser h cnt
  | start ms => exact waits_of_inUser h cnt

/-! ## Control -/

/-- Who is in control fits the stack. -/
def Ctl.Fits : Ctl → List Frame → Prop
  | .user, st => inUser st = true
  | .call f, st => CanCall f st
  | .fire, st => ∃ i cnt st', st = .fire i cnt none :: st'
  | .ret cnt, st => Waits st cnt

/-- Holds in every reachable state. -/
structure Controlled (s : State) : Prop where
  nested : Nested s.stack
  fits : s.ctl.Fits s.stack

theorem controlled_startAgain {s : State} {ms : Int} {fn running : Bool} {st : List Frame}
    (h : Nested (.start ms fn running :: st)) : Controlled (s.startAgain ms fn st) := by
  unfold State.startAgain
  split
  · exact ⟨h.2, h.1.waits none⟩
  · exact ⟨h, Or.inr ⟨ms, fn, st, rfl⟩⟩

theorem begin_controlled {msec : Int} {s s' : State} {clk : Nat → Clock} {f : Call} (h : Nested s.stack)
    (hf : CanCall f s.stack) (hs : s.begin msec clk f = some s') : Controlled s' := by
  cases f with
  | poll interval =>
    dsimp only [State.begin] at hs
    split at hs
    · cases hs
      exact ⟨h, hf.waits none⟩
    · split at hs <;> cases hs
      exact ⟨⟨hf, h⟩, rfl⟩
  | sleepEx interval =>
    cases hs
    exact ⟨⟨hf, h⟩, Or.inr ⟨_, _, _, _, rfl⟩⟩
  | flush interval =>
    dsimp only [State.begin] at hs
    split at hs <;> cases hs
    · exact ⟨h, hf.waits none⟩
    · exact ⟨⟨hf, h⟩, rfl⟩
  | start ms =>
    cases hs
    exact ⟨⟨hf, h⟩, Or.inr ⟨_, _, _, rfl⟩⟩

theorem fireStep_controlled {s s' : State} {c : Clock} (h : Nested s.stack)
    (hctl : s.ctl = .fire) (hs : s.fireStep c = some s') : Controlled s' := by
  unfold State.fireStep at hs
  split at hs
  · rename_i i cnt st hstack
    rw [hstack] at h
    obtain ⟨⟨n, st', rfl⟩, hbelow⟩ := h
    have hfire : ∀ i' cnt', Nested (.fire i' cnt' none :: .poll (some n) :: st') := fun _ _ =>
      ⟨⟨n, st', rfl⟩, hbelow⟩
    split at hs
    · cases hs
      exact ⟨hbelow, nofun⟩
    · split at hs
      · cases hs
        exact ⟨hfire _ _, by rw [hctl]; exact ⟨_, _, _, rfl⟩⟩
      · split at hs
        · split at hs
          · cases hs
          · split at hs <;> cases hs
            · exact ⟨⟨⟨n, st', rfl⟩, hbelow⟩, rfl⟩
            · exact ⟨hfire _ _, by rw [hctl]; exact ⟨_, _, _, rfl⟩⟩
        · cases hs
          refine ⟨by rw [hstack]; exact hfire _ _, ?_⟩
          rw [hctl, hstack]
          exact ⟨_, _, _, rfl⟩
  · cases hs

theorem resume_controlled {s s' : State} {c : Clock} {cnt : Option Nat} (h : Nested s.stack)
    (hs : s.resume c cnt = some s') : Controlled s' := by
  unfold State.resume at hs
  split at hs
  · rename_i hstack
    rw [hstack] at h
    cases hs
    exact ⟨h.2, h.1.waits _⟩
  · rename_i hstack
    rw [hstack] at h
    cases hs
    exact ⟨h.2, h.1.waits _⟩
  · rename_i hstack
    rw [hstack] at h
    dsimp only at hs
    split at hs <;> cases hs
    · exact ⟨h.2, h.1.waits _⟩
    · exact ⟨h, Or.inr ⟨_, _, _, _, rfl⟩⟩
  · rename_i hstack
    rw [hstack] at h
    cases hs
    exact ⟨h.2, h.1.waits _⟩
  · rename_i hstack
    rw [hstack] at h
    split at hs <;> cases hs
    · exact ⟨h, rfl⟩
    · exact controlled_startAgain h
  · split at hs
    · rename_i huser
      cases hs
      exact ⟨h, huser⟩
    · cases hs

theorem pollerRet_controlled {s s' : State} {c : Clock} {cnt : Option Nat} (h : Nested s.stack)
    (hctl : s.ctl = .user) (hs : s.pollerRet c cnt = some s') : Controlled s' := by
  unfold State.pollerRet at hs
  split at hs
  · rename_i hstack
    rw [hstack] at h
    cases hs
    exact ⟨h.2, h.1.waits _⟩
  · rename_i hstack
    rw [hstack] at h
    split at hs <;> cases hs
    · exact ⟨h.2, h.1.waits _⟩
    · exact ⟨⟨⟨_, _, rfl⟩, h⟩, ⟨_, _, _, rfl⟩⟩
  · rename_i hstack
    rw [hstack] at h
    cases hs
    exact ⟨h.2, h.1.waits _⟩
  · rename_i hstack
    rw [hstack] at h
    dsimp only at hs
    split at hs <;> cases hs
    · exact ⟨h.2, h.1.waits _⟩
    · exact ⟨h, by rw [hctl]; rfl⟩
  · cases hs

theorem leave_controlled {s s' : State} {c : Clock} (h : Nested s.stack) (hs : s.leave c = some s') :
    Controlled s' := by
  unfold State.leave at hs
  split at hs
  · rename_i hstack
    rw [hstack] at h
    split at hs <;> cases hs
    exact ⟨h, ⟨_, _, _, rfl⟩⟩
  · rename_i hstack
    rw [hstack] at h
    cases hs
    exact controlled_startAgain h
  · cases hs

theorem onEvent_controlled {s s' : State} {e : Nat} {f : TimeEvent → Except String TimeEvent}
    (h : Controlled s) (hs : s.onEvent e f = some s') : Controlled s' := by
  rcases onEvent_cases hs with rfl | ⟨-, ev, -, rfl⟩
  · exact h
  · exact ⟨h.nested, h.fits⟩

/-- **One move.** -/
theorem Controlled.step {msec : Int} {s s' : State} {m : Move} (h : Controlled s)
    (hstep : Loop.step msec s m = some s') : Controlled s' := by
  have hfits := h.fits
  unfold Loop.step at hstep
  split at hstep
  · unfold State.tick at hstep
    split at hstep
    · cases hstep
    · rename_i f hctl
      rw [hctl] at hfits
      exact begin_controlled h.nested hfits hstep
    · rename_i hctl
      exact fireStep_controlled h.nested hctl hstep
    · exact resume_controlled h.nested hstep
  · split at hstep
    · rename_i hctl
      rw [hctl] at hfits
      generalize m.act = act at hstep
      cases act with
      | addTime tm | addInterval interval | addOnce interval | interrupt =>
        cases hstep
        exact ⟨h.nested, h.fits⟩
      | arm e a | reset e | restart e =>
        dsimp only [State.user] at hstep
        exact onEvent_controlled h hstep
      | call f =>
        cases hstep
        refine ⟨h.nested, ?_⟩
        cases f with
        | poll interval | sleepEx interval => exact Or.inl hfits
        | flush interval | start ms => exact hfits
      | leave => exact leave_controlled h.nested hstep
      | pollerRet cnt => exact pollerRet_controlled h.nested hctl hstep
      | throw n =>
        dsimp only [State.user] at hstep
        split at hstep
        · rename_i hn
          cases hstep
          refine ⟨Nested.drop n s.stack h.nested, ?_⟩
          rw [hctl]
          exact hn.2
        · cases hstep
      | tick => cases hstep
    · cases hstep

theorem controlled_init : Controlled init := ⟨trivial, rfl⟩

/-! ## Progress -/

/-- `sleep_interval` raises no error for events that were set. -/
theorem sleepIntervalFrom_isOk {evs : Nat → TimeEvent} (clk : Nat → Clock) : ∀ (es : List Nat) (i : Nat)
    (minInterval : Int), (∀ e ∈ es, (evs e).timer.setted = true) →
    ∃ t, sleepIntervalFrom evs clk i es minInterval = .ok t := by
  intro es
  induction es with
  | nil => intro i minInterval _; exact ⟨_, rfl⟩
  | cons x es ih =>
    intro i minInterval h
    have hrest : ∀ e ∈ es, (evs e).timer.setted = true := fun e he => h e (List.mem_cons_of_mem x he)
    unfold sleepIntervalFrom
    split
    · rename_i hlive
      obtain ⟨int, hint⟩ := timerRest_isOk (clk i) hlive.2 (h x List.mem_cons_self)
      rw [show (evs x).sleepInterval (clk i) = .ok int from hint]
      exact ih _ _ hrest
    · exact ih _ _ hrest

theorem begin_isSome {msec : Int} {s : State} {clk : Nat → Clock} (h : Inv s) (f : Call) :
    (s.begin msec clk f).isSome = true := by
  cases f with
  | poll interval =>
    dsimp only [State.begin]
    split
    · rfl
    · obtain ⟨t, ht⟩ := sleepIntervalFrom_isOk clk s.events 0 interval
        fun e he => h.setted e (h.fresh e he)
      rw [show s.sleepInterval clk interval = .ok t from ht]
      rfl
  | sleepEx interval => rfl
  | flush interval =>
    dsimp only [State.begin]
    split <;> rfl
  | start ms => rfl

theorem fireStep_isSome {s : State} (h : Inv s) (hfits : ∃ i cnt st, s.stack = .fire i cnt none :: st)
    (c : Clock) : (s.fireStep c).isSome = true := by
  obtain ⟨i, cnt, st, hstack⟩ := hfits
  unfold State.fireStep
  rw [hstack]
  dsimp only
  split
  · rfl
  · rename_i e he
    have hmem : e ∈ s.events := List.mem_of_getElem? he
    by_cases hlocked : (s.evs e).locked = true
    · rw [if_pos hlocked]
      rfl
    rw [if_neg hlocked]
    by_cases hstarted : (s.evs e).started = true
    · obtain ⟨int, hint⟩ := timerRest_isOk c hstarted (h.setted e (h.fresh e hmem))
      rw [if_pos hstarted, show (s.evs e).sleepInterval c = .ok int from hint]
      dsimp only
      split <;> rfl
    · rw [if_neg hstarted]
      rfl

theorem resume_isSome {s : State} {cnt : Option Nat} (h : Waits s.stack cnt) (c : Clock) :
    (s.resume c cnt).isSome = true := by
  unfold State.resume
  generalize s.stack = st at h ⊢
  cases st with
  | nil => rfl
  | cons f st =>
    cases f with
    | poll cnt' =>
      cases cnt' with
      | none => rfl
      | some n =>
        cases cnt with
        | none => exact absurd rfl h
        | some cnt => rfl
    | fire i cnt' ev =>
      cases ev with
      | none => cases h
      | some e => rfl
    | sleepEx interval start total =>
      cases cnt with
      | none => rfl
      | some cnt =>
        dsimp only
        split <;> rfl
    | flush interval start total => rfl
    | start ms fn running =>
      cases running with
      | true => rfl
      | false =>
        cases cnt with
        | none => rfl
        | some cnt =>
          dsimp only
          split <;> rfl

/-- **The loop never raises.**  In every reachable state: when the loop's code is in control it has a
    next step, and when the callback of an event returns, what `fire` does next succeeds. -/
theorem loop_never_raises {msec : Int} {ms : List Move} {s : State} (h : run (step msec) init ms = some s)
    (clk : Nat → Clock) :
    (s.ctl ≠ .user → (step msec s ⟨.tick, clk⟩).isSome = true) ∧
    (s.ctl = .user → ∀ i cnt e st, s.stack = .fire i cnt (some e) :: st →
      (step msec s ⟨.leave, clk⟩).isSome = true) := by
  have hinv := run_inv h
  have hcontrol : Controlled s :=
    run_invariant (step msec) (fun _ _ _ h hstep => h.step hstep) ms init s controlled_init h
  have hfits := hcontrol.fits
  constructor
  · intro hctl
    unfold step
    rw [if_pos rfl]
    unfold State.tick
    split
    · rename_i huser
      exact absurd huser hctl
    · exact begin_isSome hinv _
    · rename_i hfire
      rw [hfire] at hfits
      exact fireStep_isSome hinv hfits _
    · rename_i hret
      rw [hret] at hfits
      exact resume_isSome hfits _
  · intro hctl i cnt e st hstack
    unfold step
    rw [if_neg (by rintro ⟨⟩), if_pos hctl]
    show (s.leave (clk 0)).isSome = true
    unfold State.leave
    rw [hstack]
    dsimp only
    rcases (s.evs e).unlock.afterFire_eq (clk 0) with ⟨-, -, heq⟩ | ⟨-, heq⟩ <;> rw [heq] <;> rfl

end Lzmq.Loop
