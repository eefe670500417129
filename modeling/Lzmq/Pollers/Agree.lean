/-
  The C poller with its wrapper and the FFI poller agree.

  Both implement the same calls, each on a list of its own: after the first removal one array has shifted
  and the other has swapped, and the two lists are no longer in the same order.  Each stays a permutation
  of the registry that the calls describe, so they are permutations of each other, and the calls that a
  poll owes to them are the same up to their order.
-/
import Lzmq.Pollers.Shifted
import Lzmq.Pollers.Swapped

namespace Lzmq.Pollers

open Lzmq.Steps Lzmq.Assoc
open Lzmq.CPoller (PollerMt)
open Lzmq.FfiPoller (Poller)

variable {C : Type}

/-- What a caller can compare. -/
structure Agree (mt : PollerMt C) (p : Poller C) : Prop where
  /-- Both hold the same registrations, one for each socket, -/
  registrations : mt.registrations.Perm p.registrations
  unique : Unique mt.registrations
  /-- they are all that is counted, and the counts are the same, -/
  whole : mt.registrations.length = mt.poller.count
  count : mt.poller.count = p.nitems
  /-- and whatever is ready, a poll returns the same number and makes the same calls, one for each
      registration whose socket is ready. -/
  polls : ∀ ready, ∃ n calls calls', mt.polled ready = some (n, calls) ∧ p.polled ready = some (n, calls') ∧
    calls.Perm calls' ∧ (calls.map Prod.fst).Nodup ∧
    ∀ sock cb revents, (sock, cb, revents) ∈ calls ↔
      revents = ready sock ∧ ready sock ≠ 0 ∧ ∃ events, (sock, events, cb) ∈ mt.registrations

/-- The same call on both; `none` unless both return. -/
def pairStep (s : PollerMt C × Poller C) (c : Call C) : Option (PollerMt C × Poller C) :=
  (stepC s.1 c).bind fun mt => (stepFfi s.2 c).map fun p => (mt, p)

/-- Both keep the registry `l`, each in an order of its own. -/
structure Refine (s : PollerMt C × Poller C) (l : List (Registration C)) : Prop where
  unique : Unique l
  shifted : ∃ r, Shifted s.1 r ∧ r.Perm l
  swapped : ∃ r, Swapped s.2 r ∧ r.Perm l

theorem refine_new (n m : Nat) : Refine (PollerMt.new n, Poller.new m) ([] : List (Registration C)) where
  unique := unique_nil
  shifted := ⟨[], shifted_new n, List.Perm.refl _⟩
  swapped := ⟨[], swapped_new m, List.Perm.refl _⟩

/-- Two orders of one registry look the same. -/
theorem Refine.agree {s : PollerMt C × Poller C} {l : List (Registration C)} (h : Refine s l) :
    Agree s.1 s.2 := by
  obtain ⟨hu, ⟨r, hr, hp⟩, ⟨r', hr', hp'⟩⟩ := h
  have hrr : r.Perm r' := hp.trans hp'.symm
  have hur : Unique r := hu.perm hp.symm
  refine ⟨?_, ?_, ?_, ?_, fun ready => ?_⟩
  · rw [hr.registrations_eq, hr'.registrations_eq]
    exact hrr
  · rw [hr.registrations_eq]
    exact hur
  · rw [hr.registrations_eq, hr.length]
  · rw [← hr.length, ← hr'.length, hrr.length_eq]
  · -- both make the calls due, in their own order
    have hdue := due_perm ready hrr
    refine ⟨(due ready r).length, (due ready r).reverse, (due ready r').reverse, hr.polled_eq ready,
      ?_, ?_, ?_,
      fun sock cb revents => ?_⟩
    · rw [hr'.polled_eq ready, hdue.length_eq]
    · exact (List.reverse_perm _).trans (hdue.trans (List.reverse_perm _).symm)
    · rw [List.map_reverse, List.nodup_reverse]
      exact nodup_due ready hur
    · rw [List.mem_reverse, mem_due, hr.registrations_eq]

/-- One allowed call. -/
theorem Refine.step {s : PollerMt C × Poller C} {l : List (Registration C)} (h : Refine s l) {c : Call C}
    (hc : c.Allowed l) : ∃ s', pairStep s c = some s' ∧ Refine s' (c.apply l) := by
  obtain ⟨hu, ⟨r, hr, hp⟩, ⟨r', hr', hp'⟩⟩ := h
  obtain ⟨mt, r₁, hmt, hr₁, hp₁⟩ := implements_c.step hr hu hp hc
  obtain ⟨p, r₂, hffi, hr₂, hp₂⟩ := implements_ffi.step hr' hu hp' hc
  refine ⟨(mt, p), ?_, unique_apply hu c, ⟨r₁, hr₁, hp₁⟩, ⟨r₂, hr₂, hp₂⟩⟩
  rw [pairStep, hmt, hffi]
  rfl

/-- **The pollers agree** after every call of every sequence of allowed calls on new pollers. -/
theorem pollers_agree (n m : Nat) (calls : List (Call C))
    (h : Meets registryStep Call.Allowed ([] : List (Registration C)) calls) :
    Keeps pairStep (fun _ _ s => Agree s.1 s.2) (PollerMt.new n, Poller.new m) calls := by
  refine keeps_of_simulates pairStep (R := Refine) ?_ calls _ [] (refine_new n m) h
  intro s l c hR hc
  obtain ⟨s', hs', hR'⟩ := hR.step hc
  exact ⟨s', c.apply l, hs', rfl, hR'.agree, hR'⟩

/-- The first of three sockets is removed: from there on the wrapper keeps 2 before 3, the FFI poller 3
    before 2. -/
theorem pollers_agree_reordered : Keeps pairStep (fun _ _ s => Agree s.1 s.2)
    ((PollerMt.new 10, Poller.new 0) : PollerMt Unit × Poller Unit)
    [.add 1 1 (), .add 2 2 (), .add 3 3 (), .remove 1, .modify 2 7 (some ()), .modify 4 1 (some ())] :=
  pollers_agree 10 0 _ (by decide)

end Lzmq.Pollers
