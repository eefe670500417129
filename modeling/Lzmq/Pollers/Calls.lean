/-
  What a poller of zmq sockets is for, whatever implements it.

  A poller is a registry with one registration (events, callback) for each of its sockets.  `add` makes a
  registration, `modify` makes or replaces one, `remove` (and a `modify` without events or callback)
  deletes it; a poll owes one call to every registration whose socket is ready.  In what order an
  implementation keeps its registrations is its own business, so registries are lists up to permutation.

  `Implements` asks of an implementation what each kind of call does to the list it keeps: append, set in
  place, delete in any way that leaves the others.  `Implements.step` is all that a caller needs then: an
  allowed call returns, and the list kept is the registry after the call, in some order.
-/
import Lzmq.Lib.Assoc
import Lzmq.Lib.Steps

namespace Lzmq.Pollers

open Lzmq.Assoc Lzmq.Steps

variable {C : Type}

/-! ## Calls -/

/-- A registration: the socket, its events and its callback. -/
abbrev Registration (C : Type) := Nat × Int16 × C

/-- A call on a zmq socket; a missing callback of `modify` is nil. -/
inductive Call (C : Type)
  | add (sock : Nat) (events : Int) (cb : C)
  | modify (sock : Nat) (events : Int) (cb : Option C)
  | remove (sock : Nat)

def Call.sock : Call C → Nat
  | .add sock _ _ => sock
  | .modify sock _ _ => sock
  | .remove sock => sock

/-- The events and the callback that a call sets; none if it removes. -/
def Call.sets : Call C → Option (Int × C)
  | .add _ events cb => some (events, cb)
  | .modify _ events (some cb) => if events ≠ 0 then some (events, cb) else none
  | .modify _ _ none => none
  | .remove _ => none

/-- What a call does to a registry. -/
def Call.apply (l : List (Registration C)) (c : Call C) : List (Registration C) :=
  match c.sets with
  | some (events, cb) => put c.sock (Int16.ofInt events, cb) l
  | none => del c.sock l

/-- Event masks. -/
def Mask (events : Int) : Prop := 0 ≤ events ∧ events ≤ 7

/-- The calls considered: masks are between 0 and 7, `add` is not called for a registered socket, nor a
    removal for an unregistered one. -/
def Call.Allowed (l : List (Registration C)) : Call C → Prop
  | .add sock events _ => Mask events ∧ sock ∉ l.map Prod.fst
  | .modify sock events cb => Mask events ∧ (events = 0 ∨ cb = none → sock ∈ l.map Prod.fst)
  | .remove sock => sock ∈ l.map Prod.fst

/-- The registry takes a call. -/
def registryStep (l : List (Registration C)) (c : Call C) : Option (List (Registration C)) := some (c.apply l)

/-! ## Deciding what is allowed -/

instance (events : Int) : Decidable (Mask events) := inferInstanceAs (Decidable (_ ∧ _))

instance (l : List (Registration C)) : ∀ c : Call C, Decidable (c.Allowed l)
  | .add sock events _ => inferInstanceAs (Decidable (Mask events ∧ sock ∉ l.map Prod.fst))
  | .modify sock events none =>
    decidable_of_iff (Mask events ∧ sock ∈ l.map Prod.fst) (by simp [Call.Allowed])
  | .modify sock events (some _) =>
    decidable_of_iff (Mask events ∧ (events = 0 → sock ∈ l.map Prod.fst)) (by simp [Call.Allowed])
  | .remove sock => inferInstanceAs (Decidable (sock ∈ l.map Prod.fst))

theorem meets_cons {l : List (Registration C)} {c : Call C} {calls : List (Call C)} :
    Meets registryStep Call.Allowed l (c :: calls) ↔
      c.Allowed l ∧ Meets registryStep Call.Allowed (c.apply l) calls := by
  constructor
  · exact fun h => ⟨h.1, h.2 _ rfl⟩
  · rintro ⟨hc, hrest⟩
    refine ⟨hc, fun l' hl' => ?_⟩
    rw [← Option.some.inj hl']
    exact hrest

instance decidableMeets : ∀ (calls : List (Call C)) (l : List (Registration C)),
    Decidable (Meets registryStep Call.Allowed l calls)
  | [], _ => isTrue trivial
  | c :: calls, l =>
    have := decidableMeets calls (c.apply l)
    decidable_of_iff _ meets_cons.symm

/-! ## The registry and the masks -/

theorem unique_apply {l : List (Registration C)} (h : Unique l) (c : Call C) : Unique (c.apply l) := by
  rw [Call.apply]
  split
  · exact unique_put _ _ h
  · exact unique_del _ h

/-- The mask as the C type `short` is zero only for 0 and never the tag of a free item. -/
theorem Mask.ofInt {events : Int} (h : Mask events) :
    Int16.ofInt events ≠ -1 ∧ (events ≠ 0 → Int16.ofInt events ≠ 0) := by
  obtain ⟨h0, h7⟩ := h
  have hcases : events = 0 ∨ events = 1 ∨ events = 2 ∨ events = 3 ∨ events = 4 ∨ events = 5 ∨ events = 6 ∨
      events = 7 := by omega
  rcases hcases with rfl | rfl | rfl | rfl | rfl | rfl | rfl | rfl <;> decide

/-! ## What a call is -/

/-- A call that sets something is an `add` or a `modify` with events. -/
theorem Call.of_sets {c : Call C} {events : Int} {cb : C} (h : c.sets = some (events, cb)) :
    c = .add c.sock events cb ∨ c = .modify c.sock events (some cb) ∧ events ≠ 0 := by
  rcases c with ⟨sock, events', cb'⟩ | ⟨sock, events', _ | cb'⟩ | sock
  · cases h
    exact Or.inl rfl
  · cases h
  · rw [Call.sets] at h
    by_cases hev : events' = 0
    · rw [if_neg (not_not.mpr hev)] at h
      cases h
    · rw [if_pos hev] at h
      cases h
      exact Or.inr ⟨rfl, hev⟩
  · cases h

/-- A call that sets nothing is a `remove`, or a `modify` without events or callback. -/
theorem Call.of_removes {c : Call C} (h : c.sets = none) :
    c = .remove c.sock ∨ ∃ events cb, c = .modify c.sock events cb ∧ (events = 0 ∨ cb = none) := by
  rcases c with ⟨sock, events', cb'⟩ | ⟨sock, events', _ | cb'⟩ | sock
  · cases h
  · exact Or.inr ⟨events', none, rfl, Or.inr rfl⟩
  · refine Or.inr ⟨events', some cb', rfl, Or.inl ?_⟩
    by_contra hev
    rw [Call.sets, if_pos hev] at h
    cases h
  · exact Or.inl rfl

theorem Call.Allowed.mask {l : List (Registration C)} {c : Call C} (h : c.Allowed l) {events : Int} {cb : C}
    (hs : c.sets = some (events, cb)) : Mask events := by
  rcases Call.of_sets hs with heq | ⟨heq, -⟩
  · rw [heq] at h
    exact h.1
  · rw [heq] at h
    exact h.1

/-- A call that removes is of a registered socket. -/
theorem Call.Allowed.removes {l : List (Registration C)} {c : Call C} (h : c.Allowed l) (hs : c.sets = none) :
    c.sock ∈ l.map Prod.fst := by
  rcases Call.of_removes hs with heq | ⟨events, cb, heq, hrem⟩
  · rw [heq] at h
    exact h
  · rw [heq] at h
    exact h.2 hrem

/-- A call that sets something for a registered socket is a `modify`. -/
theorem Call.Allowed.updates {l : List (Registration C)} {c : Call C} (h : c.Allowed l) {events : Int}
    {cb : C}
    (hs : c.sets = some (events, cb)) (hmem : c.sock ∈ l.map Prod.fst) :
    events ≠ 0 ∧ c = .modify c.sock events (some cb) := by
  rcases Call.of_sets hs with heq | ⟨heq, hev⟩
  · rw [heq] at h
    exact absurd hmem h.2
  · exact ⟨hev, heq⟩

/-! ## Implementations -/

/-- An implementation with states `S`; `R s r` says that `s` keeps the registrations `r`, in this order. -/
structure Implements {S : Type} (step : S → Call C → Option S)
    (R : S → List (Registration C) → Prop) : Prop where
  /-- A registration for a new socket goes to the end, -/
  appends : ∀ s r c events cb, R s r → c.sets = some (events, cb) → Mask events → c.sock ∉ r.map Prod.fst →
    ∃ s', step s c = some s' ∧ R s' (r ++ [(c.sock, Int16.ofInt events, cb)])
  /-- one for a registered socket is set where the old one was, -/
  updates : ∀ s r (i : Nat) sock v events cb, R s r → Unique r → r[i]? = some (sock, v) →
    Mask events → events ≠ 0 →
    ∃ s', step s (.modify sock events (some cb)) = some s' ∧ R s' (r.set i (sock, Int16.ofInt events, cb))
  /-- and a removal leaves the others. -/
  removes : ∀ s r c (i : Nat) v, R s r → Unique r → c.sets = none → r[i]? = some (c.sock, v) →
    ∃ s' r', step s c = some s' ∧ R s' r' ∧ r'.Perm (del c.sock r)

theorem getElem?_of_registered {r : List (Registration C)} {sock : Nat} (h : sock ∈ r.map Prod.fst) :
    ∃ (i : Nat) (v : Int16 × C), r[i]? = some (sock, v) := by
  obtain ⟨⟨s, v⟩, he, rfl⟩ := List.mem_map.mp h
  obtain ⟨i, hi⟩ := List.mem_iff_getElem?.mp he
  exact ⟨i, v, hi⟩

/-- **One call** on any implementation. -/
theorem Implements.step {S : Type} {step : S → Call C → Option S} {R : S → List (Registration C) → Prop}
    (h : Implements step R) {s : S} {r l : List (Registration C)} (hR : R s r) (hl : Unique l) (hp : r.Perm l)
    {c : Call C} (hc : c.Allowed l) : ∃ s' r', step s c = some s' ∧ R s' r' ∧ r'.Perm (c.apply l) := by
  have hr : Unique r := hl.perm hp.symm
  have hmem : ∀ sock, sock ∈ r.map Prod.fst ↔ sock ∈ l.map Prod.fst := fun sock => (hp.map Prod.fst).mem_iff
  cases hs : c.sets with
  | none =>
    obtain ⟨i, v, hi⟩ := getElem?_of_registered ((hmem c.sock).mpr (hc.removes hs))
    obtain ⟨s', r', hs', hR', hp'⟩ := h.removes s r c i v hR hr hs hi
    refine ⟨s', r', hs', hR', ?_⟩
    rw [Call.apply, hs]
    exact hp'.trans (del_perm c.sock hp)
  | some w =>
    obtain ⟨events, cb⟩ := w
    have happly : c.apply l = put c.sock (Int16.ofInt events, cb) l := by rw [Call.apply, hs]
    rw [happly]
    by_cases hreg : c.sock ∈ l.map Prod.fst
    · obtain ⟨i, v, hi⟩ := getElem?_of_registered ((hmem c.sock).mpr hreg)
      obtain ⟨hev, heq⟩ := hc.updates hs hreg
      obtain ⟨s', hs', hR'⟩ := h.updates s r i c.sock v events cb hR hr hi (hc.mask hs) hev
      rw [← heq] at hs'
      exact ⟨s', _, hs', hR', (set_perm_put hr hi _).trans (put_perm _ _ hp)⟩
    · have hnew : c.sock ∉ r.map Prod.fst := fun hin => hreg ((hmem c.sock).mp hin)
      obtain ⟨s', hs', hR'⟩ := h.appends s r c events cb hR hs (hc.mask hs) hnew
      exact ⟨s', _, hs', hR', (append_perm _ hnew).trans (put_perm _ _ hp)⟩

/-- Reading a list in which every element gives a registration. -/
theorem filterMap_eq_of_map_some {α β : Type} {f : α → Option β} {l : List α} {r : List β}
    (h : l.map f = r.map some) : l.filterMap f = r := by
  have hread := congrArg (List.filterMap id) h
  rw [List.filterMap_map, List.filterMap_map] at hread
  exact hread.trans List.filterMap_some

/-! ## Polls -/

/-- The calls a poll owes to the registrations `l` when `ready` says which events are pending on a socket:
    socket, callback and events. -/
def due (ready : Nat → Int16) (l : List (Registration C)) : List (Nat × C × Int16) :=
  (l.filter fun e => ready e.1 != 0).map fun e => (e.1, e.2.2, ready e.1)

theorem due_perm (ready : Nat → Int16) {l l' : List (Registration C)} (h : l.Perm l') :
    (due ready l).Perm (due ready l') := (h.filter _).map _

theorem due_append (ready : Nat → Int16) (l l' : List (Registration C)) :
    due ready (l ++ l') = due ready l ++ due ready l' := by
  rw [due, List.filter_append, List.map_append]
  rfl

theorem due_singleton (ready : Nat → Int16) (e : Registration C) :
    due ready [e] = if ready e.1 = 0 then [] else [(e.1, e.2.2, ready e.1)] := by
  by_cases h : ready e.1 = 0 <;> simp [due, h]

theorem mem_due {ready : Nat → Int16} {l : List (Registration C)} {sock : Nat} {cb : C} {revents : Int16} :
    (sock, cb, revents) ∈ due ready l ↔
      revents = ready sock ∧ ready sock ≠ 0 ∧ ∃ events, (sock, events, cb) ∈ l := by
  rw [due, List.mem_map]
  constructor
  · rintro ⟨⟨s, events, c⟩, he, heq⟩
    obtain ⟨hmem, hready⟩ := List.mem_filter.mp he
    cases heq
    exact ⟨rfl, bne_iff_ne.mp hready, events, hmem⟩
  · rintro ⟨rfl, hready, events, hmem⟩
    exact ⟨(sock, events, cb), List.mem_filter.mpr ⟨hmem, bne_iff_ne.mpr hready⟩, rfl⟩

/-- No socket is due twice. -/
theorem nodup_due (ready : Nat → Int16) {l : List (Registration C)} (h : Unique l) :
    ((due ready l).map Prod.fst).Nodup := by
  rw [due, List.map_map]
  exact (List.filter_sublist.map Prod.fst).nodup h

end Lzmq.Pollers
