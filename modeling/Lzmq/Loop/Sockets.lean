/-
  The sockets of a loop (`impl/loop.lua`): a table beside the poller.

  The loop owns what it polls: `add_socket` registers its argument with the poller and makes it a key of
  the table `sockets`, `remove_socket` undoes both, and `destroy` closes the keys of the table.  The docs
  let one socket be added several times.  The table then still has one key, the poller has one
  registration more for each time, and ONE `remove_socket` takes the key and one registration.

  The loop runs over the pollers of both bindings, so it is written here over an interface, `PollerApi`.
  `PollerSpec` is what it needs of them: what `add` does, and the exact condition on a removal after
  which the poller holds nothing more of the removed socket and everything else.  `ownOk_iff_meets` makes
  that the exact condition for every sequence of calls.
-/
import Lzmq.CPoller.Registrations
import Lzmq.CPoller.Wrapper
import Lzmq.FfiPoller.Registry

namespace Lzmq.Loop

open Lzmq.Steps

/-! ## The loop over a poller -/

/-- The methods of a poller the loop calls on its sockets; `none` when the call does not return. -/
structure PollerApi (P K F : Type) where
  add : P → K → Int → F → Option P
  remove : P → K → Option P

/-- `private_.poller` and the keys of `private_.sockets`. -/
structure Owner (P K : Type) where
  poller : P
  sockets : List K

/-- The second argument of `add_socket`. -/
inductive FnOrFlags (F : Type)
  | nil
  | flags (n : Int)
  | fn (f : F)

/-- `zmq.POLLIN` -/
def pollin : Int := 1

section Calls

variable {P K F : Type} [DecidableEq K]

/-- `private_.poller:add(skt, …)`, then `private_.sockets[skt] = true` -/
def Owner.register (api : PollerApi P K F) (s : Owner P K) (skt : K) (zmqFlag : Int) (fn : F) :
    Option (Owner P K) :=
  (api.add s.poller skt zmqFlag fn).map fun p => ⟨p, s.sockets.insert skt⟩

/-- `zmq_loop:add_socket`.  Two calls raise before anything changed. -/
def Owner.addSocket (api : PollerApi P K F) (s : Owner P K) (skt : K) (fnOrFlags : FnOrFlags F)
    (fn : Option F) : Option (Owner P K) :=
  match fn, fnOrFlags with
  | none, .fn f => s.register api skt pollin f
  | none, _ => some s -- function expected
  | some f, .nil => s.register api skt pollin f
  | some f, .flags n => s.register api skt n f
  | some _, .fn _ => some s -- poller:add wants a number

/-- `zmq_loop:remove_socket` -/
def Owner.removeSocket (api : PollerApi P K F) (s : Owner P K) (skt : K) : Option (Owner P K) :=
  if skt ∈ s.sockets then
    (api.remove s.poller skt).map fun p => ⟨p, s.sockets.filter (· ≠ skt)⟩
  else some s

inductive SocketCall (K F : Type)
  | addSocket (skt : K) (fnOrFlags : FnOrFlags F) (fn : Option F)
  | removeSocket (skt : K)

def Owner.step (api : PollerApi P K F) (s : Owner P K) : SocketCall K F → Option (Owner P K)
  | .addSocket skt fnOrFlags fn => s.addSocket api skt fnOrFlags fn
  | .removeSocket skt => s.removeSocket api skt

end Calls

/-! ## Ownership -/

/-- What the loop needs of a poller: `Registered p k` when `p` holds a registration for `k`, and `Last p k`
    when removing `k` leaves no registration of `k` and takes no other socket's last one. -/
structure PollerSpec {P K F : Type} (api : PollerApi P K F) (Registered : P → K → Prop)
    (Last : P → K → Prop) (Good : P → Prop) : Prop where
  add : ∀ p k events f, Good p → ∃ p', api.add p k events f = some p' ∧ Good p' ∧
    ∀ j, Registered p' j ↔ Registered p j ∨ j = k
  last : ∀ p k, Good p → Registered p k → Last p k → ∃ p', api.remove p k = some p' ∧ Good p' ∧
    ∀ j, Registered p' j ↔ Registered p j ∧ j ≠ k
  notLast : ∀ p k p', Good p → Registered p k → ¬ Last p k → api.remove p k = some p' →
    ¬ ∀ j, Registered p' j ↔ Registered p j ∧ j ≠ k

section Generic

variable {P K F : Type} [DecidableEq K] {api : PollerApi P K F} {Registered : P → K → Prop}
  {Last : P → K → Prop} {Good : P → Prop}

/-- The keys of the table are the sockets the poller holds a registration for. -/
def OwnOk (Registered : P → K → Prop) (s : Owner P K) : Prop :=
  ∀ k, k ∈ s.sockets ↔ Registered s.poller k

/-- The condition on a call. -/
def SocketCallOk (Last : P → K → Prop) (s : Owner P K) : SocketCall K F → Prop
  | .addSocket _ _ _ => True
  | .removeSocket skt => skt ∈ s.sockets → Last s.poller skt

/-- The state in which runs are analysed. -/
def OwnInv (Registered : P → K → Prop) (Good : P → Prop) (s : Owner P K) : Prop :=
  Good s.poller ∧ OwnOk Registered s

theorem register_step (h : PollerSpec api Registered Last Good) {s : Owner P K}
    (hs : OwnInv Registered Good s) (skt : K) (zmqFlag : Int) (fn : F) :
    ∃ s', s.register api skt zmqFlag fn = some s' ∧ OwnInv Registered Good s' := by
  obtain ⟨p', hp', hgood, hreg⟩ := h.add s.poller skt zmqFlag fn hs.1
  refine ⟨⟨p', s.sockets.insert skt⟩, ?_, hgood, fun k => ?_⟩
  · rw [Owner.register, hp']
    rfl
  · show k ∈ s.sockets.insert skt ↔ Registered p' k
    rw [List.mem_insert_iff, hreg, hs.2 k]
    exact or_comm

theorem addSocket_step (h : PollerSpec api Registered Last Good) {s : Owner P K}
    (hs : OwnInv Registered Good s) (skt : K) (fnOrFlags : FnOrFlags F) (fn : Option F) :
    ∃ s', s.addSocket api skt fnOrFlags fn = some s' ∧ OwnInv Registered Good s' := by
  cases fn with
  | none =>
    cases fnOrFlags with
    | fn f => exact register_step h hs skt pollin f
    | nil => exact ⟨s, rfl, hs⟩
    | flags n => exact ⟨s, rfl, hs⟩
  | some f =>
    cases fnOrFlags with
    | nil => exact register_step h hs skt pollin f
    | flags n => exact register_step h hs skt n f
    | fn g => exact ⟨s, rfl, hs⟩

/-- After a removal the table and the poller agree iff the poller lost exactly the removed socket. -/
theorem ownOk_remove_iff {s : Owner P K} (hs : OwnOk Registered s) (skt : K) (p' : P) :
    OwnOk Registered ⟨p', s.sockets.filter (· ≠ skt)⟩ ↔
      ∀ k, Registered p' k ↔ Registered s.poller k ∧ k ≠ skt := by
  have hmem : ∀ k, k ∈ s.sockets.filter (· ≠ skt) ↔ Registered s.poller k ∧ k ≠ skt := by
    intro k
    rw [List.mem_filter, hs k, decide_eq_true_iff]
  constructor
  · exact fun hok k => (hok k).symm.trans (hmem k)
  · exact fun hreg k => (hmem k).trans (hreg k).symm

/-- **One call**: `SocketCallOk` makes it re-establish the invariant, and without `SocketCallOk` it
    breaks the ownership or does not return. -/
theorem step_ownOk (h : PollerSpec api Registered Last Good) {s : Owner P K}
    (hs : OwnInv Registered Good s) (c : SocketCall K F) :
    (SocketCallOk Last s c → ∃ s', s.step api c = some s' ∧ OwnInv Registered Good s') ∧
      (¬ SocketCallOk Last s c → ∀ s', s.step api c = some s' → ¬ OwnOk Registered s') := by
  cases c with
  | addSocket skt fnOrFlags fn =>
    exact ⟨fun _ => addSocket_step h hs skt fnOrFlags fn, fun hno => absurd trivial hno⟩
  | removeSocket skt =>
    by_cases hmem : skt ∈ s.sockets
    · have hreg := (hs.2 skt).mp hmem
      have hstep : s.step api (.removeSocket skt) =
          (api.remove s.poller skt).map fun p => ⟨p, s.sockets.filter (· ≠ skt)⟩ := if_pos hmem
      rw [hstep]
      constructor
      · intro hok
        obtain ⟨p', hp', hgood, hiff⟩ := h.last s.poller skt hs.1 hreg (hok hmem)
        exact ⟨_, by rw [hp']; rfl, hgood, (ownOk_remove_iff hs.2 skt p').mpr hiff⟩
      · intro hno s' hs' hown
        obtain ⟨p', hp', rfl⟩ := Option.map_eq_some_iff.mp hs'
        refine h.notLast s.poller skt p' hs.1 hreg (fun hlast => hno fun _ => hlast) hp' ?_
        exact (ownOk_remove_iff hs.2 skt p').mp hown
    · refine ⟨fun _ => ⟨s, if_neg hmem, hs⟩, fun hno => absurd (fun hm => absurd hm hmem) hno⟩

/-- What one call decides, every sequence of calls does. -/
theorem ownOk_keeps_iff (h : PollerSpec api Registered Last Good) {s : Owner P K}
    (hs : OwnInv Registered Good s) (calls : List (SocketCall K F)) :
    Keeps (Owner.step api) (fun _ _ s' => OwnOk Registered s') s calls ↔
      Meets (Owner.step api) (SocketCallOk Last) s calls := by
  refine keeps_iff_meets (Owner.step api) (OwnInv Registered Good) ?_ ?_ calls s hs
  · intro s c hs
    obtain ⟨hyes, hno⟩ := step_ownOk h hs c
    constructor
    · rintro ⟨s', hs', hok⟩
      by_contra hc
      exact hno hc s' hs' hok
    · intro hc
      obtain ⟨s', hs', hinv⟩ := hyes hc
      exact ⟨s', hs', hinv.2⟩
  · intro s c s' hs hs' hok
    obtain ⟨hyes, hno⟩ := step_ownOk h hs c
    by_cases hc : SocketCallOk Last s c
    · obtain ⟨t, ht, hinv⟩ := hyes hc
      obtain rfl := Option.some.inj (ht.symm.trans hs')
      exact hinv
    · exact absurd hok (hno hc s' hs')

end Generic

end Lzmq.Loop
