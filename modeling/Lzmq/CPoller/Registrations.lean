/-
  The C poller as a list of registrations.

  `ZMQPoller.regs` reads a poller as the list of its (key, events) pairs, and `PlrSpec` says what a call
  of `add`, `modify` or `remove` may do to such a list.  `PlrCallOk` is a condition on the registrations
  BEFORE a call; the step theorem `plrStep_iff` shows that in a well-formed poller the call does what
  `PlrSpec` says if and only if it holds, and `Steps.keeps_iff_meets` lifts that to all runs.
-/
import Lzmq.CPoller.Binding
import Mathlib.Data.List.InsertIdx

namespace Lzmq.CPoller

open Lzmq.Registry Lzmq.Steps

/-! ## Calls and their abstract meaning -/

/-- A call of the binding; the event mask is any value of C `short`. -/
inductive PlrCall
  | add (key : PollKey) (events : Int16)
  | modify (key : PollKey) (events : Int16)
  | remove (key : PollKey)
deriving DecidableEq

/-- The method called, with the index it pushes. -/
def plrCall (p : ZMQPoller) : PlrCall → Except Fault (Int × ZMQPoller)
  | .add key events => luazmqPlrAdd p key events.toInt
  | .modify key events => luazmqPlrModify p key events.toInt
  | .remove key => luazmqPlrRemove p key

/-- The poller after a call; `none` when the call crashes. -/
def plrStep (p : ZMQPoller) (c : PlrCall) : Option ZMQPoller :=
  (plrCall p c).toOption.map Prod.snd

/-- What a call may do to the list of registrations. -/
def PlrSpec (l : List (PollKey × Int16)) : PlrCall → List (PollKey × Int16) → Prop
  | .add key events, l' => l' = l ++ [(key, events)]
  | .modify key events, l' => if events ≠ 0 then UpdatesOne key events l l' else RemovesOne key l l'
  | .remove key, l' => RemovesOne key l l'

/-! ## Reading a poller as registrations -/

/-- The key an item was registered with. -/
def Pollitem.key (it : Pollitem) : PollKey :=
  match it.socket with
  | .handle skt => .socket skt
  | _ => .fd it.fd

/-- The registration an item holds. -/
def Pollitem.reg (it : Pollitem) : PollKey × Int16 := (it.key, it.events)

/-- The registrations of a poller. -/
def ZMQPoller.regs (p : ZMQPoller) : List (PollKey × Int16) := p.active.map Pollitem.reg

/-- An item as the binding writes it: `fd` is 0 next to a socket handle, and the pointer is no free
    list link. -/
def Pollitem.Proper (it : Pollitem) : Prop :=
  it.socket = it.key.pointer ∧ it.fd = it.key.fdValue

/-- Well-formed pollers holding nothing but registrations. -/
structure WfReg (p : ZMQPoller) : Prop where
  wf : Wf p
  proper : ∀ it ∈ p.active, it.Proper

theorem wfReg_pollerInit (n : Nat) : WfReg (pollerInit n) :=
  ⟨wf_pollerInit n, fun it hit => by rw [active_pollerInit] at hit; exact absurd hit List.not_mem_nil⟩

theorem key_newItem (key : PollKey) (events : Int16) : (newItem key events).key = key := by
  cases key <;> rfl

theorem proper_newItem (key : PollKey) (events : Int16) : (newItem key events).Proper := by
  cases key <;> exact ⟨rfl, rfl⟩

/-- The lookup's test on a proper item is a test on the key it was registered with. -/
theorem test_eq_accepts {it : Pollitem} (h : it.Proper) (key : PollKey) :
    key.test it = key.accepts it.key := by
  obtain ⟨hs, hf⟩ := h
  cases key with
  | fd n => rw [PollKey.test, PollKey.accepts, hf]
  | socket skt =>
    rw [PollKey.test, PollKey.accepts, hs]
    cases it.key with
    | fd n => rfl
    | socket s => rw [Bool.eq_iff_iff]; simp [PollKey.pointer]

theorem accepts_self (key : PollKey) : key.accepts key = true := by
  cases key <;> simp [PollKey.accepts, PollKey.fdValue]

/-- A key that nothing is found for is not registered. -/
theorem not_mem_regs {key : PollKey} {regs : List (PollKey × Int16)}
    (h : regs.findIdx? (fun r => key.accepts r.1) = none) : key ∉ regs.map Prod.fst := by
  intro hmem
  obtain ⟨r, hr, hrk⟩ := List.mem_map.mp hmem
  have hacc := List.findIdx?_eq_none_iff.mp h r hr
  rw [hrk, accepts_self] at hacc
  exact Bool.noConfusion hacc

theorem findIdx?_regs {p : ZMQPoller} (h : WfReg p) (key : PollKey) :
    p.active.findIdx? key.test = p.regs.findIdx? fun r => key.accepts r.1 := by
  rw [ZMQPoller.regs, List.findIdx?_map]
  have hsub : ∀ l : List Pollitem, (∀ it ∈ l, it.Proper) → l.findIdx? key.test =
      l.findIdx? ((fun r : PollKey × Int16 => key.accepts r.1) ∘ Pollitem.reg) := by
    intro l
    induction l with
    | nil => intro _; rfl
    | cons it l ih =>
      intro hl
      rw [List.findIdx?_cons, List.findIdx?_cons, ih fun x hx => hl x (List.mem_cons_of_mem it hx),
        test_eq_accepts (hl it List.mem_cons_self)]
      rfl
  exact hsub p.active h.proper

theorem regs_erase_filter (l : List Pollitem) (i : Nat) :
    ((l.eraseIdx i).filter Pollitem.live).map Pollitem.reg =
      ((l.map Pollitem.reg).eraseIdx i).filter (fun r => r.2 != freeItemEventsTag) := by
  rw [List.eraseIdx_map, List.filter_map]
  rfl

theorem regs_pollerInit (n : Nat) : (pollerInit n).regs = [] := by
  rw [ZMQPoller.regs, active_pollerInit]; rfl

/-! ## The exact condition -/

/-- A removal of `key` is sound when the lookup of `key` stops at a registration of `key` itself (for
    descriptor 0 it also accepts zmq sockets) and no OTHER registration has the mask `0xFFFF`. -/
def RemoveOk (l : List (PollKey × Int16)) (key : PollKey) : Prop :=
  ∀ i, l.findIdx? (fun r => key.accepts r.1) = some i →
    (∀ r, l[i]? = some r → r.1 = key) ∧ ∀ r ∈ l.eraseIdx i, r.2 ≠ freeItemEventsTag

/-- The condition on a call: removals are sound, and `modify` with events is made on zmq sockets. -/
def PlrCallOk (p : ZMQPoller) : PlrCall → Prop
  | .add _ _ => True
  | .modify key events => if events ≠ 0 then ∃ skt, key = .socket skt else RemoveOk p.regs key
  | .remove key => RemoveOk p.regs key

/-- What the property asks of one call. -/
def PlrOk (p : ZMQPoller) (c : PlrCall) (p' : ZMQPoller) : Prop := PlrSpec p.regs c p'.regs

/-! ## One call -/

theorem plrStep_of_ok {p p' : ZMQPoller} {c : PlrCall} {idx : Int} (h : plrCall p c = .ok (idx, p')) :
    plrStep p c = some p' := by
  rw [plrStep, h]; rfl

theorem plrStep_of_error {p : ZMQPoller} {c : PlrCall} {e : Fault} (h : plrCall p c = .error e) :
    plrStep p c = none := by
  rw [plrStep, h]; rfl

/-- Both removing calls, given that they run `luazmq_plr_remove`. -/
theorem remove_step {p : ZMQPoller} (h : WfReg p) {c : PlrCall} {key : PollKey}
    (hc : plrCall p c = luazmqPlrRemove p key) :
    ∃ p', plrStep p c = some p' ∧ WfReg p' ∧ (RemovesOne key p.regs p'.regs ↔ RemoveOk p.regs key) := by
  rcases removeFound_spec h.wf key with ⟨hnone, hrem⟩ | ⟨i, p', hsome, hi, hrem, hwf, -, hact⟩
  · refine ⟨p, plrStep_of_ok (hc.trans hrem), h, ?_⟩
    rw [findIdx?_regs h] at hnone
    exact ⟨fun _ i hi => absurd (hnone.symm.trans hi) (by simp),
      fun _ => removesOne_self_iff.mpr (not_mem_regs hnone)⟩
  · refine ⟨p', plrStep_of_ok (hc.trans hrem), ⟨hwf, ?_⟩, ?_⟩
    · intro it hit
      rw [hact] at hit
      exact h.proper it (List.mem_of_mem_eraseIdx (List.mem_of_mem_filter hit))
    · rw [findIdx?_regs h] at hsome
      obtain ⟨hlt, -⟩ := findIdx?_split hsome
      have hregs : p'.regs = (p.regs.eraseIdx i).filter (fun r => r.2 != freeItemEventsTag) := by
        rw [ZMQPoller.regs, hact, regs_erase_filter]; rfl
      rw [hregs, removesOne_erase_filter_iff hlt]
      constructor
      · rintro ⟨hk, hall⟩ j hj
        obtain rfl : i = j := Option.some.inj (hsome.symm.trans hj)
        refine ⟨fun r hr => ?_, fun r hr => bne_iff_ne.mp (hall r hr)⟩
        rw [List.getElem?_eq_getElem hlt, Option.some.injEq] at hr
        exact hr ▸ hk
      · intro hok
        obtain ⟨hk, hall⟩ := hok i hsome
        exact ⟨hk _ (List.getElem?_eq_getElem hlt), fun r hr => bne_iff_ne.mpr (hall r hr)⟩

theorem regs_append_newItem {p p' : ZMQPoller} {key : PollKey} {events : Int16}
    (hact : p'.active = p.active ++ [newItem key events]) : p'.regs = p.regs ++ [(key, events)] := by
  rw [ZMQPoller.regs, hact, List.map_append, ZMQPoller.regs]
  show _ ++ [((newItem key events).key, events)] = _
  rw [key_newItem]

theorem proper_append_newItem {p p' : ZMQPoller} (h : WfReg p) {key : PollKey} {events : Int16}
    (hact : p'.active = p.active ++ [newItem key events]) : ∀ it ∈ p'.active, it.Proper := by
  intro it hit
  rw [hact, List.mem_append, List.mem_singleton] at hit
  rcases hit with hit | hit
  · exact h.proper it hit
  · exact hit ▸ proper_newItem key events

theorem add_step {p : ZMQPoller} (h : WfReg p) (key : PollKey) (events : Int16) :
    ∃ p', plrStep p (.add key events) = some p' ∧ WfReg p' ∧ p'.regs = p.regs ++ [(key, events)] := by
  obtain ⟨p', hp', hwf, -, hact⟩ := luazmqPlrAdd_spec h.wf key events.toInt
  rw [Int16.ofInt_toInt] at hact
  exact ⟨p', plrStep_of_ok hp', ⟨hwf, proper_append_newItem h hact⟩, regs_append_newItem hact⟩

theorem modify_socket_step {p : ZMQPoller} (h : WfReg p) (skt : Nat) {events : Int16} (hev : events ≠ 0) :
    ∃ p', plrStep p (.modify (.socket skt) events) = some p' ∧ WfReg p' ∧
      UpdatesOne (.socket skt) events p.regs p'.regs := by
  have hev' : Int16.ofInt events.toInt ≠ 0 := by rwa [Int16.ofInt_toInt]
  rcases luazmqPlrModify_socket h.wf skt hev' with ⟨hnone, p', hp', hwf, -, hact⟩ |
    ⟨i, p', hi, hsome, hp', hwf, -, hact⟩
  · rw [Int16.ofInt_toInt] at hact
    refine ⟨p', plrStep_of_ok hp', ⟨hwf, proper_append_newItem h hact⟩, Or.inr ⟨?_, regs_append_newItem hact⟩⟩
    rw [findIdx?_regs h] at hnone
    exact not_mem_regs hnone
  · rw [Int16.ofInt_toInt] at hact
    refine ⟨p', plrStep_of_ok hp', ⟨hwf, ?_⟩, ?_⟩
    · intro it hit
      rw [hact] at hit
      rcases List.mem_or_eq_of_mem_set hit with hit | hit
      · exact h.proper it hit
      · rw [hit]; exact ⟨rfl, rfl⟩
    · rw [findIdx?_regs h] at hsome
      obtain ⟨hlt, hacc⟩ := findIdx?_split hsome
      have hregs : p'.regs = p.regs.set i (.socket skt, events) := by
        rw [ZMQPoller.regs, hact, List.map_set]; rfl
      rw [hregs]
      exact updatesOne_set hlt (beq_iff_eq.mp hacc)

/-- **One call** does what `PlrSpec` says iff it meets `PlrCallOk`. -/
theorem plrStep_iff (p : ZMQPoller) (c : PlrCall) (h : WfReg p) :
    (∃ p', plrStep p c = some p' ∧ PlrOk p c p') ↔ PlrCallOk p c := by
  cases c with
  | add key events =>
    obtain ⟨p', hp', -, hregs⟩ := add_step h key events
    exact ⟨fun _ => trivial, fun _ => ⟨p', hp', hregs⟩⟩
  | remove key =>
    obtain ⟨p', hp', -, hiff⟩ := remove_step h (c := .remove key) rfl
    constructor
    · rintro ⟨q, hq, hok⟩
      obtain rfl : p' = q := Option.some.inj (hp'.symm.trans hq)
      exact hiff.mp hok
    · exact fun hok => ⟨p', hp', hiff.mpr hok⟩
  | modify key events =>
    by_cases hev : events = 0
    · obtain ⟨p', hp', -, hiff⟩ := remove_step h (c := .modify key events)
        (luazmqPlrModify_zero key (by rw [Int16.ofInt_toInt, hev]))
      rw [PlrCallOk, if_neg (not_not.mpr hev)]
      constructor
      · rintro ⟨q, hq, hok⟩
        obtain rfl : p' = q := Option.some.inj (hp'.symm.trans hq)
        rw [PlrOk, PlrSpec, if_neg (not_not.mpr hev)] at hok
        exact hiff.mp hok
      · intro hok
        refine ⟨p', hp', ?_⟩
        rw [PlrOk, PlrSpec, if_neg (not_not.mpr hev)]
        exact hiff.mpr hok
    · rw [PlrCallOk, if_pos hev]
      cases key with
      | socket skt =>
        obtain ⟨p', hp', -, hupd⟩ := modify_socket_step h skt hev
        refine ⟨fun _ => ⟨skt, rfl⟩, fun _ => ⟨p', hp', ?_⟩⟩
        rw [PlrOk, PlrSpec, if_pos hev]
        exact hupd
      | fd n =>
        have hcrash : plrStep p (.modify (.fd n) events) = none :=
          plrStep_of_error (luazmqPlrModify_fd h.wf n (by rwa [Int16.ofInt_toInt]))
        constructor
        · rintro ⟨q, hq, -⟩
          rw [hcrash] at hq
          cases hq
        · rintro ⟨skt, hskt⟩
          cases hskt

theorem plrStep_wfReg (p : ZMQPoller) (c : PlrCall) (p' : ZMQPoller) (h : WfReg p)
    (hp' : plrStep p c = some p') : WfReg p' := by
  have hdet : ∀ q, plrStep p c = some q → WfReg q → WfReg p' := fun q hq hw =>
    Option.some.inj (hq.symm.trans hp') ▸ hw
  cases c with
  | add key events =>
    obtain ⟨q, hq, hw, -⟩ := add_step h key events
    exact hdet q hq hw
  | remove key =>
    obtain ⟨q, hq, hw, -⟩ := remove_step h (c := .remove key) rfl
    exact hdet q hq hw
  | modify key events =>
    by_cases hev : events = 0
    · obtain ⟨q, hq, hw, -⟩ := remove_step h (c := .modify key events)
        (luazmqPlrModify_zero key (by rw [Int16.ofInt_toInt, hev]))
      exact hdet q hq hw
    · cases key with
      | socket skt =>
        obtain ⟨q, hq, hw, -⟩ := modify_socket_step h skt hev
        exact hdet q hq hw
      | fd n =>
        rw [plrStep_of_error (c := .modify (.fd n) events)
          (luazmqPlrModify_fd h.wf n (by rwa [Int16.ofInt_toInt]))] at hp'
        cases hp'

/-! ## Runs of calls -/

/-- **Refinement, exactly.**  From a new poller of any size, a sequence of calls refines the list of
    registrations at every call iff every call meets `PlrCallOk` in the poller it is made on. -/
theorem plr_keeps_iff_meets (n : Nat) (calls : List PlrCall) :
    Keeps plrStep PlrOk (pollerInit n) calls ↔ Meets plrStep PlrCallOk (pollerInit n) calls :=
  keeps_iff_meets plrStep WfReg plrStep_iff (fun p c p' h hp' _ => plrStep_wfReg p c p' h hp')
    calls (pollerInit n) (wfReg_pollerInit n)

/-- The refinement fails in three ways: `modify` crashes on a registered descriptor, removing
    descriptor 0 removes a socket, and removing one socket also drops one with mask `0xFFFF`. -/
theorem plr_not_refined :
    ¬ Keeps plrStep PlrOk (pollerInit 10) [.add (.fd 5) 1, .modify (.fd 5) 2] ∧
    ¬ Keeps plrStep PlrOk (pollerInit 10) [.add (.socket 7) 1, .remove (.fd 0)] ∧
    ¬ Keeps plrStep PlrOk (pollerInit 10)
      [.add (.socket 7) 1, .add (.socket 8) (-1), .remove (.socket 7)] := by
  refine ⟨?_, ?_, ?_⟩
  · rintro ⟨p, hp, hadd, q, hq, hok, -⟩
    have hw := plrStep_wfReg _ _ _ (wfReg_pollerInit 10) hp
    have hcond := (plrStep_iff p _ hw).mp ⟨q, hq, hok⟩
    rw [PlrCallOk, if_pos (by decide)] at hcond
    obtain ⟨skt, hskt⟩ := hcond
    cases hskt
  · rintro ⟨p, hp, hadd, q, hq, hok, -⟩
    have hw := plrStep_wfReg _ _ _ (wfReg_pollerInit 10) hp
    have hcond : RemoveOk p.regs (.fd 0) := (plrStep_iff p (.remove (.fd 0)) hw).mp ⟨q, hq, hok⟩
    rw [PlrOk, PlrSpec, regs_pollerInit] at hadd
    rw [hadd] at hcond
    exact absurd ((hcond 0 (by decide)).1 _ rfl) (by decide)
  · rintro ⟨p, hp, hadd, q, hq, hadd', r, hr, hok, -⟩
    have hw := plrStep_wfReg _ _ _ (plrStep_wfReg _ _ _ (wfReg_pollerInit 10) hp) hq
    have hcond : RemoveOk q.regs (.socket 7) := (plrStep_iff q (.remove (.socket 7)) hw).mp ⟨r, hr, hok⟩
    rw [PlrOk, PlrSpec, regs_pollerInit] at hadd
    rw [PlrOk, PlrSpec, hadd] at hadd'
    rw [hadd'] at hcond
    exact absurd ((hcond 0 (by decide)).2 (.socket 8, -1) (by decide)) (by decide)

end Lzmq.CPoller
