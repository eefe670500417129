/-
  Which pipe a thread of `zthreads.fork` is connected to.

  The parent makes threads, closes pipes and starts threads in any order, and every thread connects on its own
  account.  The address that it has is the one that its pipe was bound to (`Makes.made`), so it finds its own
  pipe if nobody has closed it, or with `ipc` taken its name over, before the thread has got that far.  With a
  fixed address it may find the pipe of a later call, and then takes the place of that call's thread.  As long as
  no thread comes too late this does not happen: a pipe that is found has no peer yet (`pairing_iff`).
-/
import Lzmq.Threads.Pipes
import Lzmq.Lib.Steps
import Mathlib.Data.List.TakeWhile

namespace Lzmq.Threads

open Names (Holder Service Serves Once)
open Steps
open Z85 (cString)

/-! ## Addresses -/

theorem cString_eq_self {s : Str} (h : 0 ∉ s) : cString s = s := by
  rw [cString, List.takeWhile_eq_self_iff]
  intro c hc
  have hne : c ≠ 0 := fun h0 => h (h0 ▸ hc)
  simpa using hne

theorem cString_text (s : Str) : 0 ∉ cString s := by
  intro h
  have := List.mem_takeWhile_imp h
  simp at this

/-- A name stands for itself. -/
theorem place_endpoint (ctx : Nat) (e : Str) : place ctx (place ctx e).endpoint = place ctx e := by
  have h : cString (cString e) = cString e := cString_eq_self (cString_text e)
  simp only [place, h]

/-- Both getters give the address without the zero behind it. -/
theorem strip_text (b : Binding) {s : Str} (h : 0 ∉ s) : strip_trailing_null_char (b.text s) = s := by
  cases b with
  | c => simp [strip_trailing_null_char, Binding.text]
  | ffi =>
    rw [strip_trailing_null_char, if_neg]
    · rfl
    · exact fun hlast => h (List.mem_of_getLast? hlast)

variable {W : Type} {L : Language Value W} {starter : L.Func} {p : Parent Value} {b : Binding}

/-! ## The child's prelude -/

/-- All calls of the prelude succeed: two of `require`, `init_ctx`, `set_context`, and the socket. -/
abbrev Connects (outcomes : List Bool) : Prop := ∀ ok ∈ outcomes.take 5, ok = true

theorem take_succ_iff (n : Nat) (outcomes : List Bool) :
    (∀ ok ∈ outcomes.take (n + 1), ok = true) ↔
      outcomes.headD true = true ∧ ∀ ok ∈ outcomes.tail.take n, ok = true := by
  cases outcomes with
  | nil => simp
  | cons ok outcomes => exact List.forall_mem_cons

/-- The rest of the prelude runs if the call succeeds. -/
theorem answer_bind {α β : Type} (x : α) (f : α → ExceptT Unit (StateM Starting) β) {s : Starting}
    (hs : s.peer = none) (q : Option Nat) :
    (((answer x : ExceptT Unit (StateM Starting) α) >>= f) s).2.peer = some q ↔
      s.outcomes.headD true = true ∧ (f x { s with outcomes := s.outcomes.tail }).2.peer = some q := by
  show (ExceptT.bindCont f (answer x s).1 (answer x s).2).2.peer = some q ↔ _
  rw [answer]
  split
  · next h => exact (and_iff_right h).symm
  · next h => exact iff_of_false (fun hq => by cases hs.symm.trans hq) fun hq => h hq.1

theorem pair_bind (c : Nat) (e : Str) (args : List Value) {s : Starting} (hs : s.peer = none) (q : Option Nat) :
    ((do
        let skt ← pair (.ptr c) (.str e)
        pure (skt :: args) : ExceptT Unit (StateM Starting) (List Value)) s).2.peer = some q ↔
      s.outcomes.headD true = true ∧ s.find (place c e) = q := by
  show (ExceptT.bindCont (m := StateM Starting) (fun skt => pure (skt :: args)) (pair (.ptr c) (.str e) s).1
    (pair (.ptr c) (.str e) s).2).2.peer = some q ↔ _
  rw [pair]
  split
  · next h => exact Option.some_inj.trans (and_iff_right h).symm
  · next h => exact iff_of_false (fun hq => by cases hs.symm.trans hq) fun hq => h hq.1

/-- The thread's pipe is connected if all goes well, with the socket that has the name. -/
theorem forkBody_peer (name : Value) (c : Nat) (e : Str) (args : List Value) (find : Service Place)
    (outcomes : List Bool) (q : Option Nat) :
    (forkBody .nil childLib (name :: .ptr c :: .str e :: args) ⟨find, outcomes, none⟩).2.peer = some q ↔
      Connects outcomes ∧ find (place c e) = q := by
  refine (answer_bind () _ rfl q).trans ?_
  rw [Connects, take_succ_iff, take_succ_iff, take_succ_iff, take_succ_iff, take_succ_iff]
  simp only [and_assoc]
  refine and_congr_right fun _ => (answer_bind () _ rfl q).trans (and_congr_right fun _ => ?_)
  refine (answer_bind (Value.ptr c) _ rfl q).trans (and_congr_right fun _ => ?_)
  refine (answer_bind () _ rfl q).trans (and_congr_right fun _ => ?_)
  refine (pair_bind c e args rfl q).trans (and_congr_right fun _ => ?_)
  simp

/-! ## Calls of the parent -/

/-- A pipe more, with its name. -/
def World.bound (w : World) (k : Place) : World :=
  { w with find := w.find.take k w.pipes.length, pipes := w.pipes ++ [⟨some k, false⟩] }

/-- A pipe more, without one. -/
def World.unnamed (w : World) (left : Bool) : World := { w with pipes := w.pipes ++ [⟨none, left⟩] }

theorem zmq_bind_spec {w : World} {ctx : Nat} {e : Str} {r : Option Resolved} {k : Place}
    (h : w.zmq_bind ctx e r = some k) :
    (k.isIpc = false → w.find k = none) ∧ place ctx k.endpoint = k ∧
      ((bytes "inproc://").isPrefixOf (cString e) = true → k = place ctx e) := by
  cases r with
  | none => cases h
  | some r =>
    rw [World.zmq_bind] at h
    generalize hk' : place ctx (if (bytes "inproc://").isPrefixOf (cString e) then e else r.str) = k' at h
    have hplace : place ctx k'.endpoint = k' := hk' ▸ place_endpoint ctx _
    have hinproc : (bytes "inproc://").isPrefixOf (cString e) = true → k' = place ctx e := by
      intro hin
      rw [if_pos hin] at hk'
      exact hk'.symm
    split at h
    · next hipc =>
      obtain rfl := Option.some.inj h
      exact ⟨fun hnot => (Bool.eq_false_iff.mp hnot hipc).elim, hplace, hinproc⟩
    · split at h
      · next hfree =>
        obtain rfl := Option.some.inj h
        exact ⟨fun _ => hfree, hplace, hinproc⟩
      · cases h

/-- An endpoint with the transport `inproc` is a name of the context. -/
theorem inproc_head (address : Str) :
    (bytes "inproc://").isPrefixOf (cString (create_pipe_endpoint (bytes "inproc") address)) = true := by
  have htext : ∀ c ∈ bytes "inproc" ++ bytes "://", (c != 0) = true := by decide +kernel
  rw [create_pipe_endpoint, cString, List.takeWhile_append_of_pos htext, List.isPrefixOf_iff_prefix]
  exact ⟨_, congrArg (· ++ _) (by decide +kernel)⟩

theorem place_name_text {ctx : Nat} {k : Place} (h : place ctx k.endpoint = k) : 0 ∉ k.endpoint := by
  rw [← h]
  exact cString_text _

/-- The transport and the endpoint that `make_pipe` binds; `none` when it raises an error before. -/
def endpointOf (opt : PipeOpt) (a : Answers) : Option (Str × Str) :=
  match opt with
  | .unset => complete (bytes "inproc") none
  | .string s => complete (split_transport s).1 (split_transport s).2
  | .other => none
where
  complete (transport : Str) (address : Option Str) : Option (Str × Str) :=
    (address.or (create_pipe_address transport a)).map fun address =>
      (transport, create_pipe_endpoint transport address)

/-- The address of a bound socket can be found out. -/
def Extracts (transport : Str) (a : Answers) : Prop :=
  transport = bytes "inproc" ∨ (transport = bytes "ipc" ∨ transport = bytes "tcp") ∧ a.last_endpoint = true

/-- How `make_pipe` ends, and what it leaves. -/
inductive Makes (w : World) (ctx : Nat) (a : Answers) (target : Option (Str × Str)) :
    Ending World (Option (Nat × Str)) → Prop
  | raised (hs : a.socket = false) : Makes w ctx a target (.raise w)
  | unbound (hs : a.socket = true) (ht : target = none) : Makes w ctx a target (.raise (w.unnamed false))
  | refused (hs : a.socket = true) {transport e : Str} (ht : target = some (transport, e))
      (hk : w.zmq_bind ctx e a.bind = none) :
      Makes w ctx a target (.ret none ((w.unnamed false).close w.pipes.length))
  | stuck (hs : a.socket = true) {transport e : Str} (ht : target = some (transport, e)) {k : Place}
      (hk : w.zmq_bind ctx e a.bind = some k) (hx : ¬ Extracts transport a) :
      Makes w ctx a target (.raise (w.bound k))
  | made (hs : a.socket = true) {transport e : Str} (ht : target = some (transport, e)) {k : Place}
      (hk : w.zmq_bind ctx e a.bind = some k) (hx : Extracts transport a) {endpoint : Str}
      (hplace : place ctx endpoint = k) :
      Makes w ctx a target (.ret (some (w.pipes.length, endpoint)) (w.bound k))

section MakePipe

variable {w : World} {ctx : Nat} {a : Answers} {e : Str} {k : Place}

theorem bind_some (h : w.zmq_bind ctx e a.bind = some k) :
    bind ctx w.pipes.length e a (w.unnamed false) = .ret true (w.bound k) := by
  have hk : (w.unnamed false).zmq_bind ctx e a.bind = some k := h
  simp only [bind, Lua.run_bind, Lua.run_read, Lua.andThen_ret, id_eq, hk, Lua.run_modify, Lua.run_pure]
  simp [World.unnamed, World.bound]

theorem bind_none (h : w.zmq_bind ctx e a.bind = none) :
    bind ctx w.pipes.length e a (w.unnamed false) = .ret false (w.unnamed false) := by
  have hk : (w.unnamed false).zmq_bind ctx e a.bind = none := h
  simp only [bind, Lua.run_bind, Lua.run_read, Lua.andThen_ret, id_eq, hk, Lua.run_pure]

/-- The address that is passed on is the one that is bound. -/
theorem extract_endpoint_spec {transport address : Str} (he : create_pipe_endpoint transport address = e)
    (h : w.zmq_bind ctx e a.bind = some k) :
    (Extracts transport a ∧ ∃ endpoint, place ctx endpoint = k ∧
      extract_endpoint b w.pipes.length transport e a (w.bound k) = .ret endpoint (w.bound k)) ∨
    ¬ Extracts transport a ∧ extract_endpoint b w.pipes.length transport e a (w.bound k) = .raise (w.bound k) := by
  obtain ⟨-, hplace, hinproc⟩ := zmq_bind_spec h
  rw [extract_endpoint]
  by_cases hin : transport = bytes "inproc"
  · subst hin
    subst he
    exact Or.inl ⟨Or.inl rfl, _, (hinproc (inproc_head address)).symm, rfl⟩
  rw [if_neg hin, Extracts, or_iff_right hin]
  by_cases hnet : transport = bytes "ipc" ∨ transport = bytes "tcp"
  · have hlast : last_endpoint b w.pipes.length a (w.bound k) =
        .ret (if a.last_endpoint = true then some (b.text k.endpoint) else none) (w.bound k) := by
      simp only [last_endpoint, Lua.run_bind, Lua.run_read, Lua.andThen_ret, id_eq, World.bound,
        List.getElem?_concat_length]
      split <;> rfl
    rw [if_pos hnet, and_iff_right hnet]
    simp only [Lua.run_bind, hlast, Lua.andThen_ret]
    split
    · next hok =>
      refine Or.inl ⟨hok, _, ?_, rfl⟩
      rw [strip_text b (place_name_text hplace)]
      exact hplace
    · next hok => exact Or.inr ⟨hok, rfl⟩
  · rw [if_neg hnet]
    exact Or.inr ⟨fun h => hnet h.1, rfl⟩

@[simp] theorem orRaise_some {α : Type} (x : α) : orRaise (some x) = pure x := rfl

@[simp] theorem orRaise_none {α : Type} : orRaise (none : Option α) = Lua.raise := rfl

theorem bind_pipe_some (hs : a.socket = true) (transport : Str) (address : Option Str) :
    Makes w ctx a (endpointOf.complete a transport address)
      (bind_pipe b ctx (some w.pipes.length) transport address a (w.unnamed false)) := by
  have hbind : ∀ address, Makes w ctx a (some (transport, create_pipe_endpoint transport address))
      (bind_pipe b ctx (some w.pipes.length) transport (some address) a (w.unnamed false)) := by
    intro address
    simp only [bind_pipe, orRaise_some, Lua.run_bind, Lua.run_pure, Lua.andThen_ret]
    cases hk : w.zmq_bind ctx (create_pipe_endpoint transport address) a.bind with
    | none =>
      rw [bind_none hk]
      exact .refused hs rfl hk
    | some k =>
      rw [bind_some hk, Lua.andThen_ret, if_pos rfl, Lua.run_bind]
      rcases extract_endpoint_spec (b := b) rfl hk with ⟨hx, endpoint, hplace, hret⟩ | ⟨hx, hraise⟩
      · rw [hret]
        exact .made hs rfl hk hx hplace
      · rw [hraise]
        exact .stuck hs rfl hk hx
  cases address with
  | some address => exact hbind address
  | none =>
    cases haddress : create_pipe_address transport a with
    | some address =>
      have heq : bind_pipe b ctx (some w.pipes.length) transport none a =
          bind_pipe b ctx (some w.pipes.length) transport (some address) a := by
        simp only [bind_pipe, haddress]
        rfl
      rw [heq, endpointOf.complete, haddress]
      exact hbind address
    | none =>
      have heq : bind_pipe b ctx (some w.pipes.length) transport none a (w.unnamed false) =
          .raise (w.unnamed false) := by
        simp only [bind_pipe, haddress]
        rfl
      rw [heq, endpointOf.complete, haddress]
      exact .unbound hs rfl

theorem bind_pipe_none (transport : Str) (address : Option Str) :
    bind_pipe b ctx none transport address a w = .raise w := by
  cases address with
  | some address => rfl
  | none => rfl

theorem make_pipe_spec (opt : PipeOpt) : Makes w ctx a (endpointOf opt a) (make_pipe b ctx opt a w) := by
  rw [make_pipe, Lua.run_bind, ctxSocket]
  cases hs : a.socket with
  | true => cases opt with
    | unset => exact bind_pipe_some hs _ none
    | string s => exact bind_pipe_some hs _ _
    | other => exact .unbound hs rfl
  | false => cases opt with
    | unset => exact .raised hs
    | string s =>
      refine Eq.mpr (congrArg _ (bind_pipe_none _ _)) ?_
      exact .raised hs
    | other => exact .raised hs

end MakePipe

theorem startWith_raises (p : Parent Value) (f : L.Func) {code : Code L.Func}
    (hsrc : code.threadSource.assert = .error ()) (args : List Value) : startWith L p f code args = .error () := by
  rw [startWith]
  cases code with
  | table o =>
    simp only [thread_opts]
    rw [show (o.first.or o.source).assert = .error () from hsrc]
    rfl
  | value v =>
    simp only [thread_opts]
    rw [show v.assert = .error () from hsrc]
    rfl

/-- A thread that is made has a source, and the arguments that it is made with. -/
theorem startWith_ok {f : L.Func} {code : Code L.Func} {args : List Value} {t : Thread Value}
    (h : startWith L p f code args = .ok t) : t.args = args ∧ ∃ src, code.threadSource = .chunk src := by
  cases hsrc : code.threadSource with
  | chunk src =>
    rw [startWith_eq p f hsrc] at h
    exact ⟨Except.ok.inj h ▸ rfl, src, rfl⟩
  | nil => cases (startWith_raises p f (by rw [hsrc]; rfl) args).symm.trans h
  | false => cases (startWith_raises p f (by rw [hsrc]; rfl) args).symm.trans h

/-! ## What every state is like -/

/-- The thread has the address that its pipe was bound to. -/
def Sound (w : World) (t : Forked) : Prop :=
  ∃ name c e args left, t.thread.args = name :: .ptr c :: .str e :: args ∧
    w.pipes[t.pipe]? = some ⟨some (place c e), left⟩

structure World.Inv (w : World) : Prop where
  serves : Serves w.find w.pipes
  once : Once (fun k => k.isIpc = false) w.pipes
  sound : ∀ (n : Nat) (t : Forked), w.threads[n]? = some t → Sound w t
  own : (w.threads.map Forked.pipe).Nodup
  fresh : ∀ (n : Nat) (t : Forked), w.threads[n]? = some t → t.started = false → t.peer = none

theorem World.inv_init : World.init.Inv where
  serves k i := iff_of_false (fun h => by cases h) fun h => by cases h.1
  once i j h h' k hij hi := by cases hi
  sound n t h := by cases h
  own := List.nodup_nil
  fresh n t h := by cases h

section Inv

variable {w : World} (hw : w.Inv)

include hw

theorem World.Inv.unnamed (left : Bool) : (w.unnamed left).Inv where
  serves := hw.serves.nameless left
  once := hw.once.concat fun k hk => by cases hk
  sound n t h := by
    obtain ⟨name, c, e, args, left', hargs, hpipe⟩ := hw.sound n t h
    exact ⟨name, c, e, args, left', hargs, Names.getElem?_concat_iff.mpr (Or.inl hpipe)⟩
  own := hw.own
  fresh := hw.fresh

theorem World.Inv.bound {k : Place} (hfree : k.isIpc = false → w.find k = none) : (w.bound k).Inv where
  serves := hw.serves.take k
  once := hw.once.concat fun k' hk hX i h hi hname => by
    obtain rfl := Option.some.inj hk
    exact hw.serves.free hw.once hX (hfree hX) hi hname
  sound n t h := by
    obtain ⟨name, c, e, args, left', hargs, hpipe⟩ := hw.sound n t h
    exact ⟨name, c, e, args, left', hargs, Names.getElem?_concat_iff.mpr (Or.inl hpipe)⟩
  own := hw.own
  fresh := hw.fresh

theorem World.Inv.close (i : Nat) : (w.close i).Inv := by
  unfold World.close
  split
  · next h hi =>
    obtain ⟨name, left⟩ := h
    refine ⟨hw.serves.leave hi, hw.once.leave hi, fun n t ht => ?_, hw.own, hw.fresh⟩
    obtain ⟨zname, c, e, args, left', hargs, hpipe⟩ := hw.sound n t ht
    have hset := Names.getElem?_left hi t.pipe
    by_cases heq : t.pipe = i
    · rw [if_pos heq] at hset
      rw [heq, hi] at hpipe
      obtain ⟨rfl, rfl⟩ := Holder.mk.inj (Option.some.inj hpipe)
      exact ⟨zname, c, e, args, true, hargs, hset⟩
    · rw [if_neg heq] at hset
      exact ⟨zname, c, e, args, left', hargs, hset.trans hpipe⟩
  · exact hw

theorem World.Inv.forked {k : Place} (hfree : k.isIpc = false → w.find k = none) {name : Value} {c : Nat} {e : Str}
    {args : List Value} {thread : Thread Value} (hargs : thread.args = name :: .ptr c :: .str e :: args)
    (hk : place c e = k) :
    World.Inv { w.bound k with threads := w.threads ++ [⟨thread, w.pipes.length, false, none⟩] } where
  serves := (hw.bound hfree).serves
  once := (hw.bound hfree).once
  sound n t h := by
    rcases Names.getElem?_concat_iff.mp h with hold | ⟨-, rfl⟩
    · exact (hw.bound hfree).sound n t hold
    · exact ⟨name, c, e, args, false, hargs, hk ▸ List.getElem?_concat_length⟩
  own := by
    rw [List.map_append, List.map_singleton, List.nodup_append]
    refine ⟨hw.own, List.pairwise_singleton _ _, fun i hi j hj => ?_⟩
    -- the other pipes are older
    obtain ⟨t, ht, rfl⟩ := List.mem_map.mp hi
    obtain ⟨n, hn⟩ := List.getElem?_of_mem ht
    obtain ⟨_, _, _, _, _, _, hpipe⟩ := hw.sound n t hn
    rw [List.mem_singleton.mp hj]
    exact Nat.ne_of_lt (List.getElem?_eq_some_iff.mp hpipe).1
  fresh n t h hstarted := by
    rcases Names.getElem?_concat_iff.mp h with hold | ⟨-, rfl⟩
    · exact hw.fresh n t hold hstarted
    · rfl

end Inv

/-! ## Which pipe a thread finds -/

/-- Nobody has closed the pipe, or has taken its name. -/
def Reachable (w : World) (i : Nat) : Prop :=
  ∃ k, w.pipes[i]? = some ⟨some k, false⟩ ∧
    (k.isIpc = true → ∀ (j : Nat) (h : Holder Place), i < j → w.pipes[j]? = some h → h.name ≠ some k)

theorem World.Inv.find_iff {w : World} (hw : w.Inv) {k : Place} {i : Nat} {left : Bool}
    (hi : w.pipes[i]? = some ⟨some k, left⟩) : w.find k = some i ↔ Reachable w i := by
  have hiff : w.find k = some i ↔ w.pipes[i]? = some ⟨some k, false⟩ ∧
      (k.isIpc = true → ∀ (j : Nat) (h : Holder Place), i < j → w.pipes[j]? = some h → h.name ≠ some k) := by
    cases hipc : k.isIpc with
    | true =>
      refine (hw.serves k i).trans (and_congr_right fun _ => ?_)
      exact ⟨fun h _ => h, fun h => h rfl⟩
    | false =>
      refine (hw.serves.find_iff hw.once hipc).trans (and_iff_left ?_).symm
      exact fun h => by cases h
  rw [hiff]
  constructor
  · exact fun h => ⟨k, h⟩
  · rintro ⟨k', hk', hlast⟩
    obtain ⟨hname, -⟩ := Holder.mk.inj (Option.some.inj (hi.symm.trans hk'))
    obtain rfl := Option.some.inj hname
    exact ⟨hk', hlast⟩

/-- Every thread that has connected was accepted by its own pipe. -/
def Paired (w : World) : Prop :=
  ∀ (n : Nat) (t : Forked), w.threads[n]? = some t → ∀ q, t.peer = some q → q = some t.pipe

/-- **The place is free**: if it were taken, then by the pipe's own thread, which is not connected. -/
theorem World.Inv.not_taken {w : World} (hw : w.Inv) (hpaired : Paired w) {n : Nat} {t : Forked}
    (ht : w.threads[n]? = some t) (hstarted : t.started = false) : w.taken t.pipe = false := by
  rw [World.taken, List.any_eq_false]
  intro t' ht' hpeer
  obtain ⟨m, hm⟩ := List.getElem?_of_mem ht'
  have hpeer' : t'.peer = some (some t.pipe) := of_decide_eq_true hpeer
  have hpipe : t.pipe = t'.pipe := Option.some.inj (hpaired m t' hm _ hpeer')
  have hnm : n = m := by
    have hn' : (w.threads.map Forked.pipe)[n]? = some t.pipe := by rw [List.getElem?_map, ht]; rfl
    have hm' : (w.threads.map Forked.pipe)[m]? = some t.pipe := by rw [List.getElem?_map, hm, hpipe]; rfl
    exact (List.getElem?_inj (List.getElem?_eq_some_iff.mp hn').1 hw.own).mp (hn'.trans hm'.symm)
  subst hnm
  obtain rfl := Option.some.inj (ht.symm.trans hm)
  rw [hw.fresh n t ht hstarted] at hpeer'
  cases hpeer'

/-- A thread that gets as far as to connect finds its pipe. -/
def Finds (w : World) : Move L.Func → Prop
  | .start n outcomes => ∀ t, w.threads[n]? = some t → t.started = false → Connects outcomes → Reachable w t.pipe
  | _ => True

/-- A thread that has not been started runs its prelude. -/
theorem start_peer {w : World} (hw : w.Inv) (hpaired : Paired w) {n : Nat} {t : Forked}
    (ht : w.threads[n]? = some t) (hstarted : t.started = false) (outcomes : List Bool) :
    (∀ q, (t.start w.accepts outcomes).peer = some q → q = some t.pipe) ↔
      (Connects outcomes → Reachable w t.pipe) := by
  obtain ⟨name, c, e, args, left, hargs, hpipe⟩ := hw.sound n t ht
  have hpeer : ∀ q, (t.start w.accepts outcomes).peer = some q ↔ Connects outcomes ∧ w.accepts (place c e) = q := by
    intro q
    rw [Forked.start, hstarted, hargs]
    exact forkBody_peer name c e args w.accepts outcomes q
  have hfree : w.accepts (place c e) = some t.pipe ↔ w.find (place c e) = some t.pipe := by
    rw [World.accepts, Option.filter_eq_some_iff, hw.not_taken hpaired ht hstarted]
    exact and_iff_left rfl
  rw [← hw.find_iff hpipe, ← hfree]
  constructor
  · exact fun h hcon => h _ ((hpeer _).mpr ⟨hcon, rfl⟩)
  · intro h q hq
    obtain ⟨hcon, rfl⟩ := (hpeer q).mp hq
    exact h hcon

/-! ## Runs -/

theorem Paired.of_threads {w w' : World} (h : Paired w) (hthreads : w'.threads = w.threads) : Paired w' :=
  fun n t ht => h n t (hthreads ▸ ht)

theorem threads_close (w : World) (i : Nat) : (w.close i).threads = w.threads := by
  unfold World.close
  split
  · rfl
  · rfl

/-- Every open pipe has been returned to the program, with its thread. -/
def Owned (w : World) : Prop :=
  ∀ (i : Nat) (name : Option Place), w.pipes[i]? = some ⟨name, false⟩ → i ∈ w.threads.map Forked.pipe

/-- `fork` raises no error when it has a socket: it finds an address, and its socket's address when it has bound it,
    and there is a source. -/
def Careful (w : World) : Move L.Func → Prop
  | .fork ctx opt _ a => a.socket = true → ∃ transport e, endpointOf opt.pipeOpt a = some (transport, e) ∧
      ∀ k, w.zmq_bind ctx e a.bind = some k → Extracts transport a ∧ ∃ src, opt.code.threadSource = .chunk src
  | _ => True

theorem World.Inv.not_owned {w w' : World} (hw : w.Inv) {name : Option Place}
    (hpipes : w'.pipes = w.pipes ++ [⟨name, false⟩]) (hthreads : w'.threads = w.threads) : ¬ Owned w' := by
  intro h
  have hi := h w.pipes.length name (by rw [hpipes]; exact List.getElem?_concat_length)
  rw [hthreads] at hi
  obtain ⟨t, ht, hlen⟩ := List.mem_map.mp hi
  obtain ⟨n, hn⟩ := List.getElem?_of_mem ht
  obtain ⟨_, _, _, _, _, _, hpipe⟩ := hw.sound n t hn
  exact Nat.ne_of_lt (List.getElem?_eq_some_iff.mp hpipe).1 hlen

theorem getElem?_close {w : World} {i j : Nat} {name : Option Place}
    (h : (w.close i).pipes[j]? = some ⟨name, false⟩) : j ≠ i ∧ w.pipes[j]? = some ⟨name, false⟩ := by
  unfold World.close at h
  split at h
  · next p hi =>
    obtain ⟨name', left⟩ := p
    rw [Names.getElem?_left hi] at h
    split at h
    · cases h
    · next hne => exact ⟨hne, h⟩
  · next hnone =>
    refine ⟨?_, h⟩
    rintro rfl
    rw [hnone] at h
    cases h

theorem Owned.close {w : World} (h : Owned w) (i : Nat) : Owned (w.close i) := fun j name hj => by
  rw [threads_close]
  exact h j name (getElem?_close hj).2

/-- `fork` ends; a thread that it makes has not been connected; and it leaves a pipe behind iff it raises an error
    that late. -/
theorem fork_step {w : World} (hw : w.Inv) (ctx : Nat) (opt : ForkOpt L.Func) (args : List Value) (a : Answers) :
    ∃ w', step L starter p b w (.fork ctx opt args a) = some w' ∧ w'.Inv ∧ (Paired w → Paired w') ∧
      (Owned w → (Owned w' ↔ Careful w (.fork ctx opt args a))) := by
  have hmake : Makes w ctx a (endpointOf opt.pipeOpt a) (make_pipe b ctx opt.pipeOpt a w) := make_pipe_spec _
  rw [step, Lua.after, fork, Lua.run_bind]
  generalize make_pipe b ctx opt.pipeOpt a w = r at hmake
  cases hmake with
  | raised hs => exact ⟨w, rfl, hw, id, fun h => iff_of_true h fun hs' => by rw [hs] at hs'; cases hs'⟩
  | unbound hs ht =>
    refine ⟨_, rfl, hw.unnamed false, fun h => h.of_threads rfl, fun _ => iff_of_false (hw.not_owned rfl rfl) ?_⟩
    intro hc
    obtain ⟨_, _, ht', -⟩ := hc hs
    cases ht.symm.trans ht'
  | refused hs ht hk =>
    refine ⟨_, rfl, (hw.unnamed false).close _, fun h => h.of_threads (threads_close _ _), fun h => ?_⟩
    refine iff_of_true (fun i name hi => ?_) fun _ => ⟨_, _, ht, fun k hk' => by cases hk.symm.trans hk'⟩
    obtain ⟨hne, hi⟩ := getElem?_close hi
    rw [threads_close]
    rcases Names.getElem?_concat_iff.mp hi with hold | ⟨hnew, -⟩
    · exact h i name hold
    · exact absurd hnew hne
  | stuck hs ht hk hx =>
    refine ⟨_, rfl, hw.bound (zmq_bind_spec hk).1, fun h => h.of_threads rfl,
      fun _ => iff_of_false (hw.not_owned rfl rfl) fun hc => ?_⟩
    obtain ⟨_, _, ht', hk'⟩ := hc hs
    obtain ⟨rfl, rfl⟩ := Prod.mk.inj (Option.some.inj (ht.symm.trans ht'))
    exact hx (hk' _ hk).1
  | @made hs transport e ht k hk hx endpoint hplace =>
    have hfree := (zmq_bind_spec hk).1
    rw [Lua.andThen_ret]
    dsimp only
    cases hstart : startWith L p starter opt.code (p.ZMQ_NAME :: .ptr ctx :: .str endpoint :: args) with
    | error e =>
      refine ⟨_, rfl, hw.bound hfree, fun h => h.of_threads rfl,
        fun _ => iff_of_false (hw.not_owned rfl rfl) fun hc => ?_⟩
      obtain ⟨_, _, ht', hk'⟩ := hc hs
      obtain ⟨rfl, rfl⟩ := Prod.mk.inj (Option.some.inj (ht.symm.trans ht'))
      obtain ⟨src, hsrc⟩ := (hk' _ hk).2
      cases hstart.symm.trans (startWith_eq p starter hsrc _)
    | ok thread =>
      obtain ⟨hargs, hsrc⟩ := startWith_ok hstart
      refine ⟨_, rfl, hw.forked hfree hargs hplace, fun h n t ht q hq => ?_, fun h => ?_⟩
      · rcases Names.getElem?_concat_iff.mp ht with hold | ⟨-, rfl⟩
        · exact h n t hold q hq
        · cases hq
      · refine iff_of_true (fun i name hi => ?_) fun _ => ⟨_, _, ht, fun _ _ => ⟨hx, hsrc⟩⟩
        rw [List.map_append, List.mem_append]
        rcases Names.getElem?_concat_iff.mp hi with hold | ⟨hnew, -⟩
        · exact Or.inl (h i name hold)
        · exact Or.inr (List.mem_singleton.mpr hnew)

/-- What a thread is made of stays when it is started. -/
theorem start_thread (find : Service Place) (outcomes : List Bool) (t : Forked) :
    (t.start find outcomes).thread = t.thread ∧ (t.start find outcomes).pipe = t.pipe := by
  rw [Forked.start]
  split
  · exact ⟨rfl, rfl⟩
  · exact ⟨rfl, rfl⟩

/-- The threads after thread `n` has been started. -/
theorem getElem?_started {w : World} {outcomes : List Bool} {n m : Nat} {t' : Forked}
    (h : (w.threads.modify n (Forked.start w.accepts outcomes))[m]? = some t') :
    ∃ t, w.threads[m]? = some t ∧ t' = if n = m then t.start w.accepts outcomes else t := by
  rw [List.getElem?_modify] at h
  obtain ⟨t, ht, rfl⟩ := Option.map_eq_some_iff.mp h
  exact ⟨t, ht, rfl⟩

theorem map_pipe_started (w : World) (outcomes : List Bool) (n : Nat) :
    (w.threads.modify n (Forked.start w.accepts outcomes)).map Forked.pipe = w.threads.map Forked.pipe := by
  refine List.ext_getElem? fun m => ?_
  rw [List.getElem?_map, List.getElem?_map, List.getElem?_modify]
  cases w.threads[m]? with
  | none => rfl
  | some t =>
    refine congrArg some ?_
    dsimp only
    split
    · exact (start_thread w.accepts outcomes t).2
    · rfl

theorem World.Inv.started {w : World} (hw : w.Inv) (n : Nat) (outcomes : List Bool) :
    World.Inv { w with threads := w.threads.modify n (Forked.start w.accepts outcomes) } where
  serves := hw.serves
  once := hw.once
  sound m t' ht' := by
    obtain ⟨t, ht, rfl⟩ := getElem?_started ht'
    obtain ⟨name, c, e, args, left, hargs, hpipe⟩ := hw.sound m t ht
    split
    · obtain ⟨hthread, hp⟩ := start_thread w.accepts outcomes t
      exact ⟨name, c, e, args, left, by rw [hthread]; exact hargs, by rw [hp]; exact hpipe⟩
    · exact ⟨name, c, e, args, left, hargs, hpipe⟩
  own := by
    rw [map_pipe_started]
    exact hw.own
  fresh m t' ht' hstarted := by
    obtain ⟨t, ht, rfl⟩ := getElem?_started ht'
    by_cases hnm : n = m
    · -- it has been started
      rw [if_pos hnm, Forked.start] at hstarted
      split at hstarted
      · next h => exact absurd hstarted (by rw [h]; decide)
      · cases hstarted
    · rw [if_neg hnm] at hstarted ⊢
      exact hw.fresh m t ht hstarted

theorem step_inv {w : World} (hw : w.Inv) (m : Move L.Func) : ∃ w', step L starter p b w m = some w' ∧ w'.Inv := by
  cases m with
  | fork ctx opt args a => exact (fork_step hw ctx opt args a).imp fun _ h => ⟨h.1, h.2.1⟩
  | close i => exact ⟨_, rfl, hw.close i⟩
  | start n outcomes => exact ⟨_, rfl, hw.started n outcomes⟩

theorem paired_iff {w : World} (hw : w.Inv) (hpaired : Paired w) (m : Move L.Func) :
    (∃ w', step L starter p b w m = some w' ∧ Paired w') ↔ Finds w m := by
  cases m with
  | fork ctx opt args a =>
    obtain ⟨w', h, -, hkeeps, -⟩ := fork_step (b := b) hw ctx opt args a
    exact iff_of_true ⟨w', h, hkeeps hpaired⟩ trivial
  | close i => exact iff_of_true ⟨_, rfl, hpaired.of_threads (threads_close w i)⟩ trivial
  | start n outcomes =>
    constructor
    · rintro ⟨w', h, hw'⟩ t ht hstarted
      obtain rfl := Option.some.inj h
      refine (start_peer hw hpaired ht hstarted outcomes).mp ?_
      have hmod := congrArg (Option.map (Forked.start w.accepts outcomes)) ht
      have := hw' n (t.start w.accepts outcomes) ((List.getElem?_modify_eq _ n w.threads).trans hmod)
      rwa [(start_thread w.accepts outcomes t).2] at this
    · intro hfinds
      refine ⟨_, rfl, fun m t' ht' => ?_⟩
      obtain ⟨t, ht, rfl⟩ := getElem?_started ht'
      by_cases hnm : n = m
      · subst hnm
        rw [if_pos rfl, (start_thread w.accepts outcomes t).2]
        cases hstarted : t.started with
        | true =>
          rw [Forked.start, hstarted]
          exact hpaired n t ht
        | false => exact (start_peer hw hpaired ht hstarted outcomes).mpr (hfinds t ht hstarted)
      · rw [if_neg hnm]
        exact hpaired m t ht

/-- **Pipes.**  In every order of calls of `fork`, of closes and of starts of threads, and with any calls of libzmq
    failing: each thread that connects is accepted by the pipe that `fork` returned with it iff no thread that gets
    as far as to connect comes too late, when its pipe was closed or, under `ipc`, its name taken over. -/
theorem pairing_iff (ms : List (Move L.Func)) :
    Keeps (step L starter p b) (fun _ _ w => Paired w) .init ms ↔ Meets (step L starter p b) Finds .init ms := by
  refine keeps_iff_meets (step L starter p b) (fun w => w.Inv ∧ Paired w) (fun w m hw => ?_)
    (fun w m w' hw h hpaired => ?_) ms _ ⟨World.inv_init, fun n t h => by cases h⟩
  · exact paired_iff hw.1 hw.2 m
  · obtain ⟨w'', h', hinv⟩ := step_inv (b := b) hw.1 m
    obtain rfl := Option.some.inj (h'.symm.trans h)
    exact ⟨hinv, hpaired⟩

/-- A thread that comes too late finds the pipe of a later call with the same address. -/
example : (((World.init.bound (place 0 (bytes "inproc://a"))).close 0).bound (place 0 (bytes "inproc://a"))).find
    (place 0 (bytes "inproc://a")) = some 1 := by decide +kernel

/-- A `fork` that returns nil leaves no pipe open. -/
theorem fork_nil {w w' : World} {ctx : Nat} {opt : ForkOpt L.Func} {args : List Value} {a : Answers}
    (h : fork L starter p b ctx opt args a w = .ret none w') {i : Nat} {name : Option Place}
    (hi : w'.pipes[i]? = some ⟨name, false⟩) : w.pipes[i]? = some ⟨name, false⟩ := by
  have hmake : Makes w ctx a (endpointOf opt.pipeOpt a) (make_pipe b ctx opt.pipeOpt a w) := make_pipe_spec _
  rw [fork, Lua.run_bind] at h
  generalize make_pipe b ctx opt.pipeOpt a w = r at hmake h
  cases hmake with
  | raised hs => cases h
  | unbound hs ht => cases h
  | stuck hs ht hk hx => cases h
  | refused hs ht hk =>
    obtain ⟨-, rfl⟩ := Ending.ret.inj h
    obtain ⟨hne, hi⟩ := getElem?_close hi
    rcases Names.getElem?_concat_iff.mp hi with hold | ⟨hnew, -⟩
    · exact hold
    · exact absurd hnew hne
  | @made hs transport e ht k hk hx endpoint hplace =>
    -- there is a pipe, so it returns a thread or raises an error
    rw [Lua.andThen_ret] at h
    dsimp only at h
    cases hstart : startWith L p starter opt.code (p.ZMQ_NAME :: .ptr ctx :: .str endpoint :: args) with
    | error err =>
      rw [hstart] at h
      cases h
    | ok thread =>
      rw [hstart] at h
      cases h

/-- **Pipes without a thread.**  In every such run, each open pipe is one that `fork` has returned with its thread
    iff no call raises an error after it has made its socket: because of a `pipe` that is no string, a transport
    that is not supported, a descriptor or an address that libzmq does not tell, or a thread without a source.  A
    call that returns nil and an error leaves no pipe open. -/
theorem orphans_iff (ms : List (Move L.Func)) :
    (Keeps (step L starter p b) (fun _ _ w => Owned w) .init ms ↔ Meets (step L starter p b) Careful .init ms) ∧
      ∀ (w w' : World) (ctx : Nat) (opt : ForkOpt L.Func) (args : List Value) (a : Answers),
        fork L starter p b ctx opt args a w = .ret none w' → ∀ (i : Nat) (name : Option Place),
          w'.pipes[i]? = some ⟨name, false⟩ → w.pipes[i]? = some ⟨name, false⟩ := by
  refine ⟨?_, fun w w' ctx opt args a h i name hi => fork_nil h hi⟩
  refine keeps_iff_meets (step L starter p b) (fun w => w.Inv ∧ Owned w) (fun w m hw => ?_)
    (fun w m w' hw h howned => ?_) ms _ ⟨World.inv_init, fun i name h => by cases h⟩
  · cases m with
    | fork ctx opt args a =>
      obtain ⟨w', h, -, -, howned⟩ := fork_step (b := b) hw.1 ctx opt args a
      rw [← howned hw.2]
      constructor
      · rintro ⟨w'', h', hw''⟩
        exact Option.some.inj (h.symm.trans h') ▸ hw''
      · exact fun hw' => ⟨w', h, hw'⟩
    | close i => exact iff_of_true ⟨_, rfl, hw.2.close i⟩ trivial
    | start n outcomes =>
      refine iff_of_true ⟨_, rfl, fun i name hi => ?_⟩ trivial
      rw [map_pipe_started]
      exact hw.2 i name hi
  · obtain ⟨w'', h', hinv⟩ := step_inv (b := b) hw.1 m
    obtain rfl := Option.some.inj (h'.symm.trans h)
    exact ⟨hinv, howned⟩

/-- The name of a pipe that is left behind is refused from then on. -/
example : (World.init.bound (place 0 (bytes "inproc://a"))).zmq_bind 0 (bytes "inproc://a") (some ⟨[], by decide⟩) =
    none := by decide +kernel

end Lzmq.Threads
