/-
  `bind_to_random_port` in both bindings (`luazmq_skt_bind_to_random_port`, `Socket:bind_to_random_port`).

  Ports are tried one after the other.  Both bindings go on after `EADDRINUSE` and `EACCES`; the FFI binding, whose
  table of error numbers may be another system's (`ffi/error.lua`), also after an error whose message says
  that the address is in use.  So each is a search (`Lib.Search`), and they do the same iff their tests judge
  alike of the errors that the C binding meets before its last port (`random_port_agrees_iff`).

  The C binding casts the port and the number of tries to `int`, the FFI binding takes the numbers as they are.  A
  port that FFI accepts is the same `int`; a number of tries can become smaller, and then C has fewer ports.
-/
import Lzmq.CApi.Values
import Lzmq.Lib.Lua
import Lzmq.Lib.Search
import Lzmq.Z85.Decode

namespace Lzmq.Binds

open CApi (CInt Whole decimal)
open Search (search Alike Stops)
open Z85 (cString)

/-- A Lua string. -/
abbrev Str := List UInt8

def bytes (s : String) : Str := s.toUTF8.data.toList

/-! ## The system -/

/-- Error numbers and messages.  The FFI binding has its own table of numbers. -/
structure Errors where
  EADDRINUSE : Nat
  EACCES : Nat
  EINVAL : Nat
  ffiEADDRINUSE : Nat
  ffiEACCES : Nat
  strerror : Nat → Str
  /-- the compiler is an old one, for which the C code compares the message -/
  oldWindows : Bool

/-- The addresses that `zmq_bind` was called with, how its calls to come end, and `zmq_errno`. -/
structure Net where
  calls : List Str
  answers : List (Option Nat)
  errno : Nat
deriving DecidableEq, Repr

def Net.bound (z : Net) (addr : Str) : Net where
  calls := z.calls ++ [cString addr]
  answers := z.answers.tail
  errno := (z.answers.headD none).getD z.errno

/-- `zmq_bind`: `none`, or an error. -/
def zmq_bind (addr : Str) : Lua Net (Option Nat) := do
  let z ← Lua.read id
  Lua.modify fun z => z.bound addr
  pure (z.answers.headD none)

/-- What the methods return: a port, or nil and an error. -/
inductive Reply
  | port (n : Int)
  | fail (errno : Nat)
deriving DecidableEq, Repr

def RANDOM_PORT_BASE : Int := 0xC000

def RANDOM_PORT_MAX : Int := 0xFFFF

/-- `base_address`, a colon and the port -/
def address (base : Str) (port : Int) : Str := base ++ 58 :: decimal port

/-! ## The C binding -/

variable (k : Errors)

/-- The errors after which the loop continues. -/
def continues (err : Nat) : Bool :=
  err = k.EADDRINUSE || err = k.EACCES || (k.oldWindows && k.strerror err = bytes "Address in use")

/-- `for(;(base_port <= RANDOM_PORT_MAX)&&(max_tries > 0); --max_tries, ++base_port)`; `none` is the end of the loop
    or a `break`. -/
def bindLoop (base_address : Str) : Nat → Int → Lua Net (Option Int)
  | 0, _ => pure none
  | max_tries + 1, base_port =>
    if base_port ≤ RANDOM_PORT_MAX then do
      match ← zmq_bind (address base_address base_port) with
      | none => pure (some base_port)
      | some err =>
        if continues k err then bindLoop base_address max_tries (base_port + 1) else pure none
    else pure none

/-- `luazmq_skt_bind_to_random_port` of an open socket, with integers or nothing as its last arguments. -/
def luazmqSktBindToRandomPort (base_address : Str) (port tries : Option CInt) : Lua Net Reply := do
  let base_port := (port.map BitVec.toInt).getD RANDOM_PORT_BASE
  let max_tries := (tries.map BitVec.toInt).getD (RANDOM_PORT_MAX - base_port + 1)
  if ¬ (0 < base_port ∧ base_port ≤ RANDOM_PORT_MAX) then Lua.raise -- invalid port number
  else if ¬ 0 < max_tries then Lua.raise -- invalid max tries value
  else do
    match ← bindLoop k base_address max_tries.toNat base_port with
    | some port => pure (.port port)
    | none => do
      let errno ← Lua.read Net.errno
      pure (.fail errno) -- luazmq_fail

/-! ## The FFI binding -/

/-- `lower` of a byte -/
def lower (c : UInt8) : UInt8 := if 65 ≤ c && c ≤ 90 then c + 32 else c

/-- `find("address .- in use")` -/
def findAddressInUse (s : Str) : Bool :=
  s.tails.any fun t => (bytes "address ").isPrefixOf t && (t.drop 8).tails.any (bytes " in use").isPrefixOf

/-- The errors after which the loop goes on. -/
def goesOn (err : Nat) : Bool :=
  if err ≠ k.ffiEADDRINUSE ∧ err ≠ k.ffiEACCES then
    k.strerror err = bytes "Address in use" || findAddressInUse ((k.strerror err).map lower)
  else true

/-- `while((port <= RANDOM_PORT_MAX)and(tries > 0))do`; `err` is the last error. -/
def whileLoop (base : Str) : Nat → Int → Option Nat → Lua Net Reply
  | 0, _, err => pure (.fail (err.getD k.EINVAL))
  | tries + 1, port, err =>
    if port ≤ RANDOM_PORT_MAX then do
      match ← zmq_bind (address base port) with
      | none => pure (.port port)
      | some err => if goesOn k err then whileLoop base tries (port + 1) (some err) else pure (.fail err)
    else pure (.fail (err.getD k.EINVAL))

/-- `Socket:bind_to_random_port` of an open socket -/
def bindToRandomPort (base : Str) (port tries : Option Int) : Lua Net Reply := do
  let port := port.getD RANDOM_PORT_BASE
  let tries := tries.getD (RANDOM_PORT_MAX - port + 1)
  if ¬ (0 < port ∧ port ≤ RANDOM_PORT_MAX) then Lua.raise -- invalid port number
  else if ¬ 0 < tries then Lua.raise -- invalid max tries value
  else whileLoop k base tries.toNat port none

/-! ## Both are searches -/

/-- The ports that may be tried. -/
def ports : Nat → Int → List Int
  | 0, _ => []
  | tries + 1, port => if port ≤ RANDOM_PORT_MAX then port :: ports tries (port + 1) else []

/-- Calls of `zmq_bind`, one for each port. -/
def Net.tried (z : Net) (base : Str) (tried : List Int) : Net :=
  tried.foldl (fun z port => z.bound (address base port)) z

/-- The reply at the end of a search; there is a port to be tried. -/
def replied : Option (Int ⊕ Nat) → Reply
  | some (.inl port) => .port port
  | some (.inr err) => .fail err
  | none => .fail 0

/-- What is replied, and the state that is left. -/
def Net.searched (z : Net) (base : Str) (r : List Int × Option (Int ⊕ Nat)) : Ending Net Reply :=
  .ret (replied r.2) (z.tried base r.1)

section Loops

variable {k : Errors} {base : Str}

theorem run_zmq_bind (addr : Str) (z : Net) : zmq_bind addr z = .ret (z.answers.headD none) (z.bound addr) := rfl

theorem ports_succ {port : Int} (h : port ≤ RANDOM_PORT_MAX) (tries : Nat) :
    ports (tries + 1) port = port :: ports tries (port + 1) := if_pos h

theorem whileLoop_nil (tries : Nat) (port : Int) (err : Option Nat) (z : Net) (h : ports tries port = []) :
    whileLoop k base tries port err z = .ret (.fail (err.getD k.EINVAL)) z := by
  cases tries with
  | zero => rfl
  | succ tries =>
    have hmax : ¬ port ≤ RANDOM_PORT_MAX := fun hmax => by
      rw [ports_succ hmax] at h
      cases h
    rw [whileLoop, if_neg hmax]
    rfl

theorem whileLoop_eq (tries : Nat) : ∀ (port : Int) (err : Option Nat) (z : Net), ports tries port ≠ [] →
    whileLoop k base tries port err z = z.searched base (search (goesOn k) (ports tries port) z.answers) := by
  induction tries with
  | zero => exact fun _ _ _ h => absurd rfl h
  | succ tries ih =>
    intro port err z hne
    have hmax : port ≤ RANDOM_PORT_MAX := by
      by_contra hmax
      exact hne (if_neg hmax)
    rw [whileLoop, if_pos hmax, ports_succ hmax, Lua.run_bind, run_zmq_bind, Lua.andThen_ret]
    cases h : z.answers.headD none with
    | none =>
      rw [Search.search_taken h]
      rfl
    | some e =>
      dsimp only
      cases he : goesOn k e with
      | false =>
        rw [Search.search_ends h he]
        rfl
      | true =>
        rw [if_pos rfl]
        cases hports : ports tries (port + 1) with
        | nil =>
          rw [whileLoop_nil _ _ _ _ hports, Search.search_last h]
          rfl
        | cons b rest =>
          rw [ih _ _ _ (by rw [hports]; exact List.cons_ne_nil b rest), hports, Search.search_again h he]
          rfl

theorem ports_ne_nil {port tries : Int} (htries : 0 < tries) (hport : port ≤ RANDOM_PORT_MAX) :
    ports tries.toNat port ≠ [] := by
  obtain ⟨n, hn⟩ : ∃ n, tries.toNat = n + 1 := ⟨tries.toNat - 1, by omega⟩
  rw [hn, ports_succ hport]
  exact List.cons_ne_nil _ _

/-- The loop of the C binding and what follows it. -/
def afterLoop : Option Int → Lua Net Reply
  | some port => pure (.port port)
  | none => do
    let errno ← Lua.read Net.errno
    pure (.fail errno)

theorem bindLoop_nil (tries : Nat) (port : Int) (z : Net) (h : ports tries port = []) :
    bindLoop k base tries port z = .ret none z := by
  cases tries with
  | zero => rfl
  | succ tries =>
    have hmax : ¬ port ≤ RANDOM_PORT_MAX := fun hmax => by
      rw [ports_succ hmax] at h
      cases h
    rw [bindLoop, if_neg hmax]
    rfl

theorem bindLoop_eq (tries : Nat) : ∀ (port : Int) (z : Net), ports tries port ≠ [] →
    Lua.andThen (bindLoop k base tries port z) afterLoop =
      z.searched base (search (continues k) (ports tries port) z.answers) := by
  induction tries with
  | zero => exact fun _ _ h => absurd rfl h
  | succ tries ih =>
    intro port z hne
    have hmax : port ≤ RANDOM_PORT_MAX := by
      by_contra hmax
      exact hne (if_neg hmax)
    rw [bindLoop, if_pos hmax, ports_succ hmax, Lua.run_bind, run_zmq_bind, Lua.andThen_ret]
    cases h : z.answers.headD none with
    | none =>
      rw [Search.search_taken h]
      rfl
    | some e =>
      have hfail : afterLoop none (z.bound (address base port)) = .ret (.fail e) (z.bound (address base port)) := by
        have herrno : (z.bound (address base port)).errno = e := by rw [Net.bound, h, Option.getD_some]
        simp only [afterLoop, Lua.run_bind, Lua.run_read, Lua.andThen_ret, Lua.run_pure, herrno]
      dsimp only
      cases he : continues k e with
      | false =>
        rw [Search.search_ends h he]
        exact hfail
      | true =>
        rw [if_pos rfl]
        cases hports : ports tries (port + 1) with
        | nil =>
          rw [bindLoop_nil _ _ _ hports, Search.search_last h]
          exact hfail
        | cons b rest =>
          rw [ih _ _ (by rw [hports]; exact List.cons_ne_nil b rest), hports, Search.search_again h he]
          rfl

/-! ## The result -/

/-- The ports that there are to be tried, if the arguments are accepted. -/
def candidates (port tries : Option Int) : List Int :=
  let first := port.getD RANDOM_PORT_BASE
  let tries := tries.getD (RANDOM_PORT_MAX - first + 1)
  if 0 < first ∧ first ≤ RANDOM_PORT_MAX then ports tries.toNat first else []

/-- The C binding searches its candidates, or raises an error. -/
theorem c_searches (k : Errors) (base : Str) (port tries : Option CInt) (z : Net) :
    (candidates (port.map BitVec.toInt) (tries.map BitVec.toInt) = [] ∧
      luazmqSktBindToRandomPort k base port tries z = .raise z) ∨
    (candidates (port.map BitVec.toInt) (tries.map BitVec.toInt) ≠ [] ∧
      luazmqSktBindToRandomPort k base port tries z = z.searched base
        (search (continues k) (candidates (port.map BitVec.toInt) (tries.map BitVec.toInt)) z.answers)) := by
  simp only [luazmqSktBindToRandomPort, candidates]
  generalize (port.map BitVec.toInt).getD RANDOM_PORT_BASE = first
  generalize (tries.map BitVec.toInt).getD (RANDOM_PORT_MAX - first + 1) = tries
  by_cases hport : 0 < first ∧ first ≤ RANDOM_PORT_MAX
  · rw [if_neg (not_not_intro hport), if_pos hport]
    by_cases htries : 0 < tries
    · rw [if_neg (not_not_intro htries)]
      have hne := ports_ne_nil htries hport.2
      exact Or.inr ⟨hne, bindLoop_eq _ _ _ hne⟩
    · rw [if_pos htries, Int.toNat_eq_zero.mpr (by omega)]
      exact Or.inl ⟨rfl, rfl⟩
  · rw [if_pos hport, if_neg hport]
    exact Or.inl ⟨rfl, rfl⟩

/-- So does the FFI binding. -/
theorem ffi_searches (k : Errors) (base : Str) (port tries : Option Int) (z : Net) :
    (candidates port tries = [] ∧ bindToRandomPort k base port tries z = .raise z) ∨
    (candidates port tries ≠ [] ∧ bindToRandomPort k base port tries z =
      z.searched base (search (goesOn k) (candidates port tries) z.answers)) := by
  simp only [bindToRandomPort, candidates]
  generalize port.getD RANDOM_PORT_BASE = first
  generalize tries.getD (RANDOM_PORT_MAX - first + 1) = tries
  by_cases hport : 0 < first ∧ first ≤ RANDOM_PORT_MAX
  · rw [if_neg (not_not_intro hport), if_pos hport]
    by_cases htries : 0 < tries
    · rw [if_neg (not_not_intro htries)]
      have hne := ports_ne_nil htries hport.2
      exact Or.inr ⟨hne, whileLoop_eq _ _ _ _ hne⟩
    · rw [if_pos htries, Int.toNat_eq_zero.mpr (by omega)]
      exact Or.inl ⟨rfl, rfl⟩
  · rw [if_pos hport, if_neg hport]
    exact Or.inl ⟨rfl, rfl⟩

/-! ## The cast -/

/-- What the C binding tries, if it tries any, and the FFI binding. -/
def cPorts (port tries : Option Whole) : List Int :=
  candidates ((port.map Whole.int).map BitVec.toInt) ((tries.map Whole.int).map BitVec.toInt)

def ffiPorts (port tries : Option Whole) : List Int := candidates (port.map Whole.val) (tries.map Whole.val)

theorem ports_prefix {m : Nat} : ∀ {n : Nat} (port : Int), m ≤ n → ports m port <+: ports n port := by
  induction m with
  | zero => exact fun _ _ => List.nil_prefix
  | succ m ih =>
    intro n port hle
    obtain ⟨n, rfl⟩ : ∃ n', n = n' + 1 := ⟨n - 1, by omega⟩
    rw [ports, ports]
    split
    · exact List.cons_prefix_cons.mpr ⟨rfl, ih (port + 1) (by omega)⟩
    · exact List.prefix_rfl

/-- A number that fits is not changed, and one that is positive does not grow. -/
theorem toInt_int (x : Whole) : (0 < x.val → x.int.toInt ≤ x.val) ∧
    (0 < x.val → x.val ≤ RANDOM_PORT_MAX → x.int.toInt = x.val) := by
  have hmod : x.int.toInt = Int.bmod x.val (2 ^ 32) := BitVec.toInt_ofInt ..
  rw [hmod, Int.bmod_def, RANDOM_PORT_MAX]
  constructor
  · intro hpos
    split <;> omega
  · intro hpos hle
    split <;> omega

/-- **The ports of C** are the first ones of those of FFI, when both have some. -/
theorem cPorts_prefix {port tries : Option Whole} (hffi : ffiPorts port tries ≠ []) :
    cPorts port tries <+: ffiPorts port tries := by
  simp only [ffiPorts, cPorts, candidates, Option.map_map] at hffi ⊢
  by_cases hport : 0 < (port.map Whole.val).getD RANDOM_PORT_BASE ∧
      (port.map Whole.val).getD RANDOM_PORT_BASE ≤ RANDOM_PORT_MAX
  · -- the port is the same
    have hfirst : (port.map (BitVec.toInt ∘ Whole.int)).getD RANDOM_PORT_BASE =
        (port.map Whole.val).getD RANDOM_PORT_BASE := by
      cases port with
      | none => rfl
      | some p => exact (toInt_int p).2 hport.1 hport.2
    rw [hfirst, if_pos hport, if_pos hport]
    rw [if_pos hport] at hffi
    refine ports_prefix _ (Int.toNat_le_toNat ?_)
    cases tries with
    | none => exact Int.le_refl _
    | some t =>
      refine (toInt_int t).1 ?_
      by_contra hneg
      have hzero : t.val.toNat = 0 := Int.toNat_eq_zero.mpr (Int.not_lt.mp hneg)
      refine hffi ?_
      show ports t.val.toNat _ = []
      rw [hzero, ports]
  · exact absurd (if_neg hport) hffi

/-! ## Two searches -/

theorem calls_tried (l : List Int) : ∀ z : Net,
    (z.tried base l).calls = z.calls ++ l.map fun port => cString (address base port) := by
  induction l with
  | nil => exact fun z => (List.append_nil _).symm
  | cons port l ih =>
    intro z
    refine (ih (z.bound (address base port))).trans ?_
    rw [List.map_cons, Net.bound, List.append_assoc]
    rfl

theorem replied_inj {r r' : Option (Int ⊕ Nat)} (hr : r ≠ none) (hr' : r' ≠ none) (h : replied r = replied r') :
    r = r' := by
  rcases r with _ | (_ | _)
  · exact absurd rfl hr
  all_goals
    rcases r' with _ | (_ | _)
    · exact absurd rfl hr'
    all_goals first
      | exact congrArg (fun x => some (Sum.inl x)) (Reply.port.inj h)
      | exact congrArg (fun x => some (Sum.inr x)) (Reply.fail.inj h)
      | cases h

/-- Searches that end alike and leave the same state are the same; the second one may have more ports. -/
theorem searched_inj {l : List Int} (hl : l ≠ []) (more : List Int) {again again' : Nat → Bool} {z : Net}
    (h : z.searched base (search again l z.answers) = z.searched base (search again' (l ++ more) z.answers)) :
    search again l z.answers = search again' (l ++ more) z.answers := by
  obtain ⟨port, l, rfl⟩ := List.exists_cons_of_ne_nil hl
  obtain ⟨hreply, hz⟩ := Ending.ret.inj h
  have hlen := congrArg (fun z => z.calls.length) hz
  simp only [calls_tried, List.length_append, List.length_map] at hlen
  refine Prod.ext ?_ (replied_inj (Search.search_end again l port z.answers).1
    (Search.search_end again' (l ++ more) port z.answers).1 hreply)
  -- both have tried the first ports, and as many
  have hfront := (Search.tried_prefix again (port :: l) z.answers).trans (List.prefix_append _ more)
  have hfront' := Search.tried_prefix again' (port :: l ++ more) z.answers
  rw [List.prefix_iff_eq_take] at hfront hfront'
  rw [hfront, hfront', Nat.add_left_cancel hlen]

/-- The bindings accept the arguments alike and judge alike; if the cast leaves the C binding fewer ports, the search
    does not get past them. -/
def PortsFit (k : Errors) (port tries : Option Whole) (answers : List (Option Nat)) : Prop :=
  (cPorts port tries = [] ↔ ffiPorts port tries = []) ∧
    Alike (continues k) (goesOn k) (cPorts port tries).length answers ∧
    (cPorts port tries ≠ [] → (cPorts port tries).length < (ffiPorts port tries).length →
      Stops (continues k) (goesOn k) (cPorts port tries).length answers)

/-- Searches of the ports of both bindings. -/
theorem search_ports_iff {port tries : Option Whole} (hc : cPorts port tries ≠ []) (hffi : ffiPorts port tries ≠ [])
    (z : Net) : z.searched base (search (continues k) (cPorts port tries) z.answers) =
      z.searched base (search (goesOn k) (ffiPorts port tries) z.answers) ↔ PortsFit k port tries z.answers := by
  rw [PortsFit, and_iff_right (iff_of_false hc hffi), forall_prop_of_true hc]
  obtain ⟨more, hmore⟩ := cPorts_prefix hffi
  rw [← hmore]
  cases more with
  | nil =>
    rw [List.append_nil, and_iff_left fun h => absurd h (Nat.lt_irrefl _), ← Search.search_eq_iff]
    refine ⟨fun h => ?_, congrArg _⟩
    have hnil := List.append_nil (cPorts port tries)
    exact (searched_inj hc [] (h.trans (by rw [hnil]))).trans (by rw [hnil])
  | cons b more =>
    have hlt : (cPorts port tries).length < (cPorts port tries ++ b :: more).length := by simp
    rw [forall_prop_of_true hlt]
    obtain ⟨first, rest, hcons⟩ := List.exists_cons_of_ne_nil hc
    have hiff := Search.search_append_eq_iff (continues k) (goesOn k) b more first rest z.answers
    rw [← hcons] at hiff
    rw [← hiff]
    exact ⟨searched_inj hc (b :: more), congrArg _⟩

theorem mem_ports {p : Int} (tries : Nat) : ∀ port, p ∈ ports tries port → port ≤ p ∧ p ≤ RANDOM_PORT_MAX := by
  induction tries with
  | zero => exact fun port h => absurd h List.not_mem_nil
  | succ tries ih =>
    intro port h
    rw [ports] at h
    split at h
    · next hmax =>
      rcases List.mem_cons.mp h with rfl | h
      · exact ⟨Int.le_refl _, hmax⟩
      · obtain ⟨hle, hle'⟩ := ih _ h
        exact ⟨by omega, hle'⟩
    · cases h

/-- The buffer of the C binding has room for the address, whose length is `dest_len + 10`. -/
theorem length_address {port tries : Option Int} {p : Int} (h : p ∈ candidates port tries) :
    0 < p ∧ p ≤ RANDOM_PORT_MAX ∧ (address base p).length + 1 ≤ base.length + 10 := by
  simp only [candidates] at h
  split at h
  · next hport =>
    obtain ⟨hle, hmax⟩ := mem_ports _ _ h
    have hpos : 0 < p := Int.lt_of_lt_of_le hport.1 hle
    refine ⟨hpos, hmax, ?_⟩
    have hdigits : (Nat.toDigits 10 p.natAbs).length ≤ 5 := by
      rw [Nat.length_toDigits_le_iff (by decide) (by decide)]
      have : p ≤ 65535 := hmax
      omega
    rw [address, List.length_append, List.length_cons, decimal, if_neg (by omega), List.length_append,
      List.length_nil, List.length_map]
    omega
  · cases h

/-- **`bind_to_random_port`.**  Both bindings make the same calls and reply the same iff they accept the arguments
    alike and their tests judge alike of each error that the C binding meets before its last port, at which the
    search must end if the cast has left C fewer ports.  And the C binding tries its ports in their order, each in
    a buffer that has room for it, and returns the port that it has tried last. -/
theorem random_port_agrees_iff (k : Errors) (base : Str) (port tries : Option Whole) (z : Net) :
    (luazmqSktBindToRandomPort k base (port.map Whole.int) (tries.map Whole.int) z =
        bindToRandomPort k base (port.map Whole.val) (tries.map Whole.val) z ↔ PortsFit k port tries z.answers) ∧
    (∀ p ∈ cPorts port tries, p ≤ RANDOM_PORT_MAX ∧ (address base p).length + 1 ≤ base.length + 10) ∧
    ∀ r z', luazmqSktBindToRandomPort k base (port.map Whole.int) (tries.map Whole.int) z = .ret r z' →
      ∃ tried, tried <+: cPorts port tries ∧
        z'.calls = z.calls ++ tried.map (fun p => cString (address base p)) ∧
        ∀ p, r = .port p → tried.getLast? = some p := by
  have hcRun := c_searches k base (port.map Whole.int) (tries.map Whole.int) z
  refine ⟨?_, fun p hp => (length_address hp).2, ?_⟩
  · have hffiRun := ffi_searches k base (port.map Whole.val) (tries.map Whole.val) z
    rcases hcRun with ⟨hc, hcrun⟩ | ⟨hc, hcrun⟩
    · rcases hffiRun with ⟨hffi, hffirun⟩ | ⟨hffi, hffirun⟩
      · have hcp : cPorts port tries = [] := hc
        rw [hcrun, hffirun, PortsFit, hcp]
        exact iff_of_true rfl ⟨iff_of_true rfl hffi, fun i hi => absurd hi (Nat.not_lt_zero _), fun h => absurd rfl h⟩
      · rw [hcrun, hffirun]
        exact iff_of_false (fun h => by cases h) fun h => hffi (h.1.mp hc)
    · rcases hffiRun with ⟨hffi, hffirun⟩ | ⟨hffi, hffirun⟩
      · rw [hcrun, hffirun]
        exact iff_of_false (fun h => by cases h) fun h => hc (h.1.mpr hffi)
      · rw [hcrun, hffirun]
        exact search_ports_iff hc hffi z
  · intro r z' h
    rcases hcRun with ⟨-, hc⟩ | ⟨hne, hc⟩
    · cases hc.symm.trans h
    · obtain ⟨rfl, rfl⟩ := Ending.ret.inj (hc.symm.trans h)
      refine ⟨_, Search.tried_prefix (continues k) _ z.answers, calls_tried _ z, fun p hp => ?_⟩
      obtain ⟨first, rest, hcons⟩ := List.exists_cons_of_ne_nil hne
      rw [hcons] at hp
      rw [cPorts, hcons]
      obtain ⟨hsome, hlast⟩ := Search.search_end (continues k) rest first z.answers
      exact hlast p (replied_inj hsome (Option.some_ne_none _) hp)

/-- Linux, where the FFI binding has found no numbers and takes those of another system. -/
example : let k : Errors :=
      { EADDRINUSE := 98, EACCES := 13, EINVAL := 22, ffiEADDRINUSE := 48, ffiEACCES := 13
        strerror := fun n => if n = 98 then bytes "Address already in use" else [], oldWindows := false }
    (continues k 98 = true ∧ goesOn k 98 = true) ∧ continues k 48 = false ∧ goesOn k 48 = true := by decide +kernel

end Loops

end Lzmq.Binds
