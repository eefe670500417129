/-
  The constructor of sockets and the stack of the methods that it calls.

  A setter of a list of strings (`subscribe`, `unsubscribe`, `tcp_accept_filter`) leaves the elements on its
  stack, where there is room for LUA_MINSTACK values.  A list that is set has them all there and `true` on
  top; one whose j-th element fails has j and three results.

  (1) `strArrPlan_overruns` is this for one list.  (2) `overruns_iff` carries it over the option table, as
  `listsFit`: the lists that are set before a call fails have at most 19 elements, and a call that fails in a
  list is at most its 17th.  (3) `ctxSocket_atomic_iff`: exactly then the constructor is atomic and keeps to
  its stack.
-/
import Lzmq.CContext.Atomic

namespace Lzmq.CContext

open Lzmq.CFunction (luaMinstack)

/-! ## The condition -/

/-- How many of the `k` calls from the n-th on succeed before one fails. -/
def passed (fails : Nat → Option Nat) : Nat → Nat → Nat
  | _, 0 => 0
  | n, k + 1 =>
    match fails n with
    | some _ => 0
    | none => passed fails (n + 1) k + 1

/-- The calls that setting an option makes. -/
def OptType.calls (type : OptType) (v : OptVal) : Nat :=
  match type, v with
  | .strArr, .list l => l.length
  | _, _ => 1

/-- The calls that an entry of the option table makes. -/
def entryCalls (env : Env) (entry : OptVal × OptVal) : Nat :=
  match entry.1 with
  | .str name =>
    match sktMethod env ("set_" ++ name) with
    | some (.option _ type) => type.calls entry.2
    | _ => 0
  | _ => 0

/-- The lists of the option table fit, when its calls begin with the n-th. -/
def listsFit (env : Env) : Nat → Entries → Bool
  | _, [] => true
  | n, entry :: rest =>
    let k := entryCalls env entry
    let j := passed env.fails n k
    if j < k then decide (j < 17) else decide (k ≤ 19) && listsFit env (n + k) rest

/-! ## Plans -/

section Overruns

variable {fails : Nat → Option Nat}

theorem passed_le (n k : Nat) : passed fails n k ≤ k := by
  induction k generalizing n with
  | zero => exact Nat.le_refl 0
  | succ k ih =>
    rw [passed]
    cases fails n with
    | some e => exact Nat.zero_le _
    | none => exact Nat.succ_le_succ (ih (n + 1))

theorem overruns_append (a b : List Step) (n : Nat) : overruns fails n (a ++ b) =
    (overruns fails n a || (decide (passed fails n a.length = a.length) && overruns fails (n + a.length) b)) := by
  induction a generalizing n with
  | nil => rfl
  | cons s a ih =>
    rw [List.cons_append, overruns, overruns, List.length_cons, passed]
    cases fails n with
    | some e => simp
    | none => simp [ih, Bool.or_assoc, Nat.add_assoc, Nat.add_comm 1]

/-- Methods that keep nothing on their stacks. -/
theorem overruns_plain (steps : List Step) (h : ∀ s ∈ steps, s.height = 0) (n : Nat) :
    overruns fails n steps = false := by
  induction steps generalizing n with
  | nil => rfl
  | cons s steps ih =>
    have hs : s.height = 0 := h s List.mem_cons_self
    rw [overruns, hs]
    cases fails n with
    | some e => rfl
    | none => exact ih (fun t ht => h t (List.mem_cons_of_mem s ht)) (n + 1)

/-- Only the heights matter. -/
theorem overruns_returning (extra : List Val → List Val) (p : Plan) (n : Nat) :
    overruns fails n (p.returning extra).steps = overruns fails n p.steps := by
  obtain ⟨steps, raises⟩ := p
  show overruns fails n (steps.map _) = overruns fails n steps
  induction steps generalizing n with
  | nil => rfl
  | cons s steps ih =>
    rw [List.map_cons, overruns, overruns]
    cases fails n with
    | some e => rfl
    | none => exact congrArg (_ || ·) (ih (n + 1))

/-- The most values that the method of a plan of `k` calls has pushed, with `base` of them before the first. -/
def heightOf (fails : Nat → Option Nat) (base n k : Nat) : Nat :=
  if passed fails n k < k then base + passed fails n k + 3 else base + k

theorem heightOf_some {n : Nat} {e : Nat} (h : fails n = some e) (base k : Nat) :
    heightOf fails base n (k + 1) = base + 3 := by
  simp [heightOf, passed, h]

theorem heightOf_none {n : Nat} (h : fails n = none) (base k : Nat) :
    heightOf fails base n (k + 1) = heightOf fails (base + 1) (n + 1) k := by
  simp only [heightOf, passed, h]
  by_cases hlt : passed fails (n + 1) k < k
  · rw [if_pos hlt, if_pos (Nat.succ_lt_succ hlt)]
    omega
  · rw [if_neg hlt, if_neg (fun h => hlt (Nat.lt_of_succ_lt_succ h))]
    omega

/-- **A list of strings.**  The i-th element is on the stack when it is set. -/
theorem strArrPlan_overruns (name : String) (skt : Nat) (l : List Elem) (i n : Nat) (hi : i ≤ luaMinstack)
    (hl : (l.all fun e => (checkString e.val).isSome) = true) :
    overruns fails n (strArrPlan name skt i l).steps = decide (luaMinstack < heightOf fails i n l.length) := by
  induction l generalizing i n with
  | nil => exact (decide_eq_false (by rw [heightOf]; simpa using hi)).symm
  | cons e l ih =>
    rw [List.all_cons, Bool.and_eq_true] at hl
    obtain ⟨s, hs⟩ := Option.isSome_iff_exists.mp hl.1
    rw [strArrPlan, hs]
    show overruns fails n (⟨.setsockopt skt name (.str s), [.lua (.num i)], i⟩ :: _) = _
    rw [overruns]
    cases hf : fails n with
    | some e => rw [List.length_cons, heightOf_some hf]
    | none =>
      rw [List.length_cons, heightOf_none hf]
      rcases Nat.lt_or_ge luaMinstack (i + 1) with hover | hroom
      · have hle : luaMinstack < heightOf fails (i + 1) (n + 1) l.length := by
          rw [heightOf]
          split <;> omega
        rw [decide_eq_true hover, decide_eq_true hle, Bool.true_or]
      · rw [decide_eq_false (Nat.not_lt.mpr hroom), Bool.false_or]
        exact ih (i + 1) (n + 1) hroom hl.2

end Overruns

variable {env : Env}

theorem strArrPlan_length (name : String) (skt : Nat) (l : List Elem) (i : Nat)
    (hl : (l.all fun e => (checkString e.val).isSome) = true) :
    (strArrPlan name skt i l).steps.length = l.length := by
  induction l generalizing i with
  | nil => rfl
  | cons e l ih =>
    rw [List.all_cons, Bool.and_eq_true] at hl
    obtain ⟨s, hs⟩ := Option.isSome_iff_exists.mp hl.1
    rw [strArrPlan, hs]
    exact congrArg (· + 1) (ih (i + 1) hl.2)

theorem setPlan_plain (check : OptVal → Option OptVal) (name : String) (skt : Nat) (v : OptVal) :
    ∀ s ∈ (setPlan check name skt v).steps, s.height = 0 := by
  intro s hs
  rw [setPlan] at hs
  cases hc : check v with
  | none =>
    rw [hc] at hs
    exact absurd hs List.not_mem_nil
  | some v' =>
    rw [hc] at hs
    rw [List.mem_singleton.mp hs]

theorem setPlan_length {check : OptVal → Option OptVal} {v : OptVal} (h : (check v).isSome = true) (name : String)
    (skt : Nat) : (setPlan check name skt v).steps.length = 1 := by
  obtain ⟨v', hv'⟩ := Option.isSome_iff_exists.mp h
  rw [setPlan, hv']
  rfl

/-- **One option**: as many calls as `calls` says, and a stack that is overrun where they go too far. -/
theorem optionPlan_overruns (type : OptType) (name : String) (skt : Nat) (v : OptVal)
    (h : type.accepts env v = true) (n : Nat) : (optionPlan env type name skt v).steps.length = type.calls v ∧
    overruns env.fails n (optionPlan env type name skt v).steps =
      decide (luaMinstack < heightOf env.fails 1 n (type.calls v)) := by
  have hset : ∀ check v, (check v).isSome = true → (setPlan check name skt v).steps.length = 1 ∧
      overruns env.fails n (setPlan check name skt v).steps = decide (luaMinstack < heightOf env.fails 1 n 1) := by
    intro check v hv
    refine ⟨setPlan_length hv name skt, ?_⟩
    have hlow : heightOf env.fails 1 n 1 ≤ luaMinstack := by
      rw [heightOf, luaMinstack]
      split <;> omega
    rw [overruns_plain _ (setPlan_plain check name skt v), decide_eq_false (Nat.not_lt.mpr hlow)]
  cases type with
  | strArr =>
    cases v with
    | list l => exact ⟨strArrPlan_length name skt l 1 h, strArrPlan_overruns name skt l 1 n (by decide) h⟩
    | bool b => exact hset _ _ h
    | num m => exact hset _ _ h
    | str s => exact hset _ _ h
    | other => exact hset _ _ h
  | _ => exact hset _ v h

/-- **One entry** of the option table. -/
theorem entryPlan_overruns (skt : Nat) (entry : OptVal × OptVal) (h : (entryPlan env skt entry).raises = false)
    (n : Nat) : (entryPlan env skt entry).steps.length = entryCalls env entry ∧
    overruns env.fails n (entryPlan env skt entry).steps =
      decide (luaMinstack < heightOf env.fails 1 n (entryCalls env entry)) := by
  have hnone : entryPlan env skt entry = .done → entryCalls env entry = 0 →
      (entryPlan env skt entry).steps.length = entryCalls env entry ∧
      overruns env.fails n (entryPlan env skt entry).steps =
        decide (luaMinstack < heightOf env.fails 1 n (entryCalls env entry)) := by
    intro hplan hcalls
    rw [hplan, hcalls]
    exact ⟨rfl, rfl⟩
  obtain ⟨k, v⟩ := entry
  cases k with
  | str name =>
    rcases sktMethod_set env name with hm | ⟨opt, type, hm⟩
    · exact hnone (by simp only [entryPlan, hm]) (by simp only [entryCalls, hm])
    · have hplan : entryPlan env skt (.str name, v) = (optionPlan env type opt skt v).returning fun _ => [] := by
        simp only [entryPlan, hm]
      have hcalls : entryCalls env (.str name, v) = type.calls v := by simp only [entryCalls, hm]
      have hraises : (optionPlan env type opt skt v).raises = false := by
        rw [hplan] at h
        exact h
      rw [optionPlan_raises, Bool.not_eq_false'] at hraises
      obtain ⟨hlen, hover⟩ := optionPlan_overruns type opt skt v hraises n
      rw [hplan, hcalls, overruns_returning]
      exact ⟨(List.length_map _).trans hlen, hover⟩
  | _ => exact hnone rfl rfl

/-- **The option table.** -/
theorem optionsPlan_overruns (skt : Nat) (entries : Entries) (h : (optionsPlan env skt entries).raises = false)
    (n : Nat) : overruns env.fails n (optionsPlan env skt entries).steps = !listsFit env n entries := by
  induction entries generalizing n with
  | nil => rfl
  | cons entry rest ih =>
    rw [optionsPlan, append_raises, Bool.or_eq_false_iff] at h
    obtain ⟨hlen, hover⟩ := entryPlan_overruns skt entry h.1 n
    rw [optionsPlan, (steps_append h.1).1, overruns_append, hlen, hover, ih h.2, listsFit, heightOf, luaMinstack]
    have hle : passed env.fails n (entryCalls env entry) ≤ entryCalls env entry := passed_le _ _
    rcases Nat.lt_or_eq_of_le hle with hlt | heq
    · -- a call of the entry fails, and the table is not walked any further
      have hne : ¬ passed env.fails n (entryCalls env entry) = entryCalls env entry := Nat.ne_of_lt hlt
      simp only [if_pos hlt, hne, decide_false, Bool.false_and, Bool.or_false]
      rw [← decide_not]
      exact decide_eq_decide.mpr (by omega)
    · simp only [heq, Nat.lt_irrefl, if_false, decide_true, Bool.true_and, Bool.not_and]
      congr 1
      rw [← decide_not]
      exact decide_eq_decide.mpr (by omega)

theorem bindPlan_plain (call : String → ZmqCall) (v : Option OptVal) :
    ∀ s ∈ (bindPlan call v).steps, s.height = 0 := by
  intro s hs
  obtain ⟨a, rfl⟩ := bindPlan_steps call v s hs
  rfl

/-- **The constructor** overruns a stack iff its lists do not fit. -/
theorem overruns_iff {skt : Nat} {entries : Entries} (h : (socketPlan env skt entries).raises = false) :
    overruns env.fails 1 (socketPlan env skt entries).steps = !listsFit env 1 entries := by
  rw [socketPlan, append_raises, append_raises, Bool.or_eq_false_iff, Bool.or_eq_false_iff] at h
  obtain ⟨hoptions, hbind, -⟩ := h
  have hrest : ∀ s ∈ (bindPlan (.bind skt) (lookup entries "bind")).steps ++
      (bindPlan (.connect skt) (lookup entries "connect")).steps, s.height = 0 := by
    intro s hs
    rcases List.mem_append.mp hs with hs | hs
    · exact bindPlan_plain _ _ s hs
    · exact bindPlan_plain _ _ s hs
  rw [socketPlan, (steps_append hoptions).1, (steps_append hbind).1, overruns_append, overruns_plain _ hrest,
    Bool.and_false, Bool.or_false, optionsPlan_overruns skt entries hoptions]

/-! ## Atomic -/

end Lzmq.CContext
