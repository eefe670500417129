/-
  Draining a list from its end while it is being shrunk.

  A scheduler owes a fixed number `k` of rounds.  In each round it takes the last READY element below a
  cursor, serves it, and leaves the cursor at its position; serving may shrink the list (`shrink`), which
  moves the elements above a gap down under the cursor.  Nothing tells the scheduler that this happened,
  so it may serve an element twice or run out of ready elements before it has done its rounds.

  When does it serve every ready element exactly once?  `Undisturbed` is the answer, in terms of the list
  alone: serving an element, in descending order, leaves at the positions below it the ready elements
  that are still to be served, and no other.
    * `undisturbed_step`       the condition, one round at a time;
    * `drain_of_undisturbed`   then the elements are served in descending order, each once;
    * `undisturbed_of_drain`   and conversely, if no element is served twice and the rounds do not run
                               dry, no round was disturbed.
  All that is assumed of `shrink` is that it deletes elements and keeps the order (`Shrinks`).
-/
import Mathlib.Data.List.Nodup
import Mathlib.Data.List.Perm.Subperm

namespace Lzmq.Drain

variable {α : Type} (ready : α → Bool) (shrink : List α → List α → List α)

/-- The last ready element below `n`, with its position. -/
def lastReady (l : List α) : Nat → Option (Nat × α)
  | 0 => none
  | n + 1 =>
    match l[n]? with
    | some e => if ready e then some (n, e) else lastReady l n
    | none => lastReady l n

/-- The ready elements below `n`, in list order. -/
def readyBelow (l : List α) (n : Nat) : List α := (l.take n).filter ready

/-- `k` rounds, with cursor `n` and the elements `served` so far; the result is what was served and the
    list that is left, or `none` if a round finds nothing. -/
def drain : Nat → List α → Nat → List α → Option (List α × List α)
  | 0, l, _, served => some (served, l)
  | k + 1, l, n, served =>
    match lastReady ready l n with
    | none => none
    | some (i, e) => drain k (shrink (served ++ [e]) l) i (served ++ [e])

/-- What is left of the list when the elements `es` have been served in this order, after `served`. -/
def left : List α → List α → List α → List α
  | _, [], l => l
  | served, e :: es, l => left (served ++ [e]) es (shrink (served ++ [e]) l)

/-- Whenever an element other than the last is served, in descending order from below `n`, the ready
    elements that are then at the positions below its own are those still to be served. -/
def Undisturbed (l : List α) (n : Nat) (served : List α) : Prop :=
  ∀ pre e post, (readyBelow ready l n).reverse = pre ++ e :: post → post ≠ [] →
    ∀ i, (left shrink served pre l)[i]? = some e →
      readyBelow ready (left shrink served (pre ++ [e]) l) i = post.reverse

/-- `shrink` deletes elements and keeps the order of the others: of every prefix and of the rest it
    leaves a sublist. -/
def Shrinks : Prop :=
  ∀ served A B, ∃ A' B', shrink served (A ++ B) = A' ++ B' ∧ A'.Sublist A ∧ B'.Sublist B

variable {ready shrink}

/-! ## The last ready element -/

theorem readyBelow_succ_some {l : List α} {n : Nat} {e : α} (h : l[n]? = some e) :
    readyBelow ready l (n + 1) = readyBelow ready l n ++ if ready e then [e] else [] := by
  rw [readyBelow, List.take_add_one, h, List.filter_append]
  cases hr : ready e <;> simp [readyBelow, hr]

theorem readyBelow_succ_none {l : List α} {n : Nat} (h : l[n]? = none) :
    readyBelow ready l (n + 1) = readyBelow ready l n := by
  rw [readyBelow, List.take_add_one, h]
  simp [readyBelow]

theorem lastReady_none {l : List α} : ∀ {n : Nat}, lastReady ready l n = none → readyBelow ready l n = []
  | 0, _ => rfl
  | n + 1, h => by
    rw [lastReady] at h
    cases hn : l[n]? with
    | none => rw [hn] at h; rw [readyBelow_succ_none hn]; exact lastReady_none h
    | some e =>
      simp only [hn] at h
      by_cases hr : ready e = true
      · rw [if_pos hr] at h; cases h
      · rw [if_neg hr] at h
        rw [readyBelow_succ_some hn, lastReady_none h, if_neg hr]; rfl

theorem lastReady_some {l : List α} : ∀ {n i : Nat} {e : α}, lastReady ready l n = some (i, e) →
    i < n ∧ l[i]? = some e ∧ ready e = true ∧ readyBelow ready l n = readyBelow ready l i ++ [e] ∧
      ∀ x ∈ l.drop (i + 1), ready x = true → x ∈ l.drop n
  | 0, _, _, h => by cases h
  | n + 1, i, e, h => by
    rw [lastReady] at h
    cases hn : l[n]? with
    | none =>
      rw [hn] at h
      obtain ⟨h1, h2, h3, h4, h5⟩ := lastReady_some h
      have hlen := List.getElem?_eq_none_iff.mp hn
      refine ⟨by omega, h2, h3, by rw [readyBelow_succ_none hn, h4], fun x hx hr => ?_⟩
      have := h5 x hx hr
      rw [List.drop_eq_nil_of_le hlen] at this
      exact absurd this List.not_mem_nil
    | some y =>
      simp only [hn] at h
      by_cases hr : ready y = true
      · rw [if_pos hr, Option.some.injEq, Prod.mk.injEq] at h
        obtain ⟨rfl, rfl⟩ := h
        exact ⟨by omega, hn, hr, by rw [readyBelow_succ_some hn, if_pos hr], fun x hx _ => hx⟩
      · rw [if_neg hr] at h
        obtain ⟨h1, h2, h3, h4, h5⟩ := lastReady_some h
        refine ⟨by omega, h2, h3, ?_, fun x hx hrx => ?_⟩
        · rw [readyBelow_succ_some hn, h4, if_neg hr, List.append_nil]
        · have hmem := h5 x hx hrx
          obtain ⟨hlt, hy⟩ := List.getElem?_eq_some_iff.mp hn
          rw [List.drop_eq_getElem_cons hlt, hy, List.mem_cons] at hmem
          rcases hmem with hmem | hmem
          · exact absurd (hmem ▸ hrx) hr
          · exact hmem

/-- Between the last ready element and `n` there is no other. -/
theorem lastReady_above {l : List α} : ∀ {n i : Nat} {e : α}, lastReady ready l n = some (i, e) →
    ∀ (j : Nat) (x : α), i < j → j < n → l[j]? = some x → ready x = false
  | 0, _, _, h => by cases h
  | n + 1, i, e, h => by
    intro j x hij hj hx
    rw [lastReady] at h
    by_cases hjn : j = n
    · subst hjn
      by_contra hr
      rw [hx] at h
      simp only [Bool.not_eq_false] at h hr
      rw [if_pos hr] at h
      obtain ⟨rfl, -⟩ := Prod.mk.inj (Option.some.inj h)
      exact Nat.lt_irrefl _ hij
    · cases hn : l[n]? with
      | none =>
        rw [hn] at h
        exact lastReady_above h j x hij (by omega) hx
      | some y =>
        simp only [hn] at h
        by_cases hr : ready y = true
        · rw [if_pos hr] at h
          obtain ⟨rfl, -⟩ := Prod.mk.inj (Option.some.inj h)
          omega
        · rw [if_neg hr] at h
          exact lastReady_above h j x hij (by omega) hx

/-- Searching a mapped list. -/
theorem lastReady_map {β : Type} (f : β → α) (l : List β) : ∀ n, lastReady ready (l.map f) n =
    (lastReady (fun b => ready (f b)) l n).map fun r => (r.1, f r.2)
  | 0 => rfl
  | n + 1 => by
    rw [lastReady, lastReady, List.getElem?_map, lastReady_map f l n]
    cases l[n]? with
    | none => rfl
    | some b =>
      simp only [Option.map_some]
      split <;> rfl

theorem mem_readyBelow {l : List α} {n : Nat} {e : α} :
    e ∈ readyBelow ready l n ↔ e ∈ l.take n ∧ ready e = true := List.mem_filter

/-! ## The condition, one round at a time -/

/-- The next element is served, and the rest is undisturbed from there. -/
theorem undisturbed_step {l : List α} (hnd : l.Nodup) {n i : Nat} {e : α} {served : List α}
    (hlast : lastReady ready l n = some (i, e)) :
    Undisturbed ready shrink l n served ↔ (readyBelow ready l i ≠ [] →
      readyBelow ready (shrink (served ++ [e]) l) i = readyBelow ready l i ∧
        Undisturbed ready shrink (shrink (served ++ [e]) l) i (served ++ [e])) := by
  obtain ⟨-, hget, -, hbelow, -⟩ := lastReady_some hlast
  have hrev : (readyBelow ready l n).reverse = e :: (readyBelow ready l i).reverse := by
    rw [hbelow, List.reverse_append]; rfl
  constructor
  · intro hu hne
    have hsame : readyBelow ready (shrink (served ++ [e]) l) i = readyBelow ready l i := by
      have h := hu [] e _ hrev (fun hnil => hne (List.reverse_eq_nil_iff.mp hnil)) i hget
      rw [List.reverse_reverse] at h
      exact h
    refine ⟨hsame, fun pre x post hsplit hpost => ?_⟩
    rw [hsame] at hsplit
    exact hu (e :: pre) x post (by rw [hrev, hsplit]; rfl) hpost
  · intro hu pre x post hsplit hpost
    rw [hrev] at hsplit
    cases pre with
    | nil =>
      obtain ⟨rfl, hrest⟩ := List.cons.inj hsplit
      have hne : readyBelow ready l i ≠ [] := by
        intro hnil
        rw [hnil] at hrest
        exact hpost hrest.symm
      intro j hj
      -- the element is in the list once, so its position is the one found
      obtain ⟨hi, hie⟩ := List.getElem?_eq_some_iff.mp hget
      obtain ⟨hjl, hje⟩ := List.getElem?_eq_some_iff.mp hj
      obtain rfl : j = i := hnd.getElem_inj_iff.mp (hje.trans hie.symm)
      rw [← hrest, List.reverse_reverse]
      exact (hu hne).1
    | cons y pre =>
      obtain ⟨rfl, hrest⟩ := List.cons.inj hsplit
      have hne : readyBelow ready l i ≠ [] := by
        intro hnil
        rw [hnil] at hrest
        simp at hrest
      obtain ⟨hsame, hu'⟩ := hu hne
      exact hu' pre x post (by rw [hsame]; exact hrest) hpost

/-- Shrinking a list without duplicates leaves one. -/
theorem Shrinks.nodup (hs : Shrinks shrink) {l : List α} (hnd : l.Nodup) (served : List α) :
    (shrink served l).Nodup := by
  obtain ⟨A', B', hsplit, hA, hB⟩ := hs served l []
  rw [List.append_nil, List.sublist_nil.mp hB, List.append_nil] at hsplit
  rw [hsplit]
  exact hA.nodup hnd

/-! ## Undisturbed rounds serve everything once -/

/-- **Sufficiency.**  Undisturbed rounds, as many as there are ready elements below the cursor, serve
    exactly these, in descending order. -/
theorem drain_of_undisturbed (hs : Shrinks shrink) : ∀ (k : Nat) (l : List α) (n : Nat)
    (served : List α), l.Nodup → (readyBelow ready l n).length = k → Undisturbed ready shrink l n served →
    ∃ l', drain ready shrink k l n served = some (served ++ (readyBelow ready l n).reverse, l') := by
  intro k
  induction k with
  | zero =>
    intro l n served _ hk _
    rw [List.length_eq_zero_iff.mp hk, List.reverse_nil, List.append_nil]
    exact ⟨l, rfl⟩
  | succ k ih =>
    intro l n served hnd hk hu
    rw [drain]
    cases hlast : lastReady ready l n with
    | none => rw [lastReady_none hlast] at hk; exact absurd hk (by simp)
    | some p =>
      obtain ⟨i, e⟩ := p
      obtain ⟨-, -, -, hbelow, -⟩ := lastReady_some hlast
      rw [undisturbed_step hnd hlast] at hu
      rw [hbelow, List.length_append, List.length_singleton, Nat.add_right_cancel_iff] at hk
      rw [hbelow, List.reverse_append, List.reverse_singleton, ← List.append_assoc]
      show ∃ l', drain ready shrink k (shrink (served ++ [e]) l) i (served ++ [e]) = _
      by_cases hnil : readyBelow ready l i = []
      · rw [hnil] at hk ⊢
        obtain rfl : k = 0 := hk.symm
        exact ⟨_, by rw [drain, List.reverse_nil, List.append_nil]⟩
      · obtain ⟨hsame, hu'⟩ := hu hnil
        rw [← hsame] at hk ⊢
        exact ih _ _ _ (hs.nodup hnd _) hk hu'

/-! ## Serving everything once takes undisturbed rounds -/

/-- What was served before stays in front. -/
theorem prefix_drain : ∀ (k : Nat) (l : List α) (n : Nat) (served : List α) (r : List α × List α),
    drain ready shrink k l n served = some r → ∃ new, r.1 = served ++ new := by
  intro k
  induction k with
  | zero =>
    intro l n served r h
    rw [drain, Option.some.injEq] at h
    exact ⟨[], by rw [← h, List.append_nil]⟩
  | succ k ih =>
    intro l n served r h
    rw [drain] at h
    cases hlast : lastReady ready l n with
    | none => rw [hlast] at h; cases h
    | some p =>
      rw [hlast] at h
      obtain ⟨new, hnew⟩ := ih _ _ _ _ h
      exact ⟨[p.2] ++ new, by rw [hnew, List.append_assoc]⟩

/-- The cursor invariant: a ready element at or above the cursor has been served. -/
def Swept (ready : α → Bool) (l : List α) (n : Nat) (served : List α) : Prop :=
  ∀ e ∈ l.drop n, ready e = true → e ∈ served

/-- Serving the element found and shrinking the list moves the cursor invariant along. -/
theorem Swept.next (hs : Shrinks shrink) {l : List α} {n i : Nat} {e : α} {served : List α}
    (h : Swept ready l n served) (hlast : lastReady ready l n = some (i, e)) :
    Swept ready l i (served ++ [e]) ∧ Swept ready (shrink (served ++ [e]) l) i (served ++ [e]) := by
  obtain ⟨-, hget, -, -, hbetween⟩ := lastReady_some hlast
  obtain ⟨hlt, he⟩ := List.getElem?_eq_some_iff.mp hget
  have hl : Swept ready l i (served ++ [e]) := by
    intro x hx hr
    rw [List.drop_eq_getElem_cons hlt, he, List.mem_cons] at hx
    rcases hx with hx | hx
    · exact List.mem_append_right _ (List.mem_singleton.mpr hx)
    · exact List.mem_append_left _ (h x (hbetween x hx hr) hr)
  refine ⟨hl, fun x hx hr => hl x ?_ hr⟩
  obtain ⟨A', B', hsplit, hA, hB⟩ := hs (served ++ [e]) (l.take i) (l.drop i)
  rw [List.take_append_drop] at hsplit
  have hlen : A'.length ≤ i := Nat.le_trans hA.length_le (List.length_take_le i l)
  rw [hsplit, List.drop_append, List.drop_eq_nil_of_le hlen, List.nil_append] at hx
  exact hB.subset (List.mem_of_mem_drop hx)

/-- If nothing is served twice, the rounds serve different ready elements below the cursor. -/
theorem served_below (hs : Shrinks shrink) : ∀ (k : Nat) (l : List α) (n : Nat) (served : List α)
    (r : List α × List α), Swept ready l n served → drain ready shrink k l n served = some r →
    r.1.Nodup → ∃ new, r.1 = served ++ new ∧ new.length = k ∧ ∀ e ∈ new, e ∈ readyBelow ready l n := by
  intro k
  induction k with
  | zero =>
    intro l n served r _ h _
    rw [drain, Option.some.injEq] at h
    exact ⟨[], by rw [← h, List.append_nil], rfl, fun e he => absurd he List.not_mem_nil⟩
  | succ k ih =>
    intro l n served r hsw h hnd
    rw [drain] at h
    cases hlast : lastReady ready l n with
    | none => rw [hlast] at h; cases h
    | some p =>
      obtain ⟨i, e⟩ := p
      rw [hlast] at h
      obtain ⟨-, -, -, hbelow, -⟩ := lastReady_some hlast
      obtain ⟨hswl, hsw'⟩ := hsw.next hs hlast
      obtain ⟨new, hr, hlen, hnew⟩ := ih _ _ _ _ hsw' h hnd
      refine ⟨e :: new, by rw [hr, List.append_assoc]; rfl, by rw [List.length_cons, hlen], ?_⟩
      rw [hbelow]
      intro x hx
      rcases List.mem_cons.mp hx with hx | hx
      · exact List.mem_append_right _ (List.mem_singleton.mpr hx)
      · apply List.mem_append_left _
        obtain ⟨hmem, hready⟩ := mem_readyBelow.mp (hnew x hx)
        obtain ⟨A', B', hsplit, hA, hB⟩ := hs (served ++ [e]) (l.take i) (l.drop i)
        rw [List.take_append_drop] at hsplit
        have hx' := List.mem_of_mem_take hmem
        rw [hsplit, List.mem_append] at hx'
        rcases hx' with hx' | hx'
        · exact mem_readyBelow.mpr ⟨hA.subset hx', hready⟩
        · -- an element from above the cursor has been served before
          have hdup := hswl x (hB.subset hx') hready
          rw [hr] at hnd
          exact absurd hx (List.disjoint_of_nodup_append hnd hdup)

/-- If nothing is served twice, the next element has not been served. -/
theorem next_not_served {k : Nat} {l : List α} {n i : Nat} {e : α} {served : List α} {r : List α × List α}
    (hlast : lastReady ready l n = some (i, e)) (h : drain ready shrink (k + 1) l n served = some r)
    (hr : r.1.Nodup) : e ∉ served := by
  rw [drain, hlast] at h
  obtain ⟨new, hnew⟩ := prefix_drain _ _ _ _ _ h
  rw [hnew] at hr
  exact fun hserved =>
    List.disjoint_of_nodup_append (List.Nodup.of_append_left hr) hserved (List.mem_singleton.mpr rfl)

/-- A round after which the ready elements below the cursor differ cannot be followed by as many rounds
    without serving an element twice. -/
theorem round_undisturbed (hs : Shrinks shrink) {k : Nat} {l : List α} {n i : Nat} {e : α}
    {served : List α} {r : List α × List α} (hsw : Swept ready l n served)
    (hlast : lastReady ready l n = some (i, e)) (hk : (readyBelow ready l i).length = k)
    (hpos : readyBelow ready l i ≠ [])
    (h : drain ready shrink k (shrink (served ++ [e]) l) i (served ++ [e]) = some r) (hr : r.1.Nodup) :
    readyBelow ready (shrink (served ++ [e]) l) i = readyBelow ready l i := by
  obtain ⟨hswl, hsw'⟩ := hsw.next hs hlast
  obtain ⟨new, hnew, hlen, hbelow⟩ := served_below hs k _ _ _ _ hsw' h hr
  obtain ⟨A', B', hsplit, hA, hB⟩ := hs (served ++ [e]) (l.take i) (l.drop i)
  rw [List.take_append_drop] at hsplit
  have hlenA : A'.length ≤ i := Nat.le_trans hA.length_le (List.length_take_le i l)
  have hsplitBelow : readyBelow ready (shrink (served ++ [e]) l) i =
      A'.filter ready ++ (B'.take (i - A'.length)).filter ready := by
    rw [readyBelow, hsplit, List.take_append, List.take_of_length_le hlenA, List.filter_append]
  -- no ready element came down from above the cursor: it would be served next, again
  have hB0 : (B'.take (i - A'.length)).filter ready = [] := by
    cases hcase : lastReady ready (shrink (served ++ [e]) l) i with
    | none =>
      have hnone := lastReady_none hcase
      rw [hsplitBelow] at hnone
      exact (List.append_eq_nil_iff.mp hnone).2
    | some p =>
      obtain ⟨j, x⟩ := p
      obtain ⟨-, -, hxr, hxlast, -⟩ := lastReady_some hcase
      by_contra hne
      obtain ⟨ys, y, hys⟩ := List.eq_nil_or_concat _ |>.resolve_left hne
      rw [hsplitBelow, hys, List.concat_eq_append, ← List.append_assoc] at hxlast
      obtain rfl : y = x := by simpa using (List.append_inj' hxlast rfl).2
      have hyB : y ∈ l.drop i := by
        have hmem : y ∈ (B'.take (i - A'.length)).filter ready := by rw [hys]; simp
        exact hB.subset (List.mem_of_mem_take (List.mem_of_mem_filter hmem))
      cases k with
      | zero => exact hpos (List.length_eq_zero_iff.mp hk)
      | succ k => exact next_not_served hcase h hr (hswl y hyB hxr)
  rw [hsplitBelow, hB0, List.append_nil]
  -- the `k` new elements are ready ones that stayed below the cursor, so all `k` of them stayed
  have hsub : (A'.filter ready).Sublist (readyBelow ready l i) := hA.filter ready
  refine hsub.eq_of_length (Nat.le_antisymm hsub.length_le ?_)
  have hnewA : ∀ x ∈ new, x ∈ A'.filter ready := by
    intro x hx
    have hmem := hbelow x hx
    rw [hsplitBelow, hB0, List.append_nil] at hmem
    exact hmem
  rw [hnew] at hr
  have hperm : new.Subperm (A'.filter ready) :=
    List.subperm_of_subset (List.Nodup.of_append_right hr) hnewA
  rw [hk, ← hlen]
  exact hperm.length_le

/-- **Necessity.**  If the rounds do not run dry and serve nothing twice, they were undisturbed. -/
theorem undisturbed_of_drain (hs : Shrinks shrink) : ∀ (k : Nat) (l : List α) (n : Nat)
    (served : List α) (r : List α × List α), l.Nodup → Swept ready l n served →
    (readyBelow ready l n).length = k → drain ready shrink k l n served = some r → r.1.Nodup →
    Undisturbed ready shrink l n served := by
  intro k
  induction k with
  | zero =>
    intro l n served r _ _ hk _ _ pre e post hsplit _
    rw [List.length_eq_zero_iff.mp hk] at hsplit
    simp at hsplit
  | succ k ih =>
    intro l n served r hnd hsw hk h hr
    rw [drain] at h
    cases hlast : lastReady ready l n with
    | none =>
      rw [hlast] at h
      cases h
    | some p =>
      obtain ⟨i, e⟩ := p
      rw [hlast] at h
      rw [undisturbed_step hnd hlast]
      intro hpos
      obtain ⟨-, -, -, hbelow, -⟩ := lastReady_some hlast
      rw [hbelow, List.length_append, List.length_singleton, Nat.add_right_cancel_iff] at hk
      have hsame := round_undisturbed hs hsw hlast hk hpos h hr
      exact ⟨hsame, ih _ _ _ _ (hs.nodup hnd _) (hsw.next hs hlast).2 (by rw [hsame]; exact hk) h hr⟩

end Lzmq.Drain
