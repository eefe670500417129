/-
  What holds of a C poller between calls, and what each function of `poller.c` does to a poller in
  that state.

  `Wf` is the representation invariant: the free list is empty, the counters are in range and every
  slot above `count` is cleared.  Under it the array is determined by the list `active` of its first
  `count` items, so each operation gets ONE lemma that says what it does to `active`; the proofs about
  the binding never look at the array again.  The lemma on removal shows where the in-band encoding of
  free slots matters: besides the removed slot, the compaction drops every item whose event mask is
  the free tag.
-/
import Lzmq.CPoller.Items

namespace Lzmq.CPoller

/-- The representation invariant. -/
structure Wf (p : ZMQPoller) : Prop where
  freeList : p.freeList = -1
  length : p.items.length = p.len
  count : p.count ≤ p.len
  next : p.next < p.len
  clear : p.items.drop p.count = List.replicate (p.len - p.count) Pollitem.zero

theorem wf_pollerInit (n : Nat) : Wf (pollerInit n) where
  freeList := rfl
  length := List.length_replicate
  count := Nat.zero_le n
  next := by show (-1 : Int) < n; omega
  clear := by simp [pollerInit]

theorem active_pollerInit (n : Nat) : (pollerInit n).active = [] := by
  rw [ZMQPoller.active]; exact List.take_zero

namespace Wf

variable {p : ZMQPoller}

theorem active_length (h : Wf p) : p.active.length = p.count := by
  rw [ZMQPoller.active, List.length_take, h.length]
  exact Nat.min_eq_left h.count

/-- The array is its used part followed by cleared slots. -/
theorem items_eq (h : Wf p) :
    p.items = p.active ++ List.replicate (p.len - p.count) Pollitem.zero := by
  rw [ZMQPoller.active, ← h.clear, List.take_append_drop]

/-- How invariants are re-established: an array in the shape of `items_eq` is well formed, and its
    used part is the given list. -/
theorem of_items {l : List Pollitem} {k : Nat} (hfree : p.freeList = -1)
    (hitems : p.items = l ++ List.replicate k Pollitem.zero) (hcount : p.count = l.length)
    (hlen : p.len = l.length + k) (hnext : p.next < p.len) : Wf p ∧ p.active = l := by
  have hact : p.active = l := by rw [ZMQPoller.active, hitems, hcount, List.take_left]
  refine ⟨⟨hfree, ?_, by omega, hnext, ?_⟩, hact⟩
  · rw [hitems, List.length_append, List.length_replicate, hlen]
  · rw [hitems, hcount, List.drop_left, hlen, Nat.add_sub_cancel_left]

theorem active_get (h : Wf p) {i : Nat} (hi : i < p.count) :
    ∃ (hl : i < p.items.length) (ha : i < p.active.length), p.items[i] = p.active[i] := by
  have hl : i < p.items.length := by rw [h.length]; exact Nat.lt_of_lt_of_le hi h.count
  have ha : i < p.active.length := by rw [h.active_length]; exact hi
  exact ⟨hl, ha, by simp [ZMQPoller.active]⟩

end Wf

/-! ## Lookup -/

/-- The search of both finders, on the used part of the array. -/
theorem findItem_active {p : ZMQPoller} (h : Wf p) (test : Pollitem → Bool) :
    findItem p.items test 0 p.count = .ok (ofIdx? (p.active.findIdx? test)) := by
  have hle : 0 + p.count ≤ p.items.length := by rw [h.length, Nat.zero_add]; exact h.count
  rw [findItem_eq p.items test p.count 0 hle, List.drop_zero]
  simp [ZMQPoller.active]

theorem pollerFindSockItem_eq {p : ZMQPoller} (h : Wf p) (sock : Nat) :
    pollerFindSockItem p sock =
      .ok (ofIdx? (p.active.findIdx? fun it => it.socket == .handle sock)) :=
  findItem_active h _

theorem pollerFindFdItem_eq {p : ZMQPoller} (h : Wf p) (fd : Int) :
    pollerFindFdItem p fd = .ok (ofIdx? (p.active.findIdx? fun it => it.fd == fd)) :=
  findItem_active h _

/-! ## Removal -/

/-- Overwriting an element by one the filter rejects is as good as erasing it. -/
theorem filter_set_of_reject {α : Type} {f : α → Bool} {x : α} (hx : f x = false) :
    ∀ (l : List α) (i : Nat), (l.set i x).filter f = (l.eraseIdx i).filter f
  | [], _ => rfl
  | a :: l, 0 => by rw [List.set_cons_zero, List.eraseIdx_cons_zero, List.filter_cons_of_neg (by simp [hx])]
  | a :: l, i + 1 => by
    rw [List.set_cons_succ, List.eraseIdx_cons_succ, List.filter_cons, List.filter_cons,
      filter_set_of_reject hx l i]

/-- **Removal** of slot `idx` erases it, and with it every item that carries the free tag. -/
theorem pollerRemoveItem_spec {p : ZMQPoller} (h : Wf p) {idx : Nat} (hidx : idx < p.count) :
    ∃ p', pollerRemoveItem p idx = .ok p' ∧ Wf p' ∧ p'.next = p.next ∧
      p'.active = (p.active.eraseIdx idx).filter Pollitem.live := by
  have hlen := h.length
  have hle := h.count
  have hlt : idx < p.items.length := by omega
  obtain ⟨it, hit⟩ : ∃ it : Pollitem, it = { p.items[idx] with
      socket := SocketPtr.null, events := freeItemEventsTag, revents := 0 } := ⟨_, rfl⟩
  have hdead : it.live = false := by rw [hit]; rfl
  have hact : (p.items.set idx it).take p.count = p.active.set idx it := by
    rw [ZMQPoller.active, List.take_set]
  have hkeep : (p.active.set idx it).filter Pollitem.live =
      (p.active.eraseIdx idx).filter Pollitem.live := filter_set_of_reject hdead _ _
  have hcount : ((p.active.eraseIdx idx).filter Pollitem.live).length ≤ p.count := by
    have h1 := List.length_filter_le Pollitem.live (p.active.eraseIdx idx)
    have h2 := List.length_eraseIdx_le p.active idx
    rw [h.active_length] at h2
    omega
  have hcompact := pollerCompactItems_spec
    (p := { p with items := p.items.set idx it, freeList := idx })
    (by show (p.items.set idx it).length = p.len; rw [List.length_set, hlen]) hle
    (Int.natCast_nonneg idx)
  simp only [ZMQPoller.active] at hcompact hact hkeep hcount
  rw [hact, hkeep, List.drop_set_of_lt hidx, h.clear, List.append_assoc, List.replicate_append_replicate]
    at hcompact
  rw [pollerRemoveItem, if_neg (by omega), readItem_ok hlt, h.freeList]
  show ∃ p', (do
    let items ← writeItem p.items idx { p.items[idx] with
      socket := SocketPtr.null, events := freeItemEventsTag, revents := 0 }
    pollerCompactItems { p with items := items, freeList := idx }) = Except.ok p' ∧ _
  rw [← hit, writeItem_ok _ hlt]
  refine ⟨_, hcompact, ?_⟩
  obtain ⟨hwf, hact'⟩ := Wf.of_items (p := { p with
      items := ((p.items.take p.count).eraseIdx idx).filter Pollitem.live ++ List.replicate
        (p.count - (((p.items.take p.count).eraseIdx idx).filter Pollitem.live).length +
          (p.len - p.count)) Pollitem.zero
      count := (((p.items.take p.count).eraseIdx idx).filter Pollitem.live).length
      freeList := -1 }) rfl rfl rfl (by show p.len = _; omega) h.next
  exact ⟨hwf, rfl, hact'⟩

/-! ## Allocation -/

/-- **Allocation** between calls takes the first slot above the used ones, growing the array when it
    would become full. -/
theorem pollerGetFreeItem_spec {p : ZMQPoller} (h : Wf p) :
    ∃ q, pollerGetFreeItem p = .ok (p.count, q) ∧ q.freeList = -1 ∧ q.next = p.next ∧
      q.count = p.count + 1 ∧ p.len ≤ q.len ∧ p.count < q.len ∧
      q.items = p.active ++ List.replicate (q.len - p.count) Pollitem.zero := by
  have hle := h.count
  have hget : pollerGetFreeItem p = .ok (p.count,
      if p.len ≤ p.count + 1 then pollerResizeItems { p with count := p.count + 1 } (p.len + 10)
      else { p with count := p.count + 1 }) := by
    rw [pollerGetFreeItem, if_neg (by rw [h.freeList]; omega)]
  rcases Nat.lt_or_ge (p.count + 1) p.len with hlt | hge
  · rw [hget, if_neg (by omega)]
    exact ⟨_, rfl, h.freeList, rfl, rfl, Nat.le_refl _, by show p.count < p.len; omega, h.items_eq⟩
  · have hgrow : pollerResizeItems { p with count := p.count + 1 } (p.len + 10) =
        { p with
          items := p.items ++ List.replicate 10 Pollitem.zero
          count := p.count + 1
          len := p.len + 10 } := by
      simp [pollerResizeItems]
    rw [hget, if_pos (by omega), hgrow]
    refine ⟨_, rfl, h.freeList, rfl, rfl, Nat.le_add_right _ _, by show p.count < p.len + 10; omega, ?_⟩
    show p.items ++ _ = p.active ++ List.replicate (p.len + 10 - p.count) _
    rw [h.items_eq, List.append_assoc, List.replicate_append_replicate,
      show p.len - p.count + 10 = p.len + 10 - p.count from by omega]

/-- Filling the allocated slot appends the item. -/
theorem Wf.fill {p q : ZMQPoller} (h : Wf p) (hfree : q.freeList = -1) (hnext : q.next = p.next)
    (hcount : q.count = p.count + 1) (hlen : p.len ≤ q.len) (hlt : p.count < q.len)
    (hitems : q.items = p.active ++ List.replicate (q.len - p.count) Pollitem.zero) (it : Pollitem) :
    Wf { q with items := q.items.set p.count it } ∧
      ZMQPoller.active { q with items := q.items.set p.count it } = p.active ++ [it] := by
  refine Wf.of_items (k := q.len - p.count - 1) hfree ?_ ?_ ?_ ?_
  · show q.items.set p.count it = _
    rw [hitems, List.set_append_right _ _ (Nat.le_of_eq h.active_length), h.active_length, Nat.sub_self,
      show q.len - p.count = q.len - p.count - 1 + 1 from by omega, List.replicate_succ,
      List.set_cons_zero]
    simp
  · show q.count = _
    rw [List.length_append, h.active_length, hcount]; rfl
  · show q.len = _
    rw [List.length_append, h.active_length]
    show q.len = p.count + 1 + _
    omega
  · show q.next < q.len
    have := h.next
    omega

/-- Overwriting a used slot in place. -/
theorem Wf.overwrite {p : ZMQPoller} (h : Wf p) {i : Nat} (hi : i < p.count) (it : Pollitem) :
    Wf { p with items := p.items.set i it } ∧
      ZMQPoller.active { p with items := p.items.set i it } = p.active.set i it := by
  have hlt : i < p.active.length := by rw [h.active_length]; exact hi
  refine Wf.of_items (k := p.len - p.count) h.freeList ?_ ?_ ?_ h.next
  · show p.items.set i it = _
    rw [h.items_eq, List.set_append_left _ _ hlt]
  · show p.count = _
    rw [List.length_set, h.active_length]
  · show p.len = _
    have := h.count
    rw [List.length_set, h.active_length]
    omega

end Lzmq.CPoller
