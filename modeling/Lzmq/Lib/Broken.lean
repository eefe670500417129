/-
  Messages of several parts on a stream on which some chunks were broken off.

  A chunk that was broken off leaves some of its parts in the stream, with the flag on.  They join the message that
  comes after them, so the messages are those of the unbroken chunks iff no message ends after such parts
  (`messages_meant_iff`).
-/
import Lzmq.Lib.Framing

namespace Lzmq.Framing

variable {α : Type}

/-! ## Chunks that were broken off -/

/-- A message ends with each chunk whose flag is off. -/
theorem messages_eq_nil_iff (cs : List (Chunk α)) : messages cs = [] ↔ ∀ c ∈ cs, c.2 = true := by
  induction cs with
  | nil => simp
  | cons c cs ih =>
    obtain ⟨ps, more⟩ := c
    cases more with
    | false => simp
    | true =>
      rw [List.forall_mem_cons, ← ih, messages]
      cases messages cs <;> simp

/-- Behind one and the same chunk, only the messages matter. -/
theorem messages_cons_inj (c : Chunk α) (cs ds : List (Chunk α)) :
    messages (c :: cs) = messages (c :: ds) ↔ messages cs = messages ds := by
  refine ⟨fun h => ?_, messages_cons_congr c⟩
  obtain ⟨ps, more⟩ := c
  cases more with
  | false => exact (List.cons.inj h).2
  | true =>
    rw [messages, messages] at h
    cases hcs : messages cs with
    | nil => cases hds : messages ds with
      | nil => rfl
      | cons m ms => rw [hcs, hds] at h; cases h
    | cons m ms => cases hds : messages ds with
      | nil => rw [hcs, hds] at h; cases h
      | cons m' ms' =>
        rw [hcs, hds, List.cons.injEq, List.append_cancel_left_eq] at h
        rw [h.1, h.2]

/-- Parts in front of a stream join its first message. -/
theorem messages_join_first (ps : List α) {cs : List (Chunk α)} {m : List α} {ms : List (List α)}
    (h : messages cs = m :: ms) : messages ((ps, true) :: cs) = (ps ++ m) :: ms := by
  rw [messages, h]

/-- The chunks that were meant to be there; the others are what was broken off. -/
def meant (cs : List (Chunk α × Bool)) : List (Chunk α) := (cs.filter Prod.snd).map Prod.fst

/-- Parts that were broken off are followed by no end of a message. -/
def Unglued : List (Chunk α × Bool) → Prop
  | [] => True
  | c :: cs => (c.2 = true ∨ c.1.1 = [] ∨ ∀ d ∈ cs, d.1.2 = true) ∧ Unglued cs

/-- The broken chunks all go on. -/
abbrev Open (cs : List (Chunk α × Bool)) : Prop := ∀ c ∈ cs, c.2 = false → c.1.2 = true

theorem meant_cons_true (c : Chunk α) (cs : List (Chunk α × Bool)) : meant ((c, true) :: cs) = c :: meant cs := rfl

theorem meant_cons_false (c : Chunk α) (cs : List (Chunk α × Bool)) : meant ((c, false) :: cs) = meant cs := rfl

/-- The number of parts in the messages of a stream. -/
def size (ms : List (List α)) : Nat := ms.flatten.length

/-- A chunk in front does not make two streams more alike in size. -/
theorem size_messages_cons_le (c : Chunk α) {cs ds : List (Chunk α)}
    (hnil : messages ds = [] → messages cs = []) (h : size (messages cs) ≤ size (messages ds)) :
    size (messages (c :: cs)) ≤ size (messages (c :: ds)) := by
  obtain ⟨ps, more⟩ := c
  simp only [size] at *
  cases more with
  | false =>
    rw [messages_last, messages_last, List.flatten_cons, List.flatten_cons, List.length_append, List.length_append]
    omega
  | true =>
    cases hds : messages ds with
    | nil =>
      apply Nat.le_of_eq
      rw [messages, messages, hds, hnil hds]
    | cons m ms =>
      rw [messages_join_first ps hds]
      rw [hds] at h
      cases hcs : messages cs with
      | nil =>
        rw [messages, hcs]
        exact Nat.zero_le _
      | cons m' ms' =>
        rw [messages_join_first ps hcs]
        rw [hcs] at h
        simp only [List.flatten_cons, List.length_append] at h ⊢
        omega

/-- The chunks that were meant make the same number of messages: none where all of them make none. -/
theorem messages_meant_nil {cs : List (Chunk α × Bool)} (h : messages (cs.map Prod.fst) = []) :
    messages (meant cs) = [] := by
  rw [messages_eq_nil_iff] at h ⊢
  intro c hc
  obtain ⟨d, hd, rfl⟩ := List.mem_map.mp hc
  exact h d.1 (List.mem_map_of_mem (List.mem_filter.mp hd).1)

/-- Broken chunks only make the messages longer. -/
theorem size_meant_le : ∀ (cs : List (Chunk α × Bool)), Open cs →
    size (messages (meant cs)) ≤ size (messages (cs.map Prod.fst)) := by
  intro cs
  induction cs with
  | nil => exact fun _ => Nat.le_refl _
  | cons c cs ih =>
    intro hopen
    have hrest := ih fun d hd => hopen d (List.mem_cons_of_mem c hd)
    obtain ⟨⟨ps, more⟩, good⟩ := c
    rw [List.map_cons]
    cases good with
    | true => exact size_messages_cons_le (ps, more) messages_meant_nil hrest
    | false =>
      obtain rfl : more = true := hopen _ List.mem_cons_self rfl
      rw [meant_cons_false]
      cases hcs : messages (cs.map Prod.fst) with
      | nil =>
        rw [messages_meant_nil hcs]
        exact Nat.zero_le _
      | cons m ms =>
        rw [messages_join_first ps hcs]
        rw [hcs] at hrest
        simp only [size, List.flatten_cons, List.length_append] at hrest ⊢
        omega

/-- Cutting keeps the messages also where empty chunks go on. -/
theorem messages_frames_of (cs : List (Chunk α)) (h : ∀ c ∈ cs, c.1 = [] → c.2 = true) :
    messages ((cs.flatMap fun c => frames c.1 c.2).map single) = messages cs := by
  induction cs with
  | nil => rfl
  | cons c cs ih =>
    have hrest := ih fun d hd => h d (List.mem_cons_of_mem c hd)
    obtain ⟨ps, more⟩ := c
    rw [List.flatMap_cons, List.map_append]
    by_cases hps : ps = []
    · obtain rfl : more = true := h _ List.mem_cons_self hps
      rw [hps, frames, List.map_nil, List.nil_append, hrest, messages]
      cases messages cs <;> rfl
    · rw [messages_frames_append more _ ps hps]
      exact messages_cons_congr (ps, more) hrest

theorem frames_open (ps : List α) : frames ps true = ps.map fun p => (p, true) := by
  induction ps with
  | nil => rfl
  | cons p ps ih =>
    cases ps with
    | nil => rfl
    | cons q ps => rw [frames, ih]; rfl

/-- **Broken chunks** leave the messages as they were meant iff no message ends behind parts of them. -/
theorem messages_meant_iff : ∀ (cs : List (Chunk α × Bool)), Open cs →
    (messages (cs.map Prod.fst) = messages (meant cs) ↔ Unglued cs) := by
  intro cs
  induction cs with
  | nil => exact fun _ => iff_of_true rfl trivial
  | cons c cs ih =>
    intro hopen
    have hrest : Open cs := fun d hd => hopen d (List.mem_cons_of_mem c hd)
    have hiff := ih hrest
    obtain ⟨⟨ps, more⟩, good⟩ := c
    rw [List.map_cons, Unglued]
    cases good with
    | true =>
      rw [meant_cons_true, messages_cons_inj, hiff]
      exact (and_iff_right (Or.inl rfl)).symm
    | false =>
      obtain rfl : more = true := hopen _ List.mem_cons_self rfl
      rw [meant_cons_false]
      have hall : (∀ d ∈ cs, d.1.2 = true) ↔ messages (cs.map Prod.fst) = [] := by
        rw [messages_eq_nil_iff, List.forall_mem_map]
      simp only [Bool.false_eq_true, false_or, hall]
      cases hcs : messages (cs.map Prod.fst) with
      | nil =>
        -- no message ends any more
        have hnil := messages_meant_nil hcs
        rw [hcs, hnil] at hiff
        refine iff_of_true ?_ ⟨Or.inr rfl, hiff.mp rfl⟩
        rw [hnil, messages, hcs]
      | cons m ms =>
        rw [messages_join_first ps hcs]
        by_cases hps : ps = []
        · rw [hps, List.nil_append, ← hcs, hiff]
          exact (and_iff_right (Or.inl rfl)).symm
        · refine iff_of_false (fun heq => ?_) (fun hok => ?_)
          · have hle := size_meant_le cs hrest
            rw [← heq, hcs] at hle
            have hpos := List.length_pos_iff.mpr hps
            simp only [size, List.flatten_cons, List.length_append] at hle
            omega
          · rcases hok.1 with h | h
            · exact hps h
            · cases h

end Lzmq.Framing
