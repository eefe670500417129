/-
  Streams that hold whole messages, and streams that grow.

  `queue` is the stream of some whole messages; nobody can tell it from their frames (`messages_queue`).  A stream
  that grows keeps the messages that it has (`messages_prefix`), so how many of them have come somewhere else is
  enough to know which ones have.
-/
import Lzmq.Lib.Framing

namespace Lzmq.Framing

variable {α : Type}

/-- The frames of whole messages. -/
def queue (ms : List (List α)) : List (α × Bool) := ms.flatMap fun m => frames m false

@[simp] theorem queue_nil : queue ([] : List (List α)) = [] := rfl

theorem queue_cons (m : List α) (ms : List (List α)) : queue (m :: ms) = frames m false ++ queue ms := rfl

theorem queue_append (ms ns : List (List α)) : queue (ms ++ ns) = queue ms ++ queue ns :=
  List.flatMap_append

theorem length_frames (ps : List α) (more : Bool) : (frames ps more).length = ps.length := by
  induction ps with
  | nil => rfl
  | cons p ps ih =>
    cases ps with
    | nil => rfl
    | cons q ps => exact congrArg (· + 1) ih

/-- What is left of a chunk when its first parts are gone. -/
theorem drop_frames (ps : List α) (more : Bool) : ∀ k, (frames ps more).drop k = frames (ps.drop k) more := by
  induction ps with
  | nil => intro k; rw [List.drop_nil, frames, List.drop_nil]
  | cons p ps ih =>
    intro k
    cases k with
    | zero => rfl
    | succ k =>
      cases ps with
      | nil => rw [frames, List.drop_succ_cons, List.drop_succ_cons, List.drop_nil, List.drop_nil, frames]
      | cons q ps => exact ih k

/-- A stream of messages whose parts are not cut. -/
theorem messages_whole (ms : List (List α)) : messages (ms.map fun m => (m, false)) = ms := by
  induction ms with
  | nil => rfl
  | cons m ms ih => rw [List.map_cons, messages_last, ih]

/-- **A queue** holds its messages. -/
theorem messages_queue {ms : List (List α)} (h : ∀ m ∈ ms, m ≠ []) : messages ((queue ms).map single) = ms := by
  have hcut := messages_flatMap_frames (ms.map fun m => (m, false)) (by
    intro c hc
    obtain ⟨m, hm, rfl⟩ := List.mem_map.mp hc
    exact h m hm)
  rw [List.flatMap_map, messages_whole] at hcut
  exact hcut

/-- **A stream that grows** keeps its messages. -/
theorem messages_prefix (cs ds : List (Chunk α)) : messages cs <+: messages (cs ++ ds) := by
  induction cs with
  | nil => exact List.nil_prefix
  | cons c cs ih =>
    obtain ⟨ps, more⟩ := c
    cases more with
    | false => exact List.cons_prefix_cons.mpr ⟨rfl, ih⟩
    | true =>
      rw [List.cons_append, messages, messages]
      cases hcs : messages cs with
      | nil => exact List.nil_prefix
      | cons m ms =>
        rw [hcs] at ih
        cases hall : messages (cs ++ ds) with
        | nil =>
          rw [hall] at ih
          exact absurd (List.prefix_nil.mp ih) (List.cons_ne_nil m ms)
        | cons m' ms' =>
          rw [hall, List.cons_prefix_cons] at ih
          exact List.cons_prefix_cons.mpr ⟨by rw [ih.1], ih.2⟩

/-- No message of a stream of parts is empty. -/
theorem messages_single_ne_nil (fs : List (α × Bool)) : ∀ m ∈ messages (fs.map single), m ≠ [] := by
  induction fs with
  | nil => exact fun m hm => absurd hm List.not_mem_nil
  | cons f fs ih =>
    obtain ⟨a, more⟩ := f
    rw [List.map_cons]
    cases more with
    | false =>
      intro m hm
      rcases List.mem_cons.mp hm with rfl | hm
      · exact List.cons_ne_nil a []
      · exact ih m hm
    | true =>
      intro m hm
      rw [single, messages] at hm
      cases hrest : messages (fs.map single) with
      | nil =>
        rw [hrest] at hm
        cases hm
      | cons n ns =>
        rw [hrest] at hm
        rcases List.mem_cons.mp hm with rfl | hm
        · exact List.cons_ne_nil a n
        · exact ih m (hrest ▸ List.mem_cons_of_mem n hm)

end Lzmq.Framing
