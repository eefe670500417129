/-
  Messages of several parts on a stream of chunks.

  A chunk is a list of parts with a flag that says whether its message goes on.  `messages` reads the
  complete messages off a stream of chunks: a message ends with the first chunk whose flag is off.
  `frames` cuts a chunk into single parts, of which all but the last have the flag on.

  Cutting the chunks of a stream changes none of its messages (`messages_flatMap_frames`), provided no
  chunk is empty: the flag of an empty chunk would be lost.
-/
import Mathlib.Data.List.Basic

namespace Lzmq.Framing

variable {α : Type}

/-- Some parts, and whether more parts of the same message follow. -/
abbrev Chunk (α : Type) := List α × Bool

/-- The complete messages of a stream. -/
def messages : List (Chunk α) → List (List α)
  | [] => []
  | (ps, false) :: cs => ps :: messages cs
  | (ps, true) :: cs =>
    match messages cs with
    | [] => []
    | m :: ms => (ps ++ m) :: ms

/-- A chunk cut into its parts. -/
def frames : List α → Bool → List (α × Bool)
  | [], _ => []
  | [a], more => [(a, more)]
  | a :: b :: l, more => (a, true) :: frames (b :: l) more

/-- A part as a chunk. -/
def single (f : α × Bool) : Chunk α := ([f.1], f.2)

example : messages [([1], true), ([2, 3], false), ([4], true)] = [[1, 2, 3]] := rfl

@[simp] theorem messages_nil : messages ([] : List (Chunk α)) = [] := rfl

@[simp] theorem messages_last (ps : List α) (cs : List (Chunk α)) :
    messages ((ps, false) :: cs) = ps :: messages cs := rfl

/-- A chunk sees of the rest of the stream only its messages. -/
theorem messages_cons_congr (c : Chunk α) {cs ds : List (Chunk α)} (h : messages cs = messages ds) :
    messages (c :: cs) = messages (c :: ds) := by
  obtain ⟨ps, more⟩ := c
  cases more with
  | false => rw [messages_last, messages_last, h]
  | true => rw [messages, messages, h]

/-- A chunk whose message goes on joins the next one. -/
theorem messages_join (ps qs : List α) (more : Bool) (cs : List (Chunk α)) :
    messages ((ps, true) :: (qs, more) :: cs) = messages ((ps ++ qs, more) :: cs) := by
  cases more with
  | false => rfl
  | true =>
    rw [messages, messages, messages]
    cases messages cs with
    | nil => rfl
    | cons m ms => simp only [List.append_assoc]

theorem messages_frames_append (more : Bool) (cs : List (Chunk α)) : ∀ (ps : List α), ps ≠ [] →
    messages ((frames ps more).map single ++ cs) = messages ((ps, more) :: cs) := by
  intro ps
  induction ps with
  | nil => intro h; exact absurd rfl h
  | cons a ps ih =>
    intro _
    cases ps with
    | nil => rfl
    | cons b ps =>
      have hrest := ih (List.cons_ne_nil b ps)
      rw [frames, List.map_cons, List.cons_append]
      show messages (([a], true) :: _) = _
      rw [messages_cons_congr ([a], true) hrest, messages_join]
      rfl

/-- **Cutting** every chunk of a stream keeps its messages. -/
theorem messages_flatMap_frames (cs : List (Chunk α)) (h : ∀ c ∈ cs, c.1 ≠ []) :
    messages ((cs.flatMap fun c => frames c.1 c.2).map single) = messages cs := by
  induction cs with
  | nil => rfl
  | cons c cs ih =>
    have hrest := ih fun d hd => h d (List.mem_cons_of_mem c hd)
    rw [List.flatMap_cons, List.map_append,
      messages_frames_append c.2 _ c.1 (h c List.mem_cons_self)]
    exact messages_cons_congr c hrest

/-- A chunk without its first part. -/
theorem frames_cons (a : α) {ps : List α} (h : ps ≠ []) (more : Bool) :
    frames (a :: ps) more = (a, true) :: frames ps more := by
  cases ps with
  | nil => exact absurd rfl h
  | cons b ps => rfl

end Lzmq.Framing
