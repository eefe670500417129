/-
  `z85_decode` of both bindings (lzmq.c and ffi/api.lua), and what its result depends on.

  The bindings compute the length of the result from the length of the Lua string, five characters for
  four bytes; libzmq decodes up to the first zero byte.  When the string holds a zero byte, the end of
  the result is not written by the decoder: it is whatever the destination held before.  In C that is a
  fresh `malloc`ed block, in FFI a buffer of 41 bytes that all calls share, unless the result is longer.

  Lengths are computed in double arithmetic, 0.8 times the length of the string.  Doubles are the integers
  that `Rounding.roundTo 53` leaves, scaled by a power of two.

  `decode_same_iff` says on which strings the result is the same for all contents of the destination.
-/
import Lzmq.Lib.Buffer
import Lzmq.Lib.Rounding

namespace Lzmq.Z85

open Lzmq.Buffer Lzmq.Rounding

/-! ## The decoder of libzmq -/

/-- What the decoder writes for a code: four bytes for five characters. -/
structure Decoder where
  bytes : List UInt8 → List UInt8
  length_bytes : ∀ code, 5 ∣ code.length → (bytes code).length = 4 * (code.length / 5)

/-- A string as C reads it. -/
def cString (data : List UInt8) : List UInt8 := data.takeWhile fun b => b != 0

/-- `zmq_z85_decode`: the destination after the call; `none` for NULL, with nothing written. -/
def Decoder.zmqZ85Decode (lib : Decoder) (dest data : List UInt8) : Option (List UInt8) :=
  if (cString data).length % 5 = 0 then some (overwrite dest 0 (lib.bytes (cString data))) else none

/-- What `z85_decode` gives to Lua. -/
inductive Decoded
  | string (bytes : List UInt8)
  | nil
  | error (msg : String)
deriving DecidableEq

/-! ## Lengths -/

/-- The double 0.8 is `fourFifths / 2^53`. -/
def fourFifths : Nat := 7205759403792794

/-- The double 0.0001 is `tenThousandth / 2^66`. -/
def tenThousandth : Nat := 7378697629483821

/-- `0.8 * len`, scaled by 2^53. -/
def timesFourFifths (len : Nat) : Nat := roundTo 53 (fourFifths * roundTo 53 len)

/-- `dest_len = 0.8 * len` -/
def destLen (len : Nat) : Nat := timesFourFifths len / 2 ^ 53

/-- `math.floor(#data * 0.8 + 0.0001)` -/
def floorLen (len : Nat) : Nat := roundTo 53 (timesFourFifths len * 2 ^ 13 + tenThousandth) / 2 ^ 66

/-! ## The two bindings -/

/-- The C binding's check of the length, and the length of the result it goes on with. -/
def checkLen (len : Nat) : Option Nat :=
  if len = 40 then some 32
  else if len = destLen len + destLen len / 4 then some (destLen len)
  else none

/-- `luazmq_z85_decode`; `heap` is what the destination holds before. -/
def luazmqZ85Decode (lib : Decoder) (heap : Nat → UInt8) (data : List UInt8) : Decoded :=
  match checkLen data.length with
  | none => .error "size of the block must be divisible by 5"
  | some destLen =>
    match lib.zmqZ85Decode (uninit heap destLen) data with
    | none => .nil
    | some dest => .string dest

/-- The size of the buffer that `create_tmp_allocator` keeps. -/
def arraySize : Nat := 41

/-- `alloc_z85_buff`: the shared buffer, or a new one, which `ffi.new` clears. -/
def allocZ85Buff (buffer : List UInt8) (len : Nat) : List UInt8 :=
  if len ≤ arraySize then buffer else List.replicate len 0

/-- `zmq_z85_decode` of api.lua, with the shared buffer before and after the call; before the first call the
    buffer is one that `ffi.new` has cleared. -/
def zmqZ85Decode (lib : Decoder) (buffer data : List UInt8) : Decoded × List UInt8 :=
  let len := floorLen data.length
  match lib.zmqZ85Decode (allocZ85Buff buffer len) data with
  | none => (.error "size of the block must be divisible by 5", buffer)
  | some dest => (.string (dest.take len), if len ≤ arraySize then dest else buffer)

/-! ## What the lengths are -/

/-- Lengths that occur are computed exactly. -/
theorem destLen_eq {len : Nat} (h : len < 2 ^ 50) : destLen len = 4 * len / 5 := by
  have hexact : roundTo 53 len = len := roundTo_eq_self (by decide) (by omega)
  have hexcess : excess 53 (fourFifths * len) ≤ 50 :=
    excess_le (by decide) (by unfold fourFifths; omega)
  have hulp : 2 ^ excess 53 (fourFifths * len) ≤ 2 ^ 50 := Nat.pow_le_pow_right (by decide) hexcess
  have hlow : 4 * len / 5 * 2 ^ 53 ≤ roundTo 53 (fourFifths * len) := by
    refine le_roundTo ?_ (by unfold fourFifths; omega)
    exact Dvd.dvd.mul_left (Nat.pow_dvd_pow 2 (Nat.le_trans hexcess (by decide))) _
  have hhigh := roundTo_le_add 53 (fourFifths * len)
  unfold destLen timesFourFifths
  rw [hexact]
  unfold fourFifths at *
  omega

/-- The check lets pass the multiples of 5. -/
theorem checkLen_isSome {len : Nat} (h : len < 2 ^ 50) : (checkLen len).isSome ↔ 5 ∣ len := by
  unfold checkLen
  rw [destLen_eq h]
  split
  · rename_i h40
    exact iff_of_true rfl (by omega)
  · split
    · exact iff_of_true rfl (by omega)
    · exact iff_of_false (by rintro ⟨⟩) (by omega)

/-- A length that passes the check is the code's length for the result. -/
theorem checkLen_eq {len destLen : Nat} (h : checkLen len = some destLen) : len = destLen + destLen / 4 := by
  unfold checkLen at h
  split at h
  · cases h
    assumption
  · split at h
    · cases h
      assumption
    · cases h

/-- The shared buffer serves strings of up to 52 bytes. -/
theorem floorLen_small : ∀ len < 53, floorLen len = 4 * len / 5 := by
  decide

theorem floorLen_large {len : Nat} (h : 53 ≤ len) : arraySize < floorLen len := by
  have h1 := mul_le_mul_roundTo (p := 53) (by decide) len
  have h2 := mul_le_mul_roundTo (p := 53) (by decide) (fourFifths * roundTo 53 len)
  have h3 := mul_le_mul_roundTo (p := 53) (by decide) (timesFourFifths len * 2 ^ 13 + tenThousandth)
  unfold floorLen
  unfold timesFourFifths at *
  rw [Nat.lt_div_iff_mul_lt (by decide)]
  unfold fourFifths tenThousandth arraySize at *
  omega

/-! ## What the results depend on -/

instance nontrivial_uint8 : Nontrivial UInt8 := ⟨0, 1, by decide⟩

theorem length_cString_le (data : List UInt8) : (cString data).length ≤ data.length :=
  (List.takeWhile_prefix _).length_le

/-- A decoder that returns has written four fifths of what it has read. -/
theorem Decoder.length_written (lib : Decoder) {data : List UInt8} (h : (cString data).length % 5 = 0) :
    (lib.bytes (cString data)).length = 4 * ((cString data).length / 5) :=
  lib.length_bytes _ (Nat.dvd_of_mod_eq_zero h)

/-- The C binding. -/
theorem luazmqZ85Decode_same_iff (lib : Decoder) (data : List UInt8) :
    (∀ heap heap', luazmqZ85Decode lib heap data = luazmqZ85Decode lib heap' data) ↔
      ((checkLen data.length).isSome → (cString data).length % 5 = 0 →
        (cString data).length = data.length) := by
  unfold luazmqZ85Decode
  cases hcheck : checkLen data.length with
  | none => exact iff_of_true (fun _ _ => rfl) nofun
  | some destLen =>
    have hlen := checkLen_eq hcheck
    have hle := length_cString_le data
    dsimp only [Decoder.zmqZ85Decode]
    by_cases hmod : (cString data).length % 5 = 0
    · have hsrc := lib.length_written hmod
      -- the whole block is returned
      have hiff := take_overwrite_uninit_iff (lib.bytes (cString data)) (n := destLen) (by omega)
        (Nat.le_refl destLen)
      have htake : ∀ heap : Nat → UInt8, (overwrite (uninit heap destLen) 0 (lib.bytes (cString data))).take
          destLen = overwrite (uninit heap destLen) 0 (lib.bytes (cString data)) := fun heap =>
        List.take_of_length_le (by rw [length_overwrite, length_uninit])
      simp only [htake] at hiff
      simp only [if_pos hmod, Decoded.string.injEq]
      rw [hiff]
      constructor
      · intro hdest _ _
        omega
      · intro hfull
        have := hfull rfl hmod
        omega
    · simp only [if_neg hmod]
      exact iff_of_true (fun _ _ => trivial) fun _ h => absurd h hmod

/-- The FFI binding; `buffer` is what earlier calls have left in the shared buffer. -/
theorem zmqZ85Decode_same_iff (lib : Decoder) (data : List UInt8) :
    (∀ buffer buffer' : Nat → UInt8, (zmqZ85Decode lib (uninit buffer arraySize) data).1 =
      (zmqZ85Decode lib (uninit buffer' arraySize) data).1) ↔
      (data.length ≤ 52 → (cString data).length % 5 = 0 → data.length ≤ (cString data).length + 1) := by
  have hle := length_cString_le data
  unfold zmqZ85Decode Decoder.zmqZ85Decode
  dsimp only
  by_cases hmod : (cString data).length % 5 = 0
  · have hsrc := lib.length_written hmod
    simp only [if_pos hmod, Decoded.string.injEq, allocZ85Buff]
    by_cases hsmall : data.length ≤ 52
    · have hfloor := floorLen_small data.length (by omega)
      have hin : floorLen data.length ≤ arraySize := by
        unfold arraySize
        omega
      simp only [if_pos hin]
      rw [take_overwrite_uninit_iff _ (by unfold arraySize at *; omega) hin]
      constructor
      · intro hdest _ _
        omega
      · intro hfull
        have := hfull hsmall hmod
        omega
    · -- a new buffer
      have hout : arraySize < floorLen data.length := floorLen_large (by omega)
      simp only [if_neg (Nat.not_le.mpr hout)]
      exact iff_of_true (fun _ _ => trivial) fun h => absurd h hsmall
  · simp only [if_neg hmod]
    exact iff_of_true (fun _ _ => trivial) fun _ h => absurd h hmod

/-- **Decoding reveals nothing but its input, exactly when.**  In C: unless the length passes the check, which
    takes the multiples of 5, and the string has a zero byte, the first one at a multiple of 5.  In FFI:
    unless the string has at most 52 bytes, and a zero byte before its last one, the first one at a
    multiple of 5. -/
theorem decode_same_iff (lib : Decoder) (data : List UInt8) :
    ((∀ heap heap', luazmqZ85Decode lib heap data = luazmqZ85Decode lib heap' data) ↔
      ((checkLen data.length).isSome → (cString data).length % 5 = 0 →
        (cString data).length = data.length)) ∧
    (data.length < 2 ^ 50 → ((checkLen data.length).isSome ↔ 5 ∣ data.length)) ∧
    ((∀ buffer buffer' : Nat → UInt8, (zmqZ85Decode lib (uninit buffer arraySize) data).1 =
      (zmqZ85Decode lib (uninit buffer' arraySize) data).1) ↔
      (data.length ≤ 52 → (cString data).length % 5 = 0 → data.length ≤ (cString data).length + 1)) :=
  ⟨luazmqZ85Decode_same_iff lib data, checkLen_isSome, zmqZ85Decode_same_iff lib data⟩

/-- A decoder for codes of the digits 0 to 9, which stand for themselves. -/
def digits : List UInt8 → List UInt8
  | a :: b :: c :: d :: e :: code =>
    let value := [a, b, c, d, e].foldl (fun v ch => v * 85 + (ch.toNat - 48)) 0
    [24, 16, 8, 0].map (fun shift => UInt8.ofNat (value / 2 ^ shift)) ++ digits code
  | _ => []

def digitDecoder : Decoder where
  bytes := digits
  length_bytes code := by
    fun_induction digits code with
    | case1 a b c d e code value ih =>
      rintro ⟨k, hk⟩
      simp only [List.length_append, List.length_map, List.length_cons, List.length_nil] at hk ⊢
      rw [ih ⟨k - 1, by omega⟩]
      omega
    | case2 code hshort =>
      rintro ⟨k, hk⟩
      match code, hshort with
      | [], _ => rfl
      | [_], _ | [_, _], _ | [_, _, _], _ | [_, _, _, _], _ => simp at hk; omega
      | a :: b :: c :: d :: e :: rest, hshort => exact absurd rfl (hshort a b c d e rest)

/-- The code of a key: "12345" eight times. -/
def keyCode : List UInt8 := (List.replicate 8 [49, 50, 51, 52, 53]).flatten

/-- Forty zero bytes are decoded to what the destination holds: in C to the bytes of the block, and in FFI
    to the key that the call before has decoded. -/
theorem decode_reveals :
    luazmqZ85Decode digitDecoder (fun _ => 0) (List.replicate 40 0) ≠
      luazmqZ85Decode digitDecoder (fun _ => 1) (List.replicate 40 0) ∧
    (let key := zmqZ85Decode digitDecoder (List.replicate arraySize 0) keyCode
    (zmqZ85Decode digitDecoder key.2 (List.replicate 40 0)).1 = key.1 ∧
    (zmqZ85Decode digitDecoder (List.replicate arraySize 0) (List.replicate 40 0)).1 ≠ key.1) := by
  decide +kernel

end Lzmq.Z85
