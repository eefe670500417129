/-
  `z85_encode` of both bindings, and the round trip through `z85_decode`.

  Four bytes become five characters.  Both bindings compute the length of the code in advance, the C binding in
  integers, the FFI binding in doubles, and take as much of the destination as libzmq is expected to write:
  the code, and a zero byte.  `Codec` is what libzmq promises.

  Plan:
    1. the lengths: each destination has room for the code and its zero byte, and no more is read of it;
    2. what each of the four functions returns, whatever the destinations held before;
    3. both bindings encode alike, decode what has no zero byte alike, and each reads what the other one wrote.
-/
import Lzmq.Z85.Decode
import Mathlib.Data.List.TakeWhile

namespace Lzmq.Z85

open Lzmq.Buffer Lzmq.Rounding

/-! ## The encoder of libzmq -/

/-- What the encoder writes for bytes, up to the zero byte at the end.  The decoder reads it back. -/
structure Codec extends Decoder where
  text : List UInt8 → List UInt8
  length_text : ∀ data, 4 ∣ data.length → (text data).length = 5 * (data.length / 4)
  zero_text : ∀ data, 0 ∉ text data
  bytes_text : ∀ data, 4 ∣ data.length → bytes (text data) = data

/-- `zmq_z85_encode`: the destination after the call; `none` for NULL, with nothing written. -/
def Codec.zmqZ85Encode (lib : Codec) (dest data : List UInt8) : Option (List UInt8) :=
  if data.length % 4 = 0 then some (overwrite dest 0 (lib.text data ++ [0])) else none

/-! ## The two bindings -/

/-- The C binding's check of the length, and the size of the destination it goes on with. -/
def encodeLen (len : Nat) : Option Nat :=
  if len = 32 then some 41
  else if len = len / 4 * 4 then some (len / 4 + (len + 1))
  else none

/-- `luazmq_z85_encode`; `heap` is what the destination holds before. -/
def luazmqZ85Encode (lib : Codec) (heap : Nat → UInt8) (data : List UInt8) : Decoded :=
  match encodeLen data.length with
  | none => .error "size of the block must be divisible by 4"
  | some destLen =>
    match lib.zmqZ85Encode (uninit heap destLen) data with
    | none => .nil
    | some dest => .string (dest.take (destLen - 1))

/-- The double 1.0001 is `oneAndTenThousandth / 2^52`. -/
def oneAndTenThousandth : Nat := 4504049987333233

/-- `#data * 1.25`, scaled by 4. -/
def timesFiveFourths (len : Nat) : Nat := roundTo 53 (5 * roundTo 53 len)

/-- `math.floor(#data * 1.25 + 1.0001)` -/
def floorEncodeLen (len : Nat) : Nat :=
  roundTo 53 (timesFiveFourths len * 2 ^ 50 + oneAndTenThousandth) / 2 ^ 52

/-- `zmq_z85_encode` of api.lua, with the shared buffer before and after the call. -/
def zmqZ85Encode (lib : Codec) (buffer data : List UInt8) : Decoded × List UInt8 :=
  let len := floorEncodeLen data.length
  match lib.zmqZ85Encode (allocZ85Buff buffer len) data with
  | none => (.error "size of the block must be divisible by 4", buffer)
  | some dest => (.string (dest.take (len - 1)), if len ≤ arraySize then dest else buffer)

/-! ## Lengths -/

/-- The check lets pass the multiples of 4, and leaves room for the zero byte. -/
theorem encodeLen_eq (len : Nat) : encodeLen len = if 4 ∣ len then some (5 * (len / 4) + 1) else none := by
  unfold encodeLen
  by_cases h32 : len = 32
  · rw [if_pos h32, if_pos (by omega), h32]
  · rw [if_neg h32]
    by_cases hdvd : 4 ∣ len
    · rw [if_pos (by omega), if_pos hdvd]
      congr 1
      omega
    · rw [if_neg (by omega), if_neg hdvd]

/-- The same length, in doubles. -/
theorem floorEncodeLen_eq {len : Nat} (hdvd : 4 ∣ len) (h : len < 2 ^ 50) :
    floorEncodeLen len = 5 * (len / 4) + 1 := by
  obtain ⟨k, rfl⟩ := hdvd
  have hlen : roundTo 53 (4 * k) = 4 * k := roundTo_eq_self (by decide) (by omega)
  have htimes : timesFiveFourths (4 * k) = 4 * (5 * k) := by
    rw [timesFiveFourths, hlen, roundTo_eq_self (by decide) (by omega)]
    omega
  unfold floorEncodeLen
  rw [htimes]
  -- the sum is at least the next integer, which is a double, and the error stays below the one after it
  have hexcess : excess 53 (4 * (5 * k) * 2 ^ 50 + oneAndTenThousandth) ≤ 51 :=
    excess_le (by decide) (by unfold oneAndTenThousandth; omega)
  have hulp : 2 ^ excess 53 (4 * (5 * k) * 2 ^ 50 + oneAndTenThousandth) ≤ 2 ^ 51 :=
    Nat.pow_le_pow_right (by decide) hexcess
  have hlow : (5 * k + 1) * 2 ^ 52 ≤ roundTo 53 (4 * (5 * k) * 2 ^ 50 + oneAndTenThousandth) := by
    refine le_roundTo ?_ (by unfold oneAndTenThousandth; omega)
    exact Dvd.dvd.mul_left (Nat.pow_dvd_pow 2 (Nat.le_trans hexcess (by decide))) _
  have hhigh := roundTo_le_add 53 (4 * (5 * k) * 2 ^ 50 + oneAndTenThousandth)
  unfold oneAndTenThousandth at *
  omega

theorem timesFourFifths_bounds {k : Nat} (h : 5 * k < 2 ^ 50) :
    4 * k * 2 ^ 53 ≤ timesFourFifths (5 * k) ∧ timesFourFifths (5 * k) ≤ 4 * k * 2 ^ 53 + 2 ^ 51 := by
  have hlen : roundTo 53 (5 * k) = 5 * k := roundTo_eq_self (by decide) (by omega)
  have hexcess : excess 53 (fourFifths * (5 * k)) ≤ 50 :=
    excess_le (by decide) (by unfold fourFifths; omega)
  have hulp : 2 ^ excess 53 (fourFifths * (5 * k)) ≤ 2 ^ 50 := Nat.pow_le_pow_right (by decide) hexcess
  rw [timesFourFifths, hlen]
  constructor
  · refine le_roundTo ?_ (by unfold fourFifths; omega)
    exact Dvd.dvd.mul_left (Nat.pow_dvd_pow 2 (Nat.le_trans hexcess (by decide))) _
  · have hhigh := roundTo_le_add 53 (fourFifths * (5 * k))
    unfold fourFifths at *
    omega

/-- The length of what is decoded, in doubles. -/
theorem floorLen_eq {len : Nat} (hdvd : 5 ∣ len) (h : len < 2 ^ 50) : floorLen len = 4 * (len / 5) := by
  obtain ⟨k, rfl⟩ := hdvd
  obtain ⟨hlow, hhigh⟩ := timesFourFifths_bounds h
  rw [floorLen]
  generalize timesFourFifths (5 * k) = times at hlow hhigh
  have hexcess : excess 53 (times * 2 ^ 13 + tenThousandth) ≤ 64 :=
    excess_le (by decide) (by unfold tenThousandth; omega)
  have hulp : 2 ^ excess 53 (times * 2 ^ 13 + tenThousandth) ≤ 2 ^ 64 := Nat.pow_le_pow_right (by decide) hexcess
  have hdvd : 2 ^ excess 53 (times * 2 ^ 13 + tenThousandth) ∣ 4 * k * 2 ^ 66 :=
    Dvd.dvd.mul_left (Nat.pow_dvd_pow 2 (Nat.le_trans hexcess (by decide))) _
  have hround := roundTo_le_add 53 (times * 2 ^ 13 + tenThousandth)
  have hle : 4 * k * 2 ^ 66 ≤ times * 2 ^ 13 + tenThousandth := by
    have hmul : 4 * k * 2 ^ 53 * 2 ^ 13 ≤ times * 2 ^ 13 := Nat.mul_le_mul_right _ hlow
    rw [Nat.mul_assoc] at hmul
    exact Nat.le_trans hmul (Nat.le_add_right _ _)
  have hbelow := le_roundTo hdvd hle
  unfold tenThousandth at *
  omega

/-! ## What the functions return -/

/-- What a reader gets of a buffer that was written from its start. -/
theorem take_overwrite {dst src : List UInt8} (h : src.length ≤ dst.length) (n : Nat) (hn : n ≤ src.length) :
    (overwrite dst 0 src).take n = src.take n := by
  have happend := overwrite_append [] dst h
  rw [List.nil_append, List.nil_append] at happend
  rw [show (0 : Int) = ([] : List UInt8).length from rfl, happend, List.take_append_of_le_length hn]

theorem length_allocZ85Buff {buffer : List UInt8} (hbuffer : buffer.length = arraySize) (len : Nat) :
    len ≤ (allocZ85Buff buffer len).length := by
  unfold allocZ85Buff
  split
  · rwa [hbuffer]
  · rw [List.length_replicate]

/-- The reply of `z85_encode`. -/
def Codec.encoded (lib : Codec) (data : List UInt8) : Decoded :=
  if 4 ∣ data.length then .string (lib.text data) else .error "size of the block must be divisible by 4"

/-- The reply of `z85_decode` to a string without a zero byte. -/
def Codec.decoded (lib : Codec) (code : List UInt8) : Decoded :=
  if 5 ∣ code.length then .string (lib.bytes code) else .error "size of the block must be divisible by 5"

section Replies

variable (lib : Codec) {data code buffer : List UInt8}

/-- A destination with room for the code and its zero byte. -/
theorem zmqZ85Encode_take (dest : List UInt8) (hdvd : 4 ∣ data.length)
    (hdest : 5 * (data.length / 4) + 1 ≤ dest.length) :
    ∃ dest', lib.zmqZ85Encode dest data = some dest' ∧ dest'.length = dest.length ∧
      dest'.take (5 * (data.length / 4)) = lib.text data := by
  have htext := lib.length_text data hdvd
  refine ⟨_, if_pos (Nat.mod_eq_zero_of_dvd hdvd), length_overwrite .., ?_⟩
  rw [take_overwrite (by simp [htext, hdest]) _ (by simp [htext]), ← htext, List.take_left]

theorem luazmqZ85Encode_eq (heap : Nat → UInt8) : luazmqZ85Encode lib heap data = lib.encoded data := by
  rw [luazmqZ85Encode, encodeLen_eq, Codec.encoded]
  by_cases hdvd : 4 ∣ data.length
  · obtain ⟨dest, hdest, -, htake⟩ := zmqZ85Encode_take lib (uninit heap (5 * (data.length / 4) + 1)) hdvd
      (by rw [length_uninit])
    simp only [if_pos hdvd, hdest, Nat.add_sub_cancel, htake]
  · simp only [if_neg hdvd]

theorem zmqZ85Encode_eq (hbuffer : buffer.length = arraySize) (h : data.length < 2 ^ 50) :
    (zmqZ85Encode lib buffer data).1 = lib.encoded data ∧ (zmqZ85Encode lib buffer data).2.length = arraySize := by
  rw [zmqZ85Encode, Codec.encoded]
  by_cases hdvd : 4 ∣ data.length
  · have hfloor := floorEncodeLen_eq hdvd h
    have hroom := length_allocZ85Buff hbuffer (floorEncodeLen data.length)
    obtain ⟨dest, hdest, hlen, htake⟩ := zmqZ85Encode_take lib (allocZ85Buff buffer (floorEncodeLen data.length))
      hdvd (by rw [← hfloor]; exact hroom)
    simp only [if_pos hdvd, hdest]
    refine ⟨?_, ?_⟩
    · rw [hfloor, Nat.add_sub_cancel, htake]
    · by_cases hsmall : floorEncodeLen data.length ≤ arraySize
      · rw [if_pos hsmall, hlen, allocZ85Buff, if_pos hsmall, hbuffer]
      · rw [if_neg hsmall, hbuffer]
  · have hnull : ∀ dest, lib.zmqZ85Encode dest data = none := fun dest =>
      if_neg fun hmod => hdvd (Nat.dvd_of_mod_eq_zero hmod)
    simp only [if_neg hdvd, hnull]
    exact ⟨trivial, hbuffer⟩

theorem cString_eq (hzero : 0 ∉ code) : cString code = code := by
  refine List.takeWhile_eq_self_iff.mpr fun b hb => ?_
  rw [bne_iff_ne]
  rintro rfl
  exact hzero hb

/-- A destination with room for the bytes. -/
theorem zmqZ85Decode_take (dest : List UInt8) (hzero : 0 ∉ code) (hdvd : 5 ∣ code.length)
    (hdest : 4 * (code.length / 5) ≤ dest.length) :
    ∃ dest', lib.zmqZ85Decode dest code = some dest' ∧ dest'.length = dest.length ∧
      dest'.take (4 * (code.length / 5)) = lib.bytes code := by
  have hbytes := lib.length_bytes code hdvd
  rw [Decoder.zmqZ85Decode, cString_eq hzero, if_pos (Nat.mod_eq_zero_of_dvd hdvd)]
  refine ⟨_, rfl, length_overwrite .., ?_⟩
  rw [take_overwrite (by rw [hbytes]; exact hdest) _ (Nat.le_of_eq hbytes.symm), ← hbytes, List.take_length]

theorem luazmqZ85Decode_eq (heap : Nat → UInt8) (hzero : 0 ∉ code) (h : code.length < 2 ^ 50) :
    luazmqZ85Decode lib.toDecoder heap code = lib.decoded code := by
  have hcheck := checkLen_isSome h
  rw [luazmqZ85Decode, Codec.decoded]
  cases hlen : checkLen code.length with
  | none =>
    rw [hlen] at hcheck
    rw [if_neg fun hdvd => Bool.noConfusion (hcheck.mpr hdvd)]
  | some destLen =>
    have hdvd : 5 ∣ code.length := hcheck.mp (by rw [hlen]; rfl)
    have hdest : destLen = 4 * (code.length / 5) := by
      have := checkLen_eq hlen
      omega
    obtain ⟨dest, hrun, hdestLen, htake⟩ := zmqZ85Decode_take lib (uninit heap destLen) hzero hdvd
      (by rw [length_uninit, hdest])
    rw [length_uninit, hdest] at hdestLen
    simp only [if_pos hdvd, hrun]
    -- the whole destination is returned
    rw [← htake, List.take_of_length_le (Nat.le_of_eq hdestLen)]

theorem zmqZ85Decode_eq (hbuffer : buffer.length = arraySize) (hzero : 0 ∉ code) (h : code.length < 2 ^ 50) :
    (zmqZ85Decode lib.toDecoder buffer code).1 = lib.decoded code ∧
      (zmqZ85Decode lib.toDecoder buffer code).2.length = arraySize := by
  rw [zmqZ85Decode, Codec.decoded]
  by_cases hdvd : 5 ∣ code.length
  · have hfloor := floorLen_eq hdvd h
    have hroom := length_allocZ85Buff hbuffer (floorLen code.length)
    obtain ⟨dest, hdest, hlen, htake⟩ := zmqZ85Decode_take lib (allocZ85Buff buffer (floorLen code.length))
      hzero hdvd (by rw [← hfloor]; exact hroom)
    simp only [if_pos hdvd, hdest]
    refine ⟨?_, ?_⟩
    · rw [hfloor, htake]
    · by_cases hsmall : floorLen code.length ≤ arraySize
      · rw [if_pos hsmall, hlen, allocZ85Buff, if_pos hsmall, hbuffer]
      · rw [if_neg hsmall, hbuffer]
  · have hnull : ∀ dest, lib.zmqZ85Decode dest code = none := fun dest => by
      rw [Decoder.zmqZ85Decode, cString_eq hzero]
      exact if_neg fun hmod => hdvd (Nat.dvd_of_mod_eq_zero hmod)
    simp only [if_neg hdvd, hnull]
    exact ⟨trivial, hbuffer⟩

end Replies

/-! ## Calls on the shared buffer -/

inductive Call
  | encode (data : List UInt8)
  | decode (code : List UInt8)

/-- The lengths are exact as doubles, and a code has no zero byte. -/
def Call.Plain : Call → Prop
  | .encode data => data.length < 2 ^ 50
  | .decode code => 0 ∉ code ∧ code.length < 2 ^ 50

/-- A call of the C binding. -/
def Call.luazmq (lib : Codec) (heap : Nat → UInt8) : Call → Decoded
  | .encode data => luazmqZ85Encode lib heap data
  | .decode code => luazmqZ85Decode lib.toDecoder heap code

/-- A call of the FFI binding. -/
def Call.ffi (lib : Codec) (buffer : List UInt8) : Call → Decoded × List UInt8
  | .encode data => zmqZ85Encode lib buffer data
  | .decode code => zmqZ85Decode lib.toDecoder buffer code

/-- Calls of the FFI binding, one after the other. -/
def ffiCalls (lib : Codec) : List UInt8 → List Call → List Decoded
  | _, [] => []
  | buffer, call :: calls => (call.ffi lib buffer).1 :: ffiCalls lib (call.ffi lib buffer).2 calls

section Calls

variable (lib : Codec)

/-- One call: the bindings agree, and the buffer stays one. -/
theorem Call.ffi_eq {call : Call} (hplain : call.Plain) {buffer : List UInt8} (hbuffer : buffer.length = arraySize)
    (heap : Nat → UInt8) :
    (call.ffi lib buffer).1 = call.luazmq lib heap ∧ (call.ffi lib buffer).2.length = arraySize := by
  cases call with
  | encode data =>
    obtain ⟨hreply, hlen⟩ := zmqZ85Encode_eq lib hbuffer hplain
    exact ⟨hreply.trans (luazmqZ85Encode_eq lib heap).symm, hlen⟩
  | decode code =>
    obtain ⟨hreply, hlen⟩ := zmqZ85Decode_eq lib hbuffer hplain.1 hplain.2
    exact ⟨hreply.trans (luazmqZ85Decode_eq lib heap hplain.1 hplain.2).symm, hlen⟩

theorem ffiCalls_eq (calls : List Call) : ∀ {buffer : List UInt8}, (∀ call ∈ calls, call.Plain) →
    buffer.length = arraySize → ∀ heap, ffiCalls lib buffer calls = calls.map (Call.luazmq lib heap) := by
  induction calls with
  | nil => exact fun _ _ _ => rfl
  | cons call calls ih =>
    intro buffer hplain hbuffer heap
    obtain ⟨hreply, hlen⟩ := Call.ffi_eq lib (hplain call List.mem_cons_self) hbuffer heap
    rw [ffiCalls, hreply, ih (fun c hc => hplain c (List.mem_cons_of_mem call hc)) hlen heap, List.map_cons]

/-- **Codes go round, in both bindings.**  In every sequence of calls that decode no zero byte, the FFI binding
    replies what the C binding does, whatever the buffers held before and the calls before have left; blocks of
    bytes are encoded if and only if their length is a multiple of 4, and the code is decoded to the block. -/
theorem z85_round_trip (calls : List Call) (hplain : ∀ call ∈ calls, call.Plain) (buffer : List UInt8)
    (hbuffer : buffer.length = arraySize) (heap : Nat → UInt8) :
    ffiCalls lib buffer calls = calls.map (Call.luazmq lib heap) ∧
    ∀ data : List UInt8, 5 * data.length < 2 ^ 52 →
      (4 ∣ data.length → ∃ code, (Call.encode data).luazmq lib heap = .string code ∧ (Call.decode code).Plain ∧
        (Call.decode code).luazmq lib heap = .string data) ∧
      (¬ 4 ∣ data.length →
        (Call.encode data).luazmq lib heap = .error "size of the block must be divisible by 4") := by
  refine ⟨ffiCalls_eq lib calls hplain hbuffer heap, fun data hdata => ⟨fun hdvd => ?_, fun hdvd => ?_⟩⟩
  · have htext := lib.length_text data hdvd
    have hlen : (lib.text data).length < 2 ^ 50 := by omega
    refine ⟨lib.text data, ?_, ⟨lib.zero_text data, hlen⟩, ?_⟩
    · rw [Call.luazmq, luazmqZ85Encode_eq, Codec.encoded, if_pos hdvd]
    · rw [Call.luazmq, luazmqZ85Decode_eq lib heap (lib.zero_text data) hlen, Codec.decoded,
        if_pos (by rw [htext]; exact Nat.dvd_mul_right 5 _), lib.bytes_text data hdvd]
  · rw [Call.luazmq, luazmqZ85Encode_eq, Codec.encoded, if_neg hdvd]

end Calls

/-! ## A codec -/

/-- The digits of base 85: 0 to 9, a to z, A to Z, and punctuation. -/
def alphabet : List UInt8 :=
  (List.range' 48 10 ++ List.range' 97 26 ++ List.range' 65 26 ++
    [46, 45, 58, 43, 61, 94, 33, 47, 42, 63, 38, 60, 62, 40, 41, 91, 93, 123, 125, 64, 37, 36, 35]).map UInt8.ofNat

def char85 (digit : Nat) : UInt8 := (alphabet[digit]?).getD 0

/-- Four bytes are a number, the first one is the most significant; it has five digits. -/
def text85 : List UInt8 → List UInt8
  | a :: b :: c :: d :: data =>
    let value := ((a.toNat * 256 + b.toNat) * 256 + c.toNat) * 256 + d.toNat
    [value / 85 ^ 4, value / 85 ^ 3 % 85, value / 85 ^ 2 % 85, value / 85 % 85, value % 85].map char85 ++ text85 data
  | _ => []

def bytes85 : List UInt8 → List UInt8
  | a :: b :: c :: d :: e :: code =>
    let value := [a, b, c, d, e].foldl (fun v ch => v * 85 + alphabet.idxOf ch) 0
    [value / 2 ^ 24, value / 2 ^ 16, value / 2 ^ 8, value].map UInt8.ofNat ++ bytes85 code
  | _ => []

theorem idxOf_char85 : ∀ digit < 85, alphabet.idxOf (char85 digit) = digit ∧ char85 digit ≠ 0 := by
  decide +kernel

/-- The code of four bytes. -/
theorem bytes85_append {value : Nat} (h : value < 2 ^ 32) (code : List UInt8) :
    bytes85 ([value / 85 ^ 4, value / 85 ^ 3 % 85, value / 85 ^ 2 % 85, value / 85 % 85,
      value % 85].map char85 ++ code) =
      [value / 2 ^ 24, value / 2 ^ 16, value / 2 ^ 8, value].map UInt8.ofNat ++ bytes85 code := by
  have hvalue : [value / 85 ^ 4, value / 85 ^ 3 % 85, value / 85 ^ 2 % 85, value / 85 % 85, value % 85].foldl
      (fun v digit => v * 85 + digit) 0 = value := by
    simp only [List.foldl_cons, List.foldl_nil]
    omega
  have hdigits : [char85 (value / 85 ^ 4), char85 (value / 85 ^ 3 % 85), char85 (value / 85 ^ 2 % 85),
      char85 (value / 85 % 85), char85 (value % 85)].foldl (fun v ch => v * 85 + alphabet.idxOf ch) 0 = value := by
    simp only [List.foldl_cons, List.foldl_nil] at hvalue ⊢
    rwa [(idxOf_char85 (value / 85 ^ 4) (by omega)).1, (idxOf_char85 (value / 85 ^ 3 % 85) (by omega)).1,
      (idxOf_char85 (value / 85 ^ 2 % 85) (by omega)).1, (idxOf_char85 (value / 85 % 85) (by omega)).1,
      (idxOf_char85 (value % 85) (by omega)).1]
  rw [List.map_cons, List.map_cons, List.map_cons, List.map_cons, List.map_cons, List.map_nil]
  simp only [List.cons_append, List.nil_append]
  rw [bytes85, hdigits]

/-- Four bytes as a number, and back. -/
theorem bytes_of_value (a b c d : UInt8) :
    ((a.toNat * 256 + b.toNat) * 256 + c.toNat) * 256 + d.toNat < 2 ^ 32 ∧
    (let value := ((a.toNat * 256 + b.toNat) * 256 + c.toNat) * 256 + d.toNat
    [value / 2 ^ 24, value / 2 ^ 16, value / 2 ^ 8, value].map UInt8.ofNat = [a, b, c, d]) := by
  have ha := a.toNat_lt
  have hb := b.toNat_lt
  have hc := c.toNat_lt
  have hd := d.toNat_lt
  refine ⟨by omega, ?_⟩
  dsimp only
  simp only [List.map_cons, List.map_nil, List.cons.injEq, and_true]
  refine ⟨?_, ?_, ?_, ?_⟩
  all_goals
    apply UInt8.toNat_inj.mp
    rw [UInt8.toNat_ofNat']
    omega

/-- The two functions go four bytes and five characters at a time, and nothing is left at the end. -/
theorem nil_of_four {data : List UInt8} (hshort : ∀ a b c d rest, data = a :: b :: c :: d :: rest → False)
    (h : 4 ∣ data.length) : data = [] := by
  rcases data with _ | ⟨a, _ | ⟨b, _ | ⟨c, _ | ⟨d, rest⟩⟩⟩⟩
  · rfl
  · simp at h
  · simp at h
  · simp at h
  · exact absurd rfl (hshort a b c d rest)

theorem nil_of_five {code : List UInt8} (hshort : ∀ a b c d e rest, code = a :: b :: c :: d :: e :: rest → False)
    (h : 5 ∣ code.length) : code = [] := by
  rcases code with _ | ⟨a, _ | ⟨b, _ | ⟨c, _ | ⟨d, _ | ⟨e, rest⟩⟩⟩⟩⟩
  · rfl
  · simp at h
  · simp at h
  · simp at h
  · simp at h
  · exact absurd rfl (hshort a b c d e rest)

theorem length_text85 (data : List UInt8) (h : 4 ∣ data.length) : (text85 data).length = 5 * (data.length / 4) := by
  fun_induction text85 data with
  | case1 a b c d data value ih =>
    obtain ⟨k, hk⟩ := h
    simp only [List.length_append, List.length_map, List.length_cons, List.length_nil] at hk ⊢
    rw [ih ⟨k - 1, by omega⟩]
    omega
  | case2 data hshort =>
    rw [nil_of_four hshort h]
    rfl

theorem length_bytes85 (code : List UInt8) (h : 5 ∣ code.length) :
    (bytes85 code).length = 4 * (code.length / 5) := by
  fun_induction bytes85 code with
  | case1 a b c d e code value ih =>
    obtain ⟨k, hk⟩ := h
    simp only [List.length_append, List.length_map, List.length_cons, List.length_nil] at hk ⊢
    rw [ih ⟨k - 1, by omega⟩]
    omega
  | case2 code hshort =>
    rw [nil_of_five hshort h]
    rfl

theorem zero_text85 (data : List UInt8) : 0 ∉ text85 data := by
  fun_induction text85 data with
  | case1 a b c d data value ih =>
    have hvalue : value < 2 ^ 32 := (bytes_of_value a b c d).1
    rw [List.mem_append, List.mem_map]
    rintro (⟨digit, hdigit, hzero⟩ | hrest)
    · refine (idxOf_char85 digit ?_).2 hzero
      simp only [List.mem_cons, List.not_mem_nil, or_false] at hdigit
      omega
    · exact ih hrest
  | case2 data hshort => exact List.not_mem_nil

theorem bytes85_text85 (data : List UInt8) (h : 4 ∣ data.length) : bytes85 (text85 data) = data := by
  fun_induction text85 data with
  | case1 a b c d data value ih =>
    obtain ⟨hvalue, hbytes⟩ := bytes_of_value a b c d
    obtain ⟨k, hk⟩ := h
    rw [List.length_cons, List.length_cons, List.length_cons, List.length_cons] at hk
    rw [bytes85_append hvalue, hbytes, ih ⟨k - 1, by omega⟩]
    rfl
  | case2 data hshort =>
    rw [nil_of_four hshort h]
    rfl

/-- The codec of Z85. -/
def z85 : Codec where
  bytes := bytes85
  length_bytes := length_bytes85
  text := text85
  length_text := length_text85
  zero_text := zero_text85
  bytes_text := bytes85_text85

/-- The block that is encoded as "HelloWorld", twice on one buffer. -/
theorem z85_round_trip_hello :
    let block : List UInt8 := [0x86, 0x4F, 0xD2, 0x6F, 0xB5, 0x59, 0xF7, 0x5B]
    let hello : List UInt8 := [72, 101, 108, 108, 111, 87, 111, 114, 108, 100]
    ffiCalls z85 (List.replicate arraySize 0) [.encode block, .decode hello] = [.string hello, .string block] := by
  intro block hello
  have hblock : block.length < 2 ^ 50 := by decide
  have hhello : 0 ∉ hello ∧ hello.length < 2 ^ 50 := by decide
  have htrip := z85_round_trip z85 [.encode block, .decode hello]
    (List.forall_mem_cons.mpr ⟨hblock, List.forall_mem_cons.mpr ⟨hhello, nofun⟩⟩)
    (List.replicate arraySize 0) (by decide) fun _ => 0
  rw [htrip.1]
  decide +kernel

end Lzmq.Z85
