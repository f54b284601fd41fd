import Mathlib.Data.Nat.Digits.Defs

set_option autoImplicit false

/-! # Little-endian numbers of a fixed width

The bytes of an integer field, unsigned or in two's complement, and the number that a field of some
bytes stands for. -/

namespace LittleEndian

open List

/-- The lowest `w` bytes of `n`. -/
def encode (w n : ℕ) : List UInt8 := (List.range w).map fun i => (n / 256 ^ i).toUInt8

/-- The number that the bytes stand for. -/
def decode (bytes : List UInt8) : ℕ := Nat.ofDigits 256 (bytes.map UInt8.toNat)

@[simp] theorem length_encode (w n : ℕ) : (encode w n).length = w := by simp [encode]

/-- **Round trip**: a number comes back modulo the range of its field. -/
theorem decode_encode (w n : ℕ) : decode (encode w n) = n % 256 ^ w := by
  induction w with
  | zero => simp [decode, encode, Nat.mod_one]
  | succ w ih =>
    have hsnoc : encode (w + 1) n = encode w n ++ [(n / 256 ^ w).toUInt8] := by
      simp [encode, range_succ]
    have hbyte : ((n / 256 ^ w).toUInt8).toNat = n / 256 ^ w % 256 := rfl
    rw [hsnoc, decode, map_append, Nat.ofDigits_append, length_map, length_encode]
    rw [decode] at ih
    rw [ih, map_singleton, Nat.ofDigits_singleton, hbyte, Nat.pow_succ, Nat.mod_mul]

theorem decode_encode_of_lt {w n : ℕ} (h : n < 256 ^ w) : decode (encode w n) = n := by
  rw [decode_encode, Nat.mod_eq_of_lt h]

theorem decode_lt (bytes : List UInt8) : decode bytes < 256 ^ bytes.length := by
  have hdigits : ∀ d ∈ bytes.map UInt8.toNat, d < 256 := by
    intro d hd
    obtain ⟨b, -, rfl⟩ := mem_map.1 hd
    exact b.toNat_lt
  simpa [decode] using Nat.ofDigits_lt_base_pow_length (by decide : 1 < 256) hdigits

/-! ## Signed numbers -/

/-- The lowest `w` bytes of `n` in two's complement. -/
def encodeInt (w : ℕ) (n : ℤ) : List UInt8 := encode w (n % (256 ^ w : ℕ)).toNat

/-- The number that the bytes encode. -/
def decodeInt (bytes : List UInt8) : ℤ := (decode bytes : ℤ).bmod (256 ^ bytes.length)

@[simp] theorem length_encodeInt (w : ℕ) (n : ℤ) : (encodeInt w n).length = w := length_encode w _

/-- **Round trip** of the numbers that fit in a signed field. -/
theorem decodeInt_encodeInt {w : ℕ} {n : ℤ} (hlo : -(256 ^ w : ℕ) ≤ n * 2)
    (hhi : n * 2 < (256 ^ w : ℕ)) : decodeInt (encodeInt w n) = n := by
  have hpos : (0 : ℤ) < (256 ^ w : ℕ) := by positivity
  have hdecode : (decode (encodeInt w n) : ℤ) = n % (256 ^ w : ℕ) := by
    rw [encodeInt, decode_encode, Nat.mod_eq_of_lt]
    · omega
    · omega
  rw [decodeInt, length_encodeInt, hdecode, Int.emod_bmod]
  exact Int.bmod_eq_of_le_mul_two hlo hhi

theorem le_decodeInt {bytes : List UInt8} {w : ℕ} (h : bytes.length ≤ w) :
    -(256 ^ w : ℕ) ≤ decodeInt bytes * 2 := by
  have hle := Int.le_bmod (x := decode bytes) (m := 256 ^ bytes.length) (by positivity)
  have hpow : 256 ^ bytes.length ≤ 256 ^ w := Nat.pow_le_pow_right (by decide) h
  unfold decodeInt
  omega

/-! ## Fields -/

/-- The bytes of the field of some width at an offset. -/
def field (bytes : List UInt8) (offset width : ℕ) : List UInt8 := (bytes.drop offset).take width

theorem field_append (front mid rest : List UInt8) {offset width : ℕ}
    (hoffset : front.length = offset) (hwidth : mid.length = width) :
    field (front ++ (mid ++ rest)) offset width = mid := by
  rw [field, drop_left' hoffset, take_left' hwidth]

@[simp] theorem field_zero (mid rest : List UInt8) {width : ℕ} (h : mid.length = width) :
    field (mid ++ rest) 0 width = mid :=
  field_append [] mid rest rfl h

@[simp] theorem field_self {mid : List UInt8} {width : ℕ} (h : mid.length = width) :
    field mid 0 width = mid := by
  simp [field, ← h]

@[simp] theorem field_byte (b : UInt8) (rest : List UInt8) : field (b :: rest) 0 1 = [b] := rfl

@[simp] theorem field_skip_byte (b : UInt8) (rest : List UInt8) (offset width : ℕ) :
    field (b :: rest) (offset + 1) width = field rest offset width := rfl

@[simp] theorem field_skip (front rest : List UInt8) {offset width : ℕ}
    (h : front.length ≤ offset) :
    field (front ++ rest) offset width = field rest (offset - front.length) width := by
  unfold field
  rw [drop_append, drop_eq_nil_of_le h, nil_append]

theorem field_field (bytes : List UInt8) {start size offset width : ℕ} (h : offset + width ≤ size) :
    field (field bytes start size) offset width = field bytes (start + offset) width := by
  unfold field
  rw [drop_take, drop_drop, take_take, min_eq_left (by omega)]

theorem length_field_le (bytes : List UInt8) (offset width : ℕ) :
    (field bytes offset width).length ≤ width := length_take_le _ _

theorem length_field {bytes : List UInt8} {offset width : ℕ} (h : offset + width ≤ bytes.length) :
    (field bytes offset width).length = width := by
  unfold field
  rw [length_take, length_drop]
  omega

end LittleEndian
