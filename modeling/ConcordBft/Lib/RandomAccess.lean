import ConcordBft.Lib.LittleEndian

set_option autoImplicit false

/-! # Files that are written in place

A file is the list of its bytes. A write replaces the bytes at an offset and lengthens the file where
it ends behind it; `LittleEndian.field` reads. A read of the same place gives what was written, and a
read beside it gives what was there. -/

namespace RandomAccess

open LittleEndian List

/-- The file with `data` at `offset`. Bytes between the old end and the offset are zero. -/
def write (file : List UInt8) (offset : ℕ) (data : List UInt8) : List UInt8 :=
  file.take offset ++ List.replicate (offset - file.length) 0 ++ data ++
    file.drop (offset + data.length)

/-- The file with `size` bytes, cut off or continued by zeros. -/
def truncate (file : List UInt8) (size : ℕ) : List UInt8 :=
  file.take size ++ List.replicate (size - file.length) 0

variable {file data : List UInt8} {offset start width : ℕ}

@[simp]
theorem length_truncate (file : List UInt8) (size : ℕ) : (truncate file size).length = size := by
  rw [truncate, length_append, length_take, length_replicate]
  omega

theorem length_write (h : offset + data.length ≤ file.length) :
    (write file offset data).length = file.length := by
  simp only [write, length_append, length_take, length_replicate, length_drop]
  omega

theorem field_write_self (file : List UInt8) (offset : ℕ) (data : List UInt8) :
    field (write file offset data) offset data.length = data := by
  rw [write, append_assoc]
  refine field_append _ _ _ ?_ rfl
  rw [length_append, length_take, length_replicate]
  omega

/-- A write in front of or behind a field does not change it. -/
theorem field_write_of_disjoint (hfile : offset + data.length ≤ file.length)
    (h : start + width ≤ offset ∨ offset + data.length ≤ start) :
    field (write file offset data) start width = field file start width := by
  apply ext_getElem?
  intro i
  simp only [field, getElem?_take, getElem?_drop]
  by_cases hi : i < width
  · rw [if_pos hi, if_pos hi, write, Nat.sub_eq_zero_of_le (by omega), replicate_zero,
      append_nil]
    rcases h with hbefore | hbehind
    · rw [append_assoc, getElem?_append_left (by rw [length_take]; omega),
        getElem?_take_of_lt (by omega)]
    · have hlength : (file.take offset ++ data).length = offset + data.length := by
        rw [length_append, length_take]
        omega
      rw [getElem?_append_right (by omega), getElem?_drop]
      congr 1
      omega
  · rw [if_neg hi, if_neg hi]

end RandomAccess
