import Gridded.Proofs.Reader.Runs
import Mathlib

namespace Gridded

open Finset

/-- What a byte counts for in an element of some size, at each place from the first on. -/
def ByteOrder.weight (size i : Nat) : ByteOrder → Nat
  | .little => 256 ^ i
  | .big => 256 ^ (size - 1 - i)

theorem word_eq_sum (bytes : List UInt8) :
    word bytes = ∑ i ∈ range bytes.length, (bytes.getD i 0).toNat * 256 ^ i := by
  induction bytes with
  | nil => rfl
  | cons b bytes ih =>
    rw [word, List.foldr_cons, ← word, ih, List.length_cons, sum_range_succ', mul_sum]
    simp only [List.getD_cons_zero, List.getD_cons_succ, pow_succ, pow_zero, mul_one]
    rw [add_comm]
    congr 1
    apply sum_congr rfl
    intro i _
    ring

theorem word_lt (bytes : List UInt8) : word bytes < 256 ^ bytes.length := by
  induction bytes with
  | nil => exact Nat.one_pos
  | cons b bytes ih =>
    have := b.toNat_lt
    rw [word, List.foldr_cons, ← word, List.length_cons, pow_succ]
    omega

namespace ByteOrder

variable (order : ByteOrder) (bytes : List UInt8)

theorem length_arrange : (order.arrange bytes).length = bytes.length := by
  cases order with
  | little => rfl
  | big => exact List.length_reverse

theorem word_arrange :
    word (order.arrange bytes) =
      ∑ i ∈ range bytes.length, (bytes.getD i 0).toNat * order.weight bytes.length i := by
  cases order with
  | little => exact word_eq_sum bytes
  | big =>
    rw [arrange, word_eq_sum, List.length_reverse, ← sum_range_reflect]
    apply sum_congr rfl
    intro i hi
    have hi := mem_range.1 hi
    rw [List.getD_eq_getElem?_getD, List.getElem?_reverse (by omega), ← List.getD_eq_getElem?_getD,
      weight]
    congr 3
    omega

end ByteOrder

namespace ElementKind

variable (k : ElementKind)

theorem toWord_ofWord {n : Nat} (h : n < 256 ^ k.size) : k.toWord (k.ofWord n) = n := by
  cases k with
  | byte => exact UInt8.toNat_ofNat_of_lt' h
  | char => exact UInt16.toNat_ofNat_of_lt' h
  | short => exact UInt16.toNat_ofNat_of_lt' h
  | int => exact UInt32.toNat_ofNat_of_lt' h
  | long => exact UInt64.toNat_ofNat_of_lt' h
  | float => exact Nat.mod_eq_of_lt h
  | double => exact Nat.mod_eq_of_lt h

theorem toWord_decode (order : ByteOrder) {bytes : List UInt8} (h : bytes.length = k.size) :
    k.toWord (k.decode order bytes) =
      ∑ i ∈ range k.size, (bytes.getD i 0).toNat * order.weight k.size i := by
  rw [decode, k.toWord_ofWord, order.word_arrange, h]
  rw [← h, ← order.length_arrange]
  exact word_lt _

end ElementKind

namespace Contents

def wordAt (c : Contents) (size p : Nat) : Nat :=
  ∑ i ∈ range size, (c.bytes.getD (p + i) 0).toNat * c.order.weight size i

theorem toWord_element (c : Contents) (k : ElementKind) {p : Nat}
    (h : p + k.size ≤ c.bytes.size) : k.toWord (c.element k p) = c.wordAt k.size p := by
  rw [element, k.toWord_decode c.order (size_extract_of_le h), wordAt]
  apply sum_congr rfl
  intro i hi
  have hi := mem_range.1 hi
  congr 2
  have hin : p + i < c.bytes.size := by omega
  rw [List.getD_eq_getElem?_getD, Array.getElem?_toList, Array.getElem?_extract_of_lt (by omega),
    Array.getD_eq_getD_getElem?, Array.getElem?_eq_getElem hin]

end Contents

end Gridded
