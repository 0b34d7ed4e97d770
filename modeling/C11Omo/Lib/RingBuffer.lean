import Mathlib

set_option autoImplicit false

/-! # Ring buffers

A ring of `2 ^ k` cells that one side fills and the other empties. The two indices are counters of 32
bits that run freely and wrap around; the low `k` bits of a counter say which cell it is at. The ring
holds a queue (`RingBuffer.toList`), as long as it is never filled beyond its cells. The rules say what
the two operations do to the queue, whatever the counters are.
-/

namespace C11Omo.Lib

/-- Cells, and the counters of the side that empties them and of the side that fills them. -/
structure RingBuffer (α : Type) where
  head : UInt32
  tail : UInt32
  cells : UInt32 → α

namespace RingBuffer

variable {α : Type} {k : Nat} {r : RingBuffer α}

/-- The mask of a ring with `2 ^ k` cells. -/
def mask (k : Nat) : UInt32 := UInt32.ofNat (2 ^ k - 1)

/-- How many cells are filled. -/
def count (r : RingBuffer α) : Nat := (r.tail - r.head).toNat

/-- The cell that is `j` cells behind the head. -/
def index (k : Nat) (r : RingBuffer α) (j : Nat) : UInt32 := (r.head + UInt32.ofNat j) &&& mask k

/-- The queue. -/
def toList (k : Nat) (r : RingBuffer α) : List α :=
  (List.range r.count).map fun j => r.cells (r.index k j)

/-- The next cell is filled. -/
def push (k : Nat) (r : RingBuffer α) (x : α) : RingBuffer α :=
  { r with
    tail := r.tail + 1
    cells := Function.update r.cells (r.tail &&& mask k) x }

/-- The first `n` cells are emptied. -/
def advance (r : RingBuffer α) (n : Nat) : RingBuffer α := { r with head := r.head + UInt32.ofNat n }

/-! ## Counters -/

theorem toNat_mask (hk : k ≤ 31) (i : UInt32) : (i &&& mask k).toNat = i.toNat % 2 ^ k := by
  have hpow : 2 ^ k ≤ 2 ^ 31 := Nat.pow_le_pow_right (by decide) hk
  have hmask : (mask k).toNat = 2 ^ k - 1 := by
    rw [mask, UInt32.toNat_ofNat', Nat.mod_eq_of_lt (by omega)]
  rw [UInt32.toNat_and, hmask, Nat.and_two_pow_sub_one_eq_mod]

/-- **In bounds**: whatever the counter is, the cell is one of the ring. -/
theorem mask_lt (hk : k ≤ 31) (i : UInt32) : (i &&& mask k).toNat < 2 ^ k := by
  rw [toNat_mask hk]
  exact Nat.mod_lt _ (Nat.two_pow_pos k)

theorem toNat_index (hk : k ≤ 31) (r : RingBuffer α) (j : Nat) :
    (r.index k j).toNat = (r.head.toNat + j) % 2 ^ k := by
  have hdvd : 2 ^ k ∣ 2 ^ 32 := Nat.pow_dvd_pow 2 (by omega)
  rw [index, toNat_mask hk, UInt32.toNat_add, UInt32.toNat_ofNat', Nat.mod_mod_of_dvd _ hdvd,
    Nat.add_mod, Nat.mod_mod_of_dvd _ hdvd, ← Nat.add_mod]

/-- Cells that are less than a round apart are different. -/
theorem index_ne (hk : k ≤ 31) {i j : Nat} (hij : i < j) (hj : j < i + 2 ^ k) :
    r.index k i ≠ r.index k j := by
  intro heq
  have hmod : (r.head.toNat + i) % 2 ^ k = (r.head.toNat + j) % 2 ^ k := by
    rw [← toNat_index hk, ← toNat_index hk, heq]
  have hdvd : 2 ^ k ∣ (r.head.toNat + j) - (r.head.toNat + i) :=
    (Nat.modEq_iff_dvd' (by omega)).mp hmod
  have hle := Nat.le_of_dvd (by omega) hdvd
  omega

/-- The tail is `count` cells behind the head. -/
theorem tail_eq (r : RingBuffer α) : r.tail = r.head + UInt32.ofNat r.count := by
  rw [count, UInt32.ofNat_toNat, UInt32.add_comm, UInt32.sub_add_cancel]

theorem index_count (k : Nat) (r : RingBuffer α) : r.index k r.count = r.tail &&& mask k := by
  rw [index, ← tail_eq]

theorem toNat_count (r : RingBuffer α) :
    r.count = (4294967296 - r.head.toNat + r.tail.toNat) % 4294967296 := by
  rw [count, UInt32.toNat_sub]

theorem count_eq_zero : r.count = 0 ↔ r.head = r.tail := by
  have hhead := UInt32.toNat_lt r.head
  have htail := UInt32.toNat_lt r.tail
  rw [toNat_count, ← UInt32.toNat_inj]
  omega

theorem count_push (hroom : r.count < 2 ^ k) (hk : k ≤ 31) (x : α) :
    (r.push k x).count = r.count + 1 := by
  have hpow : 2 ^ k ≤ 2 ^ 31 := Nat.pow_le_pow_right (by decide) hk
  have hhead := UInt32.toNat_lt r.head
  have htail := UInt32.toNat_lt r.tail
  have hnext : (r.tail + 1).toNat = (r.tail.toNat + 1) % 4294967296 := UInt32.toNat_add ..
  rw [toNat_count] at hroom
  rw [toNat_count, toNat_count]
  show (4294967296 - r.head.toNat + (r.tail + 1).toNat) % 4294967296 = _
  rw [hnext]
  omega

theorem count_advance {n : Nat} (hn : n ≤ r.count) : (r.advance n).count = r.count - n := by
  have hhead := UInt32.toNat_lt r.head
  have htail := UInt32.toNat_lt r.tail
  have hnext : (r.head + UInt32.ofNat n).toNat = (r.head.toNat + n % 4294967296) % 4294967296 := by
    rw [UInt32.toNat_add, UInt32.toNat_ofNat']
  rw [toNat_count] at hn
  rw [toNat_count, toNat_count]
  show (4294967296 - (r.head + UInt32.ofNat n).toNat + r.tail.toNat) % 4294967296 = _
  rw [hnext]
  omega

/-! ## The queue -/

@[simp] theorem length_toList (k : Nat) (r : RingBuffer α) : (r.toList k).length = r.count := by
  rw [toList, List.length_map, List.length_range]

theorem toList_eq_nil : r.toList k = [] ↔ r.head = r.tail := by
  rw [← List.length_eq_zero_iff, length_toList, count_eq_zero]

theorem getElem_toList {j : Nat} (hj : j < (r.toList k).length) :
    (r.toList k)[j] = r.cells (r.index k j) := by
  simp [toList]

/-- Only the cells between the counters matter. -/
theorem toList_congr {r' : RingBuffer α} (hhead : r'.head = r.head) (htail : r'.tail = r.tail)
    (hcells : ∀ j, j < r.count → r'.cells (r.index k j) = r.cells (r.index k j)) :
    r'.toList k = r.toList k := by
  have hcount : r'.count = r.count := by rw [count, count, hhead, htail]
  have hindex : ∀ j, r'.index k j = r.index k j := fun j => by rw [index, index, hhead]
  rw [toList, toList, hcount]
  refine List.map_congr_left fun j hj => ?_
  rw [hindex]
  exact hcells j (List.mem_range.mp hj)

/-- **Filling a cell** puts it at the end of the queue. -/
theorem toList_push (hroom : r.count < 2 ^ k) (hk : k ≤ 31) (x : α) :
    (r.push k x).toList k = r.toList k ++ [x] := by
  have hindex : ∀ j, (r.push k x).index k j = r.index k j := fun _ => rfl
  rw [toList, count_push hroom hk, List.range_succ, List.map_append, List.map_singleton, toList]
  congr 1
  · refine List.map_congr_left fun j hj => ?_
    have hlt := List.mem_range.mp hj
    have hne : r.index k j ≠ r.tail &&& mask k := by
      rw [← index_count]
      exact index_ne hk hlt (by omega)
    rw [hindex]
    exact Function.update_of_ne hne ..
  · have hself : (r.push k x).cells (r.tail &&& mask k) = x := by simp [push]
    rw [hindex, index_count, hself]

theorem index_advance (k : Nat) (r : RingBuffer α) (n j : Nat) :
    (r.advance n).index k j = r.index k (n + j) := by
  show ((r.head + UInt32.ofNat n) + UInt32.ofNat j) &&& mask k = _
  rw [index, UInt32.add_assoc, ← UInt32.ofNat_add]

/-- **Emptying cells** takes them off the front of the queue. -/
theorem toList_advance {n : Nat} (hn : n ≤ r.count) :
    (r.advance n).toList k = (r.toList k).drop n := by
  refine List.ext_getElem ?_ fun j hj hj' => ?_
  · rw [length_toList, count_advance hn, List.length_drop, length_toList]
  · rw [getElem_toList, List.getElem_drop, getElem_toList, index_advance]
    rfl

/-- The first cell and the rest. -/
theorem toList_cons (hne : r.head ≠ r.tail) :
    r.toList k = r.cells (r.head &&& mask k) :: (r.advance 1).toList k := by
  have hpos : 1 ≤ r.count := Nat.one_le_iff_ne_zero.mpr (mt count_eq_zero.mp hne)
  have hlen : 0 < (r.toList k).length := by rwa [length_toList]
  have hfirst : (r.toList k)[0] = r.cells (r.head &&& mask k) := by
    rw [getElem_toList, index]
    exact congrArg (fun i => r.cells (i &&& mask k)) (UInt32.add_zero r.head)
  rw [toList_advance hpos, ← hfirst, List.drop_one, List.getElem_zero, List.cons_head_tail]

end RingBuffer

end C11Omo.Lib
