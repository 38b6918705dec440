import Mathlib.Data.Nat.ModEq
import Mathlib.Logic.Function.Basic

/-!
# Ring buffers

A bounded queue in a buffer that is written round and round. `Fifo.toList` is the queue, the oldest
element first; as long as there is room `push` appends to it, and `pop` takes its head.
-/

namespace RingBuffer

variable {α : Type}

/-- A ring of slots with the two ends and the number of elements. -/
structure Fifo (α : Type) where
  buf : ℕ → α
  depth : ℕ
  head : ℕ
  tail : ℕ
  count : ℕ

namespace Fifo

/-- The positions are within the buffer, and the tail follows the last element. -/
structure WellFormed (r : Fifo α) : Prop where
  head_lt : r.head < r.depth
  count_le : r.count ≤ r.depth
  tail_eq : r.tail = (r.head + r.count) % r.depth

/-- A ring without elements. -/
def empty (buf : ℕ → α) (depth : ℕ) : Fifo α := ⟨buf, depth, 0, 0, 0⟩

/-- An element at the back. -/
def push (r : Fifo α) (a : α) : Fifo α :=
  { r with
    buf := Function.update r.buf r.tail a
    tail := (r.tail + 1) % r.depth
    count := r.count + 1 }

/-- The oldest element is the one at `r.head`. -/
def pop (r : Fifo α) : Fifo α :=
  { r with head := (r.head + 1) % r.depth, count := r.count - 1 }

/-- The elements from the front to the back. -/
def toList (r : Fifo α) : List α :=
  (List.range r.count).map fun i => r.buf ((r.head + i) % r.depth)

variable {r : Fifo α}

@[simp] theorem length_toList (r : Fifo α) : r.toList.length = r.count := by
  simp [toList]

@[simp] theorem toList_empty (buf : ℕ → α) (depth : ℕ) : (empty buf depth).toList = [] := rfl

/-- The list is empty when the count is. -/
theorem toList_eq_nil : r.toList = [] ↔ r.count = 0 := by
  rw [← List.length_eq_zero_iff, length_toList]

/-- An empty ring is well formed. -/
theorem wellFormed_empty (buf : ℕ → α) {depth : ℕ} (h : 0 < depth) :
    (empty buf depth).WellFormed where
  head_lt := h
  count_le := Nat.zero_le _
  tail_eq := (Nat.zero_mod _).symm

namespace WellFormed

/-- A push into a ring with room. -/
theorem push (h : r.WellFormed) (hroom : r.count < r.depth) (a : α) : (r.push a).WellFormed where
  head_lt := h.head_lt
  count_le := hroom
  tail_eq := by
    show (r.tail + 1) % r.depth = (r.head + (r.count + 1)) % r.depth
    rw [h.tail_eq, Nat.mod_add_mod, Nat.add_assoc]

/-- A pop from a ring with an element. -/
theorem pop (h : r.WellFormed) (hsome : r.count ≠ 0) : r.pop.WellFormed where
  head_lt := Nat.mod_lt _ (Nat.lt_of_le_of_lt (Nat.zero_le _) h.head_lt)
  count_le := (Nat.sub_le _ _).trans h.count_le
  tail_eq := by
    show r.tail = ((r.head + 1) % r.depth + (r.count - 1)) % r.depth
    rw [h.tail_eq, Nat.mod_add_mod]
    congr 1
    omega

/-- The cell at the tail holds no element. -/
theorem index_ne_tail (h : r.WellFormed) (hroom : r.count < r.depth) {i : ℕ} (hi : i < r.count) :
    (r.head + i) % r.depth ≠ r.tail := by
  intro heq
  rw [h.tail_eq] at heq
  have hmod : i ≡ r.count [MOD r.depth] := Nat.ModEq.add_left_cancel' r.head heq
  have : i = r.count := Nat.ModEq.eq_of_lt_of_lt hmod (hi.trans hroom) hroom
  omega

/-- What is pushed comes last. -/
theorem toList_push (h : r.WellFormed) (hroom : r.count < r.depth) (a : α) :
    (r.push a).toList = r.toList ++ [a] := by
  show (List.range (r.count + 1)).map
    (fun i => Function.update r.buf r.tail a ((r.head + i) % r.depth)) = _
  rw [List.range_succ, List.map_append]
  congr 1
  · refine List.map_congr_left fun i hi => ?_
    rw [Function.update_of_ne (h.index_ne_tail hroom (List.mem_range.mp hi))]
  · rw [List.map_singleton, ← h.tail_eq, Function.update_self]

/-- What is popped came first. -/
theorem toList_pop (h : r.WellFormed) (hsome : r.count ≠ 0) :
    r.toList = r.buf r.head :: r.pop.toList := by
  obtain ⟨n, hn⟩ := Nat.exists_eq_succ_of_ne_zero hsome
  have hpop : r.pop.count = n := by
    show r.count - 1 = n
    omega
  unfold toList
  rw [hpop, hn, List.range_succ_eq_map, List.map_cons, List.map_map, Nat.add_zero,
    Nat.mod_eq_of_lt h.head_lt]
  congr 1
  refine List.map_congr_left fun i _ => ?_
  show r.buf ((r.head + (i + 1)) % r.depth) = r.buf (((r.head + 1) % r.depth + i) % r.depth)
  rw [Nat.mod_add_mod, Nat.add_assoc, Nat.add_comm 1]

end WellFormed

end Fifo

end RingBuffer
