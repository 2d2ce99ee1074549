import Mathlib.Data.List.DropRight
import Mathlib.Data.List.Rotate
import FlowCache.Library.Transition
import FlowCache.Shared.Utils

/-!
# What a ring buffer holds

Read from its cursor on, a ring buffer lists the items pushed last, oldest first.  While
there is room the cursor is one past the last slot, so that reading starts over at the
first one; once the buffer is full the cursor is the slot of the oldest item.
-/

namespace FlowCache

open Transition

variable {Item : Type}

/-! ## The last items of a list -/

theorem length_rtake (items : List Item) (count : Nat) :
    (items.rtake count).length = min items.length count := by
  rw [List.rtake, List.length_drop]
  omega

theorem rtake_of_length_le {items : List Item} {count : Nat}
    (le : items.length ≤ count) : items.rtake count = items := by
  rw [List.rtake, Nat.sub_eq_zero_of_le le, List.drop_zero]

/-- A window that is full loses its oldest item for each new one. -/
theorem rtake_append_singleton {items : List Item} {count : Nat} (positive : 0 < count)
    (full : count ≤ items.length) (item : Item) :
    (items ++ [item]).rtake count = (items.rtake count).tail ++ [item] := by
  obtain ⟨count, rfl⟩ := Nat.exists_eq_succ_of_ne_zero positive.ne'
  rw [List.rtake_concat_succ, List.rtake, List.rtake, List.tail_drop]
  congr 2
  omega

/-- Overwriting a slot and stepping past it moves the slot's item to the end. -/
theorem rotate_set {items : List Item} {index : Nat} (inside : index < items.length)
    (item : Item) :
    (items.set index item).rotate (index + 1) = (items.rotate index).tail ++ [item] := by
  have bound : index + 1 ≤ (items.set index item).length := by
    rw [List.length_set]
    exact inside
  rw [List.rotate_eq_drop_append_take bound, List.rotate_eq_drop_append_take inside.le,
    List.drop_set_of_lt (Nat.lt_succ_self index), List.take_add_one,
    List.take_set_of_le le_rfl, List.getElem?_set_self inside,
    List.drop_eq_getElem_cons (i := index) inside, List.cons_append, List.tail_cons,
    List.append_assoc]
  rfl

/-! ## Runs of a buffer -/

/-- A call that changes a buffer. -/
inductive BufferCall (Item : Type) where
  | push (item : Item)
  | clear
  deriving DecidableEq, Repr

/-- The items pushed since the last `clear`, after one more call. -/
def pushedAfter (pushed : List Item) : BufferCall Item → List Item
  | .push item => pushed ++ [item]
  | .clear => []

/-- The items pushed since the last `clear`. -/
def pushedSinceClear (calls : List (BufferCall Item)) : List Item :=
  calls.foldl pushedAfter []

namespace RingBuffer

/-- One call. -/
def receive (buffer : RingBuffer Item) : BufferCall Item → RingBuffer Item
  | .push item => buffer.push item
  | .clear => buffer.clear

/-- The buffer is what is left of the items that were pushed into it. -/
structure Retains (buffer : RingBuffer Item) (pushed : List Item) : Prop where
  cursor : buffer.cursor = pushed.length % buffer.capacity
  window : buffer.buf.rotate buffer.cursor = pushed.rtake buffer.capacity

variable {buffer : RingBuffer Item} {pushed : List Item}

theorem capacity_pos (buffer : RingBuffer Item) : 0 < buffer.capacity :=
  Nat.zero_lt_of_lt buffer.cursor_lt

namespace Retains

theorem length_buf (retains : buffer.Retains pushed) :
    buffer.buf.length = min pushed.length buffer.capacity := by
  rw [← length_rtake, ← retains.window, List.length_rotate]

theorem perm (retains : buffer.Retains pushed) :
    buffer.buf.Perm (pushed.rtake buffer.capacity) := by
  rw [← retains.window]
  exact (List.rotate_perm ..).symm

/-- As long as there is room the slots are in the order of the pushes. -/
theorem buf_eq_of_room (retains : buffer.Retains pushed)
    (room : buffer.buf.length < buffer.capacity) : buffer.buf = pushed := by
  have counted := retains.length_buf
  have few : pushed.length < buffer.capacity := by omega
  have length : buffer.buf.length = buffer.cursor := by
    rw [retains.cursor, Nat.mod_eq_of_lt few]
    omega
  have window := retains.window
  rw [← length, List.rotate_length, rtake_of_length_le few.le] at window
  exact window

theorem push_of_room (retains : buffer.Retains pushed)
    (room : buffer.buf.length < buffer.capacity) (item : Item) :
    (buffer.push item).Retains (pushed ++ [item]) := by
  have same := retains.buf_eq_of_room room
  have few : (pushed ++ [item]).length ≤ buffer.capacity := by
    rw [List.length_append, List.length_singleton, ← same]
    exact room
  have cursor : (buffer.cursor + 1) % buffer.capacity =
      (pushed ++ [item]).length % buffer.capacity := by
    rw [retains.cursor, Nat.mod_add_mod, List.length_append, List.length_singleton]
  refine ⟨cursor, ?_⟩
  simp only [push]
  rw [if_pos room, same, cursor, rtake_of_length_le few]
  rcases few.lt_or_eq with inside | last
  · rw [Nat.mod_eq_of_lt inside, List.rotate_length]
  · rw [last, Nat.mod_self, List.rotate_zero]

theorem push_of_full (retains : buffer.Retains pushed)
    (full : ¬buffer.buf.length < buffer.capacity) (item : Item) :
    (buffer.push item).Retains (pushed ++ [item]) := by
  have counted := retains.length_buf
  have many : buffer.capacity ≤ pushed.length := by omega
  have length : (buffer.buf.set buffer.cursor item).length = buffer.capacity := by
    rw [List.length_set]
    omega
  have inside : buffer.cursor < buffer.buf.length := by
    have within := buffer.cursor_lt
    omega
  constructor
  case cursor =>
    simp only [push]
    rw [retains.cursor, Nat.mod_add_mod, List.length_append, List.length_singleton]
  case window =>
    simp only [push]
    rw [if_neg full, rtake_append_singleton buffer.capacity_pos many, ← retains.window,
      ← rotate_set inside, ← List.rotate_mod _ (buffer.cursor + 1), length]

/-- One push. -/
theorem push (retains : buffer.Retains pushed) (item : Item) :
    (buffer.push item).Retains (pushed ++ [item]) := by
  by_cases room : buffer.buf.length < buffer.capacity
  · exact retains.push_of_room room item
  · exact retains.push_of_full room item

theorem clear (buffer : RingBuffer Item) : buffer.clear.Retains [] :=
  ⟨(Nat.zero_mod _).symm, (List.rotate_nil _).trans (List.rtake_nil _).symm⟩

/-- One call. -/
theorem receive (retains : buffer.Retains pushed) (call : BufferCall Item) :
    (buffer.receive call).Retains (pushedAfter pushed call) := by
  cases call with
  | push item => exact retains.push item
  | clear => exact Retains.clear buffer

theorem run (retains : buffer.Retains pushed) (calls : List (BufferCall Item)) :
    (run RingBuffer.receive buffer calls).Retains (calls.foldl pushedAfter pushed) := by
  induction calls generalizing buffer pushed with
  | nil => exact retains
  | cons call rest ih => exact ih (retains.receive call)

/-- The cursor of a full buffer is the slot of its oldest item. -/
theorem oldest (retains : buffer.Retains pushed) (full : buffer.capacity ≤ pushed.length) :
    buffer.buf[buffer.cursor]? = (pushed.rtake buffer.capacity).head? := by
  have inside : buffer.cursor < buffer.buf.length := by
    rw [retains.length_buf, Nat.min_eq_right full]
    exact buffer.cursor_lt
  rw [← retains.window, List.head?_rotate inside]

end Retains

theorem retains_create (capacity : Nat) (positive : 0 < capacity) :
    (create capacity positive : RingBuffer Item).Retains [] :=
  ⟨(Nat.zero_mod _).symm, (List.rotate_nil _).trans (List.rtake_nil _).symm⟩

theorem receive_capacity (buffer : RingBuffer Item) (call : BufferCall Item) :
    (buffer.receive call).capacity = buffer.capacity := by
  cases call with
  | push item => rfl
  | clear => rfl

theorem run_capacity (buffer : RingBuffer Item) (calls : List (BufferCall Item)) :
    (run receive buffer calls).capacity = buffer.capacity := by
  apply @run_invariant _ _ receive (fun reached => reached.capacity = buffer.capacity)
  · intro reached call same
    exact (receive_capacity reached call).trans same
  · rfl

/-- After any calls a buffer holds the items pushed last since it was cleared, as many as
there are and fit; the cursor of a full one is the slot of the oldest item, and that is
the slot the next push writes. -/
theorem holds_last_items (capacity : Nat) (positive : 0 < capacity)
    (calls : List (BufferCall Item)) :
    let buffer := run receive (create capacity positive) calls
    let pushed := pushedSinceClear calls
    buffer.toArray.Perm (pushed.rtake (min pushed.length capacity)) ∧
      buffer.length = min pushed.length capacity ∧
      (capacity ≤ pushed.length →
        buffer.toArray[buffer.cursor]? = (pushed.rtake capacity).head? ∧
          ∀ item, (buffer.push item).toArray = buffer.toArray.set buffer.cursor item ∧
            (buffer.push item).toArray.Perm ((pushed.rtake capacity).tail ++ [item])) := by
  intro buffer pushed
  have retains : buffer.Retains pushed := (retains_create capacity positive).run calls
  have same : buffer.capacity = capacity := run_capacity _ calls
  have window : pushed.rtake (min pushed.length capacity) = pushed.rtake capacity := by
    rw [List.rtake, List.rtake]
    congr 1
    omega
  refine ⟨?_, ?_, ?_⟩
  · rw [window, ← same]
    exact retains.perm
  · rw [← same]
    exact retains.length_buf
  · intro full
    rw [← same] at full positive ⊢
    have noRoom : ¬buffer.buf.length < buffer.capacity := by
      rw [retains.length_buf]
      omega
    refine ⟨retains.oldest full, ?_⟩
    intro item
    refine ⟨if_neg noRoom, ?_⟩
    rw [← rtake_append_singleton positive full]
    exact (retains.push item).perm

/-- Three slots and five pushes after a `clear`. -/
theorem holds_last_items_wrapped :
    (run receive (create 3 (by decide) : RingBuffer Nat)
      [.push 9, .clear, .push 1, .push 2, .push 3, .push 4, .push 5]).toArray = [4, 5, 3] ∧
      (run receive (create 3 (by decide) : RingBuffer Nat)
        [.push 9, .clear, .push 1, .push 2, .push 3, .push 4, .push 5]).length = min 5 3 := by
  refine ⟨rfl, ?_⟩
  exact (holds_last_items 3 (by decide)
    [.push 9, .clear, .push 1, .push 2, .push 3, .push 4, .push 5]).2.1

end RingBuffer

end FlowCache
