import Mathlib.Data.List.Basic

/-!
# Bounded queues

A queue that holds at most so many items, refuses another one when it is full
and hands them out in the order they came in.
-/

/-- A queue of at most `capacity` items. -/
structure BoundedQueue (capacity : Nat) (α : Type) where
  items : List α
  bounded : items.length ≤ capacity
  deriving DecidableEq

namespace BoundedQueue

variable {capacity : Nat} {α : Type}

def empty : BoundedQueue capacity α := ⟨[], Nat.zero_le capacity⟩

/-- Queue an item, if there is room. -/
def push (queue : BoundedQueue capacity α) (item : α) : Option (BoundedQueue capacity α) :=
  if room : queue.items.length < capacity then
    some ⟨queue.items ++ [item], by rw [List.length_append]; exact room⟩
  else none

/-- The oldest item and the others. -/
def pop : BoundedQueue capacity α → Option (α × BoundedQueue capacity α)
  | ⟨[], _⟩ => none
  | ⟨item :: rest, bounded⟩ => some (item, ⟨rest, Nat.le_of_succ_le bounded⟩)

theorem push_items {queue pushed : BoundedQueue capacity α} {item : α}
    (room : queue.push item = some pushed) : pushed.items = queue.items ++ [item] := by
  unfold push at room
  split at room
  · cases room
    rfl
  · cases room

/-- A queue with room takes an item. -/
theorem push_of_lt {queue : BoundedQueue capacity α} (room : queue.items.length < capacity)
    (item : α) : ∃ pushed, queue.push item = some pushed := by
  rw [push, dif_pos room]
  exact ⟨_, rfl⟩

theorem pop_items {queue rest : BoundedQueue capacity α} {item : α}
    (popped : queue.pop = some (item, rest)) : queue.items = item :: rest.items := by
  obtain ⟨items, bounded⟩ := queue
  cases items with
  | nil => cases popped
  | cons head tail =>
      cases popped
      rfl

theorem pop_of_items {queue rest : BoundedQueue capacity α} {item : α}
    (items : queue.items = item :: rest.items) : queue.pop = some (item, rest) := by
  obtain ⟨queued, bounded⟩ := queue
  obtain ⟨left, bounded'⟩ := rest
  cases items
  rfl

/-- A queue with items hands out one. -/
theorem pop_of_ne_nil {queue : BoundedQueue capacity α} (some_item : queue.items ≠ []) :
    ∃ item rest, queue.pop = some (item, rest) := by
  obtain ⟨items, bounded⟩ := queue
  cases items with
  | nil => exact absurd rfl some_item
  | cons head tail => exact ⟨head, _, rfl⟩

end BoundedQueue
