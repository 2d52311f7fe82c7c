import Mathlib.Data.List.Basic

/-!
# Arrays read through a shared index

An array that several readers go through with one index, `i = next++; x = queue[i]`, and that grows
at its end while it is read. The index moves on a read past the end too, and what is appended later
at such a position is never read: `pending` is what a later read can still return.

`push_pending` and `push_pending_late` are the two cases of an append.
-/

structure Cursor (α : Type*) where
  queue : List α
  next : ℕ

namespace Cursor

variable {α : Type*}

/-- `queue[next++]`; `none` past the end. -/
def take (c : Cursor α) : Option α × Cursor α := (c.queue[c.next]?, { c with next := c.next + 1 })

def push (c : Cursor α) (a : α) : Cursor α := { c with queue := c.queue ++ [a] }

def pending (c : Cursor α) : List α := c.queue.drop c.next

def InRange (c : Cursor α) : Prop := c.next ≤ c.queue.length

instance (c : Cursor α) : Decidable c.InRange := inferInstanceAs (Decidable (_ ≤ _))

theorem pending_of_take_some {c : Cursor α} {a : α} (h : c.take.1 = some a) :
    c.pending = a :: c.take.2.pending := by
  obtain ⟨hlt, hget⟩ := List.getElem?_eq_some_iff.mp h
  rw [pending, List.drop_eq_getElem_cons hlt, hget]
  rfl

theorem pending_of_take_none {c : Cursor α} (h : c.take.1 = none) :
    c.pending = [] ∧ c.take.2.pending = [] := by
  have hle : c.queue.length ≤ c.next := List.getElem?_eq_none_iff.mp h
  exact ⟨List.drop_eq_nil_of_le hle, List.drop_eq_nil_of_le (Nat.le_succ_of_le hle)⟩

/-- Appended while the index is in range, an element is the last one pending. -/
theorem push_pending {c : Cursor α} (h : c.InRange) (a : α) :
    (c.push a).pending = c.pending ++ [a] := List.drop_append_of_le_length h

/-- Appended after the index has left the array, an element is lost. -/
theorem push_pending_late {c : Cursor α} (h : ¬ c.InRange) (a : α) :
    (c.push a).pending = c.pending := by
  have hlt : c.queue.length < c.next := Nat.lt_of_not_le h
  have hlen : (c.queue ++ [a]).length ≤ c.next := by
    rw [List.length_append, List.length_singleton]
    exact hlt
  rw [pending, pending, push, List.drop_eq_nil_of_le hlen,
    List.drop_eq_nil_of_le (Nat.le_of_lt hlt)]

end Cursor
