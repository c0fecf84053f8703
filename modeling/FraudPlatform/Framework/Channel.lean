import Mathlib.Data.List.Basic

namespace Framework

/-- A bounded first-in first-out buffer. -/
structure Channel (α : Type*) where
  capacity : Nat
  buffer : List α
  bounded : buffer.length ≤ capacity

namespace Channel

variable {α : Type*}

def make (capacity : Nat) : Channel α := ⟨capacity,[],Nat.zero_le capacity⟩

/-- A send that does not wait: `none` on a full buffer. -/
def send? (c : Channel α) (a : α) : Option (Channel α) :=
  if h : c.buffer.length < c.capacity then
    some ⟨c.capacity,c.buffer ++ [a],by rw [List.length_append]; exact h⟩
  else none

/-- A receive that does not wait: `none` on an empty buffer. -/
def recv? (c : Channel α) : Option (α × Channel α) :=
  match h : c.buffer with
  | [] => none
  | a :: rest => some (a,⟨c.capacity,rest,by
      have hb := c.bounded
      rw [h, List.length_cons] at hb
      exact Nat.le_of_succ_le hb⟩)

theorem send?_buffer {c d : Channel α} {a : α} (h : c.send? a = some d) :
    d.buffer = c.buffer ++ [a] := by
  unfold send? at h
  split_ifs at h
  cases h
  rfl

theorem send?_eq_none {c : Channel α} {a : α} :
    c.send? a = none ↔ c.capacity ≤ c.buffer.length := by
  unfold send?
  split_ifs with h
  · simpa using h
  · simpa using h

theorem recv?_buffer {c d : Channel α} {a : α} (h : c.recv? = some (a,d)) :
    c.buffer = a :: d.buffer := by
  unfold recv? at h
  split at h
  · cases h
  · next hb =>
    cases h
    exact hb

theorem recv?_eq_none {c : Channel α} : c.recv? = none ↔ c.buffer = [] := by
  unfold recv?
  split
  · next hb => simp [hb]
  · next hb => simp [hb]

end Channel

end Framework
