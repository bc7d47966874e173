import Mathlib.Data.List.Basic

/-!
# Batches of a list

A list cut into consecutive batches of one size, the last of which may be shorter.
-/

namespace WolkGateway.Batches

variable {α : Type*} {n : ℕ} {l : List α}

def batch (n : ℕ) (l : List α) (i : ℕ) : List α := (l.drop (n * i)).take n

/-- The number of batches, `⌈length / n⌉`. -/
def batchCount (n : ℕ) (l : List α) : ℕ := (l.length + n - 1) / n

@[simp] theorem batch_zero : batch n l 0 = l.take n := by simp [batch]

theorem batch_drop (i : ℕ) : batch n (l.drop n) i = batch n l (i + 1) := by
  rw [batch, batch, List.drop_drop, Nat.mul_succ, Nat.add_comm]

theorem drop_drop_batch (i : ℕ) : (l.drop n).drop (n * i) = l.drop (n * (i + 1)) := by
  rw [List.drop_drop, Nat.mul_succ, Nat.add_comm]

theorem batchCount_nil (hn : 0 < n) : batchCount n ([] : List α) = 0 := by
  have hlt : 0 + n - 1 < n := by omega
  rw [batchCount, List.length_nil, Nat.div_eq_of_lt hlt]

theorem batchCount_of_ne_nil (hn : 0 < n) (h : l ≠ []) :
    batchCount n l = batchCount n (l.drop n) + 1 := by
  have hpos := List.length_pos_of_ne_nil h
  simp only [batchCount, List.length_drop]
  rcases Nat.lt_or_ge l.length n with hlt | hge
  · have h1 : l.length + n - 1 = (l.length - 1) + n := by omega
    have h2 : l.length - n + n - 1 = n - 1 := by omega
    rw [h1, h2, Nat.add_div_right _ hn, Nat.div_eq_of_lt (by omega), Nat.div_eq_of_lt (by omega)]
  · have h1 : l.length + n - 1 = (l.length - n + n - 1) + n := by omega
    rw [h1, Nat.add_div_right _ hn]

end WolkGateway.Batches
