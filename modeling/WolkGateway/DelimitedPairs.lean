import Mathlib.Data.List.Basic

/-!
# Pairs joined by a delimiter

Two words written one after the other with a delimiter between them, and the split at
the first delimiter. The pair can be read back if the first word does not contain the
delimiter.
-/

namespace WolkGateway.DelimitedPairs

variable {α : Type} [DecidableEq α] {sep : α} {a b c d : List α}

def join (sep : α) (a b : List α) : List α := a ++ sep :: b

/-- The parts before and after the first delimiter, if there is one. -/
def split (sep : α) (l : List α) : Option (List α × List α) :=
  match l.idxOf? sep with
  | none => none
  | some pos => some (l.take pos, l.drop (pos + 1))

theorem split_join (b : List α) (h : sep ∉ a) : split sep (join sep a b) = some (a, b) := by
  have hpos : (join sep a b).idxOf? sep = some a.length := by
    rw [List.idxOf?_eq_some_iff]
    refine ⟨by simp [join], by simp [join], ?_⟩
    intro j hj heq
    apply h
    rw [← heq]
    simp [join, List.getElem_append_left hj]
  rw [split, hpos]
  simp [join]

/-- The first part avoids the delimiter. -/
theorem not_mem_of_split (h : split sep a = some (b, c)) : sep ∉ b := by
  rw [split] at h
  cases hpos : a.idxOf? sep with
  | none => simp [hpos] at h
  | some pos =>
    rw [hpos, Option.some.injEq, Prod.mk.injEq] at h
    obtain ⟨hlt, -, hfirst⟩ := List.idxOf?_eq_some_iff.mp hpos
    rw [← h.1]
    intro hmem
    obtain ⟨j, hj, heq⟩ := List.mem_take_iff_getElem.mp hmem
    exact hfirst j (by omega) heq

/-- Joining is injective on the pairs whose first word avoids the delimiter. -/
theorem join_injective (ha : sep ∉ a) (hc : sep ∉ c) (h : join sep a b = join sep c d) :
    a = c ∧ b = d := by
  have hs := split_join b ha
  rw [h, split_join d hc] at hs
  simpa [eq_comm] using hs

end WolkGateway.DelimitedPairs
