import WolkGateway.GuardedRuns

/-!
# Time in runs

Steps that take time, and a clock that shows how much of it has passed. What is seen at
the steps of a run is listed in the order of the steps, so what is seen later is seen at a
later time.
-/

namespace WolkGateway.TimedRuns
open GuardedRuns

variable {σ ε β : Type*} {step : σ → ε → σ}

section Clocks

variable (step) (duration : σ → ε → ℕ)

def elapsed : σ → List ε → ℕ
  | _, [] => 0
  | s, e :: es => duration s e + elapsed (step s e) es

variable {step duration} {clock : σ → ℕ} {s : σ} {es : List ε}

theorem clock_run (h : ∀ s e, clock (step s e) = clock s + duration s e) (s : σ) (es : List ε) :
    clock (run step s es) = clock s + elapsed step duration s es := by
  induction es generalizing s with
  | nil => rfl
  | cons e es ih => rw [run_cons, ih, h, elapsed, Nat.add_assoc]

theorem clock_le_run (h : ∀ s e, clock (step s e) = clock s + duration s e) (s : σ)
    (es : List ε) : clock s ≤ clock (run step s es) := by
  rw [clock_run h]
  exact Nat.le_add_right _ _

/-- A run takes no time when none of its steps does. -/
theorem elapsed_eq_zero_iff :
    elapsed step duration s es = 0 ↔ Guarded step (fun s e => duration s e = 0) s es := by
  induction es generalizing s with
  | nil => simp [elapsed, Guarded]
  | cons e es ih => rw [elapsed, Guarded, Nat.add_eq_zero_iff, ih]

end Clocks

section Sightings

variable (step) (sight : σ → ε → Option β)

/-- What is seen at the steps of a run. -/
def sightings : σ → List ε → List β
  | _, [] => []
  | s, e :: es => (sight s e).toList ++ sightings (step s e) es

variable {step sight} {s : σ} {es : List ε} {b : β}

theorem mem_sightings :
    b ∈ sightings step sight s es ↔
      ∃ before e after, es = before ++ e :: after ∧ sight (run step s before) e = some b := by
  induction es generalizing s with
  | nil => simp [sightings]
  | cons e es ih =>
    rw [sightings, List.mem_append, Option.mem_toList, ih]
    constructor
    · rintro (h | ⟨before, e', after, rfl, h⟩)
      · exact ⟨[], e, es, rfl, h⟩
      · exact ⟨e :: before, e', after, rfl, h⟩
    · rintro ⟨before, e', after, heq, h⟩
      cases before with
      | nil =>
        obtain ⟨rfl, rfl⟩ := List.cons.inj heq
        exact .inl h
      | cons x before =>
        obtain ⟨rfl, rfl⟩ := List.cons.inj heq
        exact .inr ⟨before, e', after, rfl, h⟩

/-- What holds between a sighting and every one that can follow it holds along the list. -/
theorem pairwise_sightings {R : β → β → Prop}
    (h : ∀ s e b es e' b', sight s e = some b → sight (run step (step s e) es) e' = some b' →
      R b b') (s : σ) (es : List ε) : (sightings step sight s es).Pairwise R := by
  induction es generalizing s with
  | nil => exact List.Pairwise.nil
  | cons e es ih =>
    rw [sightings, List.pairwise_append]
    refine ⟨?_, ih _, fun b hb b' hb' => ?_⟩
    · cases sight s e <;> simp
    · obtain ⟨before, e', after, -, hb'⟩ := mem_sightings.mp hb'
      exact h s e b before e' b' (Option.mem_toList.mp hb) hb'

end Sightings

end WolkGateway.TimedRuns
