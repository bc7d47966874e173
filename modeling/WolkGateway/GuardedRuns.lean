import Mathlib.Data.List.Basic

/-!
# Runs of a deterministic system

A run is the list of events it takes; the nondeterminism of an environment is in the
choice of events. An invariant of every step is an invariant of every run, also when the
steps are only preserved under a guard that each step of the run meets. Paths are runs
of a labelled relation, with the list of their labels.
-/

namespace WolkGateway.GuardedRuns

section Runs

variable {σ ε : Type*} (step : σ → ε → σ)

def run (s : σ) (es : List ε) : σ := es.foldl step s

@[simp] theorem run_nil (s : σ) : run step s [] = s := rfl

@[simp] theorem run_cons (s : σ) (e : ε) (es : List ε) :
    run step s (e :: es) = run step (step s e) es := rfl

theorem run_append (s : σ) (es fs : List ε) : run step s (es ++ fs) = run step (run step s es) fs :=
  List.foldl_append

/-- Every step of the run is taken from a state, and with an event, that meet the guard. -/
def Guarded (guard : σ → ε → Prop) : σ → List ε → Prop
  | _, [] => True
  | s, e :: es => guard s e ∧ Guarded guard (step s e) es

instance decidableGuarded {guard : σ → ε → Prop} [∀ s e, Decidable (guard s e)] :
    ∀ (s : σ) (es : List ε), Decidable (Guarded step guard s es)
  | _, [] => isTrue trivial
  | s, e :: es => @instDecidableAnd _ _ _ (decidableGuarded (step s e) es)

variable {step}

/-- The induction rule of guarded runs. -/
theorem invariant_of_guarded {guard : σ → ε → Prop} {I : σ → Prop}
    (hstep : ∀ s e, I s → guard s e → I (step s e)) {s : σ} {es : List ε}
    (h0 : I s) (hg : Guarded step guard s es) : I (run step s es) := by
  induction es generalizing s with
  | nil => exact h0
  | cons e es ih => exact ih (hstep s e h0 hg.1) hg.2

/-- A guarded run meets the guard before each of its steps. -/
theorem guarded_iff {guard : σ → ε → Prop} {s : σ} {es : List ε} :
    Guarded step guard s es ↔
      ∀ before e after, es = before ++ e :: after → guard (run step s before) e := by
  induction es generalizing s with
  | nil => simp [Guarded]
  | cons e es ih =>
    rw [Guarded, ih]
    constructor
    · rintro ⟨he, hrest⟩ before e' after heq
      cases before with
      | nil =>
        obtain ⟨rfl, -⟩ := List.cons.inj heq
        exact he
      | cons x before =>
        obtain ⟨rfl, htail⟩ := List.cons.inj heq
        exact hrest before e' after htail
    · intro h
      refine ⟨h [] e es rfl, fun before e' after heq => ?_⟩
      exact h (e :: before) e' after (by rw [heq, List.cons_append])

/-- Under an invariant, a guard may be replaced by one it implies there. -/
theorem Guarded.of_invariant {guard guard' : σ → ε → Prop} {I : σ → Prop}
    (hstep : ∀ s e, I s → guard s e → I (step s e))
    (himp : ∀ s e, I s → guard s e → guard' s e) {s : σ} {es : List ε} (h0 : I s)
    (hg : Guarded step guard s es) : Guarded step guard' s es := by
  induction es generalizing s with
  | nil => trivial
  | cons e es ih => exact ⟨himp s e h0 hg.1, ih (hstep s e h0 hg.1) hg.2⟩

/-- The induction rule of runs. -/
theorem invariant_of_step {I : σ → Prop} (hstep : ∀ s e, I s → I (step s e)) {s : σ}
    (h0 : I s) (es : List ε) : I (run step s es) := by
  induction es generalizing s with
  | nil => exact h0
  | cons e es ih => exact ih (hstep s e h0)

end Runs

section Paths

variable {σ ε : Type*}

/-- A run of a labelled relation, with the labels of its steps in order. -/
inductive Path (step : σ → ε → σ → Prop) : σ → List ε → σ → Prop
  | nil (s : σ) : Path step s [] s
  | cons {s t u : σ} {e : ε} {es : List ε} :
      step s e t → Path step t es u → Path step s (e :: es) u

variable {step : σ → ε → σ → Prop} {s t u : σ} {e : ε} {es fs : List ε}

theorem Path.single (h : step s e t) : Path step s [e] t := .cons h (.nil t)

theorem Path.trans (h : Path step s es t) (h' : Path step t fs u) : Path step s (es ++ fs) u := by
  induction h with
  | nil => exact h'
  | cons hs _ ih => exact .cons hs (ih h')

/-- The induction rule of paths. -/
theorem Path.invariant {I : σ → Prop} (hstep : ∀ s e t, I s → step s e t → I t)
    (h : Path step s es t) (h0 : I s) : I t := by
  induction h with
  | nil => exact h0
  | cons hs _ ih => exact ih (hstep _ _ _ h0 hs)

end Paths

end WolkGateway.GuardedRuns
