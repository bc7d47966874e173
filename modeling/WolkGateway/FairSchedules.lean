import WolkGateway.GuardedRuns
import Mathlib.Order.WellFounded
import Mathlib.Data.Prod.Lex

/-!
# Fair schedules

An infinite schedule picks one event after another. A system drains when every event that
acts either lowers the work that is left, in a well-founded order, or spends something. As
long as the spending is bounded, a schedule that comes back to every thread brings such a
system to rest, whatever the order of the threads.
-/

namespace WolkGateway.FairSchedules
open GuardedRuns

variable {σ ε α : Type*} {step : σ → ε → σ}

/-- The state after the first `n` events of a schedule. -/
def along (step : σ → ε → σ) (s : σ) (schedule : ℕ → ε) (n : ℕ) : σ :=
  run step s ((List.range n).map schedule)

@[simp] theorem along_zero (s : σ) (schedule : ℕ → ε) : along step s schedule 0 = s := rfl

theorem along_succ (s : σ) (schedule : ℕ → ε) (n : ℕ) :
    along step s schedule (n + 1) = step (along step s schedule n) (schedule n) := by
  rw [along, List.range_succ, List.map_append, run_append]
  rfl

theorem along_add (s : σ) (schedule : ℕ → ε) (n m : ℕ) :
    along step s schedule (n + m) =
      along step (along step s schedule n) (fun k => schedule (n + k)) m := by
  induction m with
  | zero => rfl
  | succ m ih => rw [← Nat.add_assoc, along_succ, along_succ, ih]

/-- Every thread acts again, however late. -/
def Fair (thread : ε → Prop) (schedule : ℕ → ε) : Prop :=
  ∀ e, thread e → ∀ n, ∃ m, n ≤ m ∧ schedule m = e

/-- A system with the work it has left, what it has spent, and the events that act in a
state; the others, of those considered, change none of this. -/
structure Draining (step : σ → ε → σ) (α : Type*) where
  considered : ε → Prop
  acts : σ → ε → Prop
  work : σ → α
  lower : α → α → Prop
  lower_wf : WellFounded lower
  spent : σ → ℕ
  lowers : ∀ s e, considered e → acts s e →
    spent s < spent (step s e) ∨
      (spent (step s e) = spent s ∧ lower (work (step s e)) (work s))
  idles : ∀ s e, considered e → ¬ acts s e →
    spent (step s e) = spent s ∧ work (step s e) = work s ∧
      ∀ e', acts (step s e) e' ↔ acts s e'

namespace Draining

variable (D : Draining step α)

/-- What can still be spent, and then the work that is left. -/
def measure (bound : ℕ) (s : σ) : ℕ × α := (bound - D.spent s, D.work s)

def Lower : ℕ × α → ℕ × α → Prop := Prod.Lex (· < ·) D.lower

theorem lower_wellFounded : WellFounded D.Lower :=
  WellFounded.prod_lex Nat.lt_wfRel.wf D.lower_wf

theorem measure_lower {bound : ℕ} {s : σ} {e : ε} (he : D.considered e) (ha : D.acts s e)
    (hb : D.spent (step s e) ≤ bound) :
    D.Lower (D.measure bound (step s e)) (D.measure bound s) := by
  rcases D.lowers s e he ha with hspent | ⟨hspent, hwork⟩
  · exact .left _ _ (by omega)
  · rw [measure, measure, hspent]
    exact .right _ hwork

theorem measure_idle (bound : ℕ) {s : σ} {e : ε} (he : D.considered e) (ha : ¬ D.acts s e) :
    D.measure bound (step s e) = D.measure bound s := by
  obtain ⟨hspent, hwork, -⟩ := D.idles s e he ha
  rw [measure, measure, hspent, hwork]

theorem spent_le_step {s : σ} {e : ε} (he : D.considered e) :
    D.spent s ≤ D.spent (step s e) := by
  by_cases ha : D.acts s e
  · rcases D.lowers s e he ha with hspent | ⟨hspent, -⟩ <;> omega
  · exact (D.idles s e he ha).1.ge

variable {schedule : ℕ → ε}

theorem spent_along_mono (hs : ∀ n, D.considered (schedule n)) (s : σ) {n m : ℕ} (h : n ≤ m) :
    D.spent (along step s schedule n) ≤ D.spent (along step s schedule m) := by
  induction h with
  | refl => exact Nat.le_refl _
  | step _ ih =>
    rw [along_succ]
    exact ih.trans (D.spent_le_step (hs _))

/-- Under a bound on the spending, a schedule comes to a point from which nothing acts when
its turn comes. -/
theorem settles (hs : ∀ n, D.considered (schedule n)) (s : σ) {bound : ℕ}
    (hb : ∀ n, D.spent (along step s schedule n) ≤ bound) :
    ∃ n, ∀ m, n ≤ m → ¬ D.acts (along step s schedule m) (schedule m) := by
  obtain ⟨_, ⟨n, rfl⟩, hmin⟩ := D.lower_wellFounded.has_min
    (Set.range fun n => D.measure bound (along step s schedule n)) ⟨_, 0, rfl⟩
  have least : ∀ m, D.measure bound (along step s schedule m) =
      D.measure bound (along step s schedule n) →
      ¬ D.acts (along step s schedule m) (schedule m) := by
    intro m hm ha
    apply hmin _ ⟨m + 1, rfl⟩
    have hb' := hb (m + 1)
    rw [along_succ] at hb'
    dsimp only
    rw [along_succ, ← hm]
    exact D.measure_lower (hs m) ha hb'
  have same : ∀ m, n ≤ m → D.measure bound (along step s schedule m) =
      D.measure bound (along step s schedule n) := by
    intro m hm
    induction hm with
    | refl => rfl
    | step _ ih => rw [along_succ, D.measure_idle bound (hs _) (least _ ih), ih]
  exact ⟨n, fun m hm => least m (same m hm)⟩

/-- From where nothing acts any more, the same events are ready to act. -/
theorem acts_along_iff (hs : ∀ n, D.considered (schedule n)) (s : σ) {n : ℕ}
    (hn : ∀ m, n ≤ m → ¬ D.acts (along step s schedule m) (schedule m)) {m : ℕ} (hm : n ≤ m)
    (e : ε) : D.acts (along step s schedule m) e ↔ D.acts (along step s schedule n) e := by
  induction hm with
  | refl => rfl
  | step hm ih =>
    rw [along_succ]
    exact ((D.idles _ _ (hs _) (hn _ hm)).2.2 e).trans ih

def Resting (s : σ) : Prop := ∀ e, D.considered e → ¬ D.acts s e

theorem resting_step {s : σ} (h : D.Resting s) {e : ε} (he : D.considered e) :
    D.Resting (step s e) := by
  intro e' he' ha
  exact h e' he' (((D.idles s e he (h e he)).2.2 e').mp ha)

theorem resting_along {s : σ} (h : D.Resting s) (hs : ∀ n, D.considered (schedule n)) (n : ℕ) :
    D.Resting (along step s schedule n) ∧
      D.spent (along step s schedule n) = D.spent s := by
  induction n with
  | zero => exact ⟨h, rfl⟩
  | succ n ih =>
    rw [along_succ]
    exact ⟨D.resting_step ih.1 (hs n), ((D.idles _ _ (hs n) (ih.1 _ (hs n))).1).trans ih.2⟩

/-- As long as the spending is bounded, a fair schedule brings the system to rest. -/
theorem rests {thread : ε → Prop} (hs : ∀ n, D.considered (schedule n))
    (hfair : Fair thread schedule) (hthread : ∀ s e, D.considered e → D.acts s e → thread e)
    (s : σ) {bound : ℕ} (hb : ∀ n, D.spent (along step s schedule n) ≤ bound) :
    ∃ n, D.Resting (along step s schedule n) := by
  obtain ⟨n, hn⟩ := D.settles hs s hb
  refine ⟨n, fun e he ha => ?_⟩
  obtain ⟨m, hm, rfl⟩ := hfair e (hthread _ e he ha) n
  exact hn m hm ((D.acts_along_iff hs s hn hm _).mpr ha)

end Draining

end WolkGateway.FairSchedules
