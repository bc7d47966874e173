import WolkGateway.WolkStepCases

/-!
# Progress of the worker

A worker left alone finishes the command it is executing and reaches every command that
waits in the buffer, in the order they were put there.
-/

namespace WolkGateway.Wolk
open DeviceModel DataService GuardedRuns

variable {P : Persistence} {cfg : Config}

def work (cfg : Config) (n : ℕ) (s : State P) : State P :=
  run (step cfg) s (List.replicate n .worker)

@[simp] theorem work_zero (s : State P) : work cfg 0 s = s := rfl

theorem work_succ (n : ℕ) (s : State P) :
    work cfg (n + 1) s = work cfg n (step cfg s .worker) := rfl

theorem work_add (n m : ℕ) (s : State P) : work cfg (n + m) s = work cfg m (work cfg n s) := by
  rw [work, List.replicate_add, run_append]
  rfl

/-- How many steps an access can take; the checks of the flag lead to two more. -/
def Atom.weight : Atom → ℕ
  | .registerIfConnected _ | .updateIfConnected _ => 3
  | _ => 1

def weight : List Atom → ℕ
  | [] => 0
  | a :: rest => a.weight + weight rest

theorem weight_expands_lt (a : Atom) (connected : Bool) (rest : List Atom) :
    weight (a.expands connected ++ rest) < weight (a :: rest) := by
  cases a <;> cases connected <;> simp [Atom.expands, weight, Atom.weight] <;> omega

/-- The worker finishes the command it is executing, and starts no other on the way. -/
theorem work_drains (cfg : Config) (s : State P) :
    ∃ n, (work cfg n s).running = [] ∧ s.queue <+: (work cfg n s).queue ∧
      ∃ u, (work cfg n s).trace = s.trace ++ u ∧ ∀ e ∈ u, ∃ a, Accesses a e := by
  induction hw : weight s.running using Nat.strong_induction_on generalizing s with
  | _ w ih =>
    cases hr : s.running with
    | nil => exact ⟨0, hr, List.prefix_rfl, [], by simp, by simp⟩
    | cons a rest =>
      have hs : step cfg s .worker = runAtom cfg a { s with running := rest } := step_accesses hr
      have hrun : (step cfg s .worker).running = a.expands s.connected ++ rest := by
        rw [hs, runAtom_running]
      have hlt : weight (step cfg s .worker).running < w := by
        rw [hrun, ← hw, hr]
        exact weight_expands_lt _ _ _
      obtain ⟨u, hu, hall⟩ := (runAtom_moves cfg a { s with running := rest }).trace_eq
      obtain ⟨n, hn, hq, v, hv, hall'⟩ := ih _ hlt (step cfg s .worker) rfl
      refine ⟨n + 1, by rwa [work_succ], ?_, u ++ v, ?_, fun e he => ?_⟩
      · rw [work_succ]
        refine List.IsPrefix.trans ?_ hq
        rw [hs, runAtom_queue]
        exact List.prefix_append _ _
      · have htrace : (step cfg s .worker).trace = s.trace ++ u := by
          rw [hs]
          exact hu
        rw [work_succ, hv, htrace, List.append_assoc]
      · rcases List.mem_append.mp he with he | he
        · exact ⟨a, hall e he⟩
        · exact hall' e he

/-- The worker reaches every waiting command. -/
theorem work_reaches (cfg : Config) {c : Command} (s : State P) (h : c ∈ s.queue) :
    ∃ n queue, (work cfg n s).running = [] ∧ (work cfg n s).queue = c :: queue := by
  obtain ⟨before, after, hq⟩ := List.append_of_mem h
  clear h
  induction before generalizing s after with
  | nil =>
    obtain ⟨n, hn, ⟨more, hmore⟩, -⟩ := work_drains cfg s
    exact ⟨n, after ++ more, hn, by rw [← hmore, hq]; rfl⟩
  | cons c' before ih =>
    obtain ⟨n, hn, ⟨more, hmore⟩, -⟩ := work_drains cfg s
    have hq' : (work cfg n s).queue = c' :: (before ++ c :: (after ++ more)) := by
      rw [← hmore, hq]
      simp
    have hs : step cfg (work cfg n s) .worker =
        beginCommand cfg c' (before ++ c :: (after ++ more)) (work cfg n s) := step_begins hn hq'
    obtain ⟨m, queue, hm, hmq⟩ := ih (step cfg (work cfg n s) .worker) (after ++ more)
      (by rw [hs]; rfl)
    have hwork : work cfg (n + (m + 1)) s = work cfg m (step cfg (work cfg n s) .worker) := by
      rw [work_add, work_succ]
    exact ⟨n + (m + 1), queue, by rwa [hwork], by rwa [hwork]⟩

theorem run_trace (cfg : Config) (s : State P) (events : List Event) :
    s.trace <+: (run (step cfg) s events).trace := by
  induction events generalizing s with
  | nil => exact List.prefix_rfl
  | cons e events ih =>
    obtain ⟨u, hu, -⟩ := step_trace cfg s e
    exact List.IsPrefix.trans ⟨u, hu.symm⟩ (ih _)

theorem run_cons_trace {s : State P} {e : Event} {events : List Event} {u : Trace}
    (hu : (run (step cfg) s (e :: events)).trace = s.trace ++ u) :
    ∃ v w, u = v ++ w ∧ (step cfg s e).trace = s.trace ++ v ∧
      (run (step cfg) (step cfg s e) events).trace = (step cfg s e).trace ++ w := by
  obtain ⟨v, hv, -⟩ := step_trace cfg s e
  obtain ⟨w, hw⟩ := run_trace cfg (step cfg s e) events
  have huvw : s.trace ++ u = s.trace ++ (v ++ w) := by
    rw [← hu, run_cons, ← hw, hv, List.append_assoc]
  exact ⟨v, w, List.append_cancel_left huvw, hv, hw.symm⟩

end WolkGateway.Wolk
