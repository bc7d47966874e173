import WolkGateway.WorkerProgress

/-!
# The history of the command buffer

The commands that have started, and then those that wait, are all the commands ever put in
the buffer, in the order they were put there. So the command in a given place of this
history is the one to start in that place, and the worker, left alone, comes to start it.
-/

namespace WolkGateway.Wolk
open DeviceModel DataService GuardedRuns Transcripts

variable {P : Persistence} {cfg : Config} {s t : State P}

/-- Every command ever put in the buffer, in that order. -/
def history (s : State P) : List Command := (started s.trace).map Prod.fst ++ s.queue

theorem history_idle {u : Trace} (ht : t.trace = s.trace ++ u) (hu : StartsNone u)
    {more : List Command} (hq : t.queue = s.queue ++ more) : history t = history s ++ more := by
  rw [history, ht, started_startsNone hu, hq, ← List.append_assoc]
  rfl

/-- A step puts commands behind those of the history, and takes none away. -/
theorem history_step (cfg : Config) (s : State P) (e : Event) :
    history s <+: history (step cfg s e) := by
  rcases stepped cfg s e with ⟨c, -, -, hq, hd, -⟩ | ⟨c, queue, rfl, -, hq, ht⟩ |
    ⟨a, rest, rfl, -, ht⟩ | ⟨rfl, ht⟩ | ⟨-, -, hq, hm⟩
  · rw [history_idle (u := []) (by simp [State.trace, hd]) (by simp [StartsNone]) hq]
    exact List.prefix_append _ _
  · rw [ht, history, history, started_begun, hq, List.map_append, List.append_assoc]
    exact List.prefix_rfl
  · obtain ⟨u, hu, hall⟩ := (runAtom_moves cfg a { s with running := rest }).trace_eq
    rw [ht, history_idle (s := s) hu (startsNone_of_accesses hall) (runAtom_queue a _)]
    exact List.prefix_append _ _
  · have hlost : history (step cfg s .connectionLost) = history s ++ [] :=
      history_idle (u := [.connectionLost]) rfl (by simp [StartsNone, start])
        (s.queue.append_nil).symm
    exact ⟨[], hlost.symm⟩
  · obtain ⟨u, hu, hall⟩ := hm.trace_eq
    have haside : history (step cfg s e) = history s ++ [] :=
      history_idle hu (startsNone_of_aside hall) (by simp [hq])
    exact ⟨[], haside.symm⟩

theorem history_run (cfg : Config) (s : State P) (events : List Event) :
    history s <+: history (run (step cfg) s events) := by
  induction events generalizing s with
  | nil => exact List.prefix_rfl
  | cons e events ih => exact (history_step cfg s e).trans (ih _)

theorem history_enqueue {c : Command} {rest : List Atom} (hr : s.running = .enqueue c :: rest) :
    history (step cfg s .worker) = history s ++ [c] := by
  rw [step_accesses hr]
  exact history_idle (u := []) (by simp [runAtom, addToCommandBuffer, State.trace])
    (by simp [StartsNone]) (runAtom_queue _ _)

/-- When as many commands have started as there once were, those are the ones. -/
theorem started_eq_history (h : history s <+: history t)
    (hn : (started t.trace).length = (history s).length) :
    (started t.trace).map Prod.fst = history s := by
  have htake := List.prefix_iff_eq_take.mp h
  rw [← hn] at htake
  rw [htake, history, List.take_left' (List.length_map _)]

theorem queue_of_turn {c : Command} (h : history s ++ [c] <+: history t)
    (hn : (started t.trace).length = (history s).length) : ∃ queue, t.queue = c :: queue := by
  have hstarted := started_eq_history ((List.prefix_append _ _).trans h) hn
  have hnow : history t = history s ++ t.queue := by rw [history, hstarted]
  obtain ⟨queue, hqueue⟩ := h
  rw [hnow, List.append_assoc] at hqueue
  exact ⟨queue, (List.append_cancel_left hqueue).symm⟩

theorem mem_queue_of_turn {c : Command} (h : history s ++ [c] <+: history t)
    (hn : (started t.trace).length ≤ (history s).length) : c ∈ t.queue := by
  obtain ⟨more, hmore⟩ := h
  have hget : (history t)[(history s).length]? = some c := by
    rw [← hmore, List.append_assoc, List.getElem?_append_right (Nat.le_refl _), Nat.sub_self]
    rfl
  rw [history, List.getElem?_append_right (by rwa [List.length_map])] at hget
  exact List.mem_of_getElem? hget

/-- A command that starts in a run starts in a step of the worker, in its turn. -/
theorem turn_of_started (cfg : Config) (s : State P) (events : List Event) {n : ℕ}
    (hle : (started s.trace).length ≤ n)
    (hlt : n < (started (run (step cfg) s events).trace).length) :
    ∃ before after, events = before ++ Event.worker :: after ∧
      (run (step cfg) s before).running = [] ∧ (run (step cfg) s before).queue ≠ [] ∧
      (started (run (step cfg) s before).trace).length = n := by
  induction events generalizing s with
  | nil => exact absurd hlt (Nat.not_lt.mpr hle)
  | cons e events ih =>
    have hnext : (started (step cfg s e).trace).length ≤ n →
        ∃ before after, e :: events = before ++ Event.worker :: after ∧
          (run (step cfg) s before).running = [] ∧ (run (step cfg) s before).queue ≠ [] ∧
          (started (run (step cfg) s before).trace).length = n := by
      intro hle'
      obtain ⟨before, after, rfl, hturn⟩ := ih (step cfg s e) hle' hlt
      exact ⟨e :: before, after, rfl, hturn⟩
    rcases step_starts cfg s e with ⟨c, queue, u, rfl, hr, hq, -, -, ht⟩ | ⟨u, hu, hnone⟩
    · rcases Nat.eq_or_lt_of_le hle with hn | hlt'
      · exact ⟨[], events, rfl, hr, by simp [hq], hn⟩
      · apply hnext
        rw [ht, started_begun, List.length_append]
        exact hlt'
    · apply hnext
      rwa [hu, started_startsNone hnone]

/-- The command in a given place, as it started. -/
theorem split_of_history {trace : Trace} {commands : List Command}
    (h : (started trace).map Prod.fst = commands) {n : ℕ} {c : Command}
    (hc : commands[n]? = some c) :
    ∃ before devices after, trace = before ++ Effect.began c devices :: after ∧
      (started before).length = n := by
  rw [← h, List.getElem?_map, Option.map_eq_some_iff] at hc
  obtain ⟨⟨_, devices⟩, hget, rfl⟩ := hc
  obtain ⟨before, e, after, rfl, he, hn⟩ := split_of_filterMap hget
  refine ⟨before, devices, after, ?_, hn⟩
  cases e with
  | began c' devices' =>
    obtain ⟨rfl, rfl⟩ := Prod.mk.inj (Option.some.inj he)
    rfl
  | _ => cases he

theorem history_work (cfg : Config) (n : ℕ) (s : State P) :
    history s <+: history (work cfg n s) := history_run cfg s _

theorem work_idles (cfg : Config) (s : State P) :
    ∃ n, (work cfg n s).running = [] ∧
      started (work cfg n s).trace = started s.trace := by
  obtain ⟨n, hn, -, u, hu, hall⟩ := work_drains cfg s
  refine ⟨n, hn, ?_⟩
  rw [hu]
  refine started_startsNone fun e he => ?_
  obtain ⟨a, ha⟩ := hall e he
  cases ha <;> rfl

/-- The worker comes to the command in any place of the history. -/
theorem work_comes_to (cfg : Config) {n : ℕ} (s : State P)
    (h : (started s.trace).length ≤ n) (hn : n < (history s).length) :
    ∃ m, (work cfg m s).running = [] ∧ (started (work cfg m s).trace).length = n := by
  induction hk : n - (started s.trace).length generalizing s with
  | zero =>
    obtain ⟨m, hr, hstart⟩ := work_idles cfg s
    refine ⟨m, hr, ?_⟩
    rw [hstart]
    omega
  | succ k ih =>
    obtain ⟨m, hr, hstart⟩ := work_idles cfg s
    have hlong : n < (history (work cfg m s)).length :=
      Nat.lt_of_lt_of_le hn (history_work cfg m s).length_le
    obtain ⟨c, queue, hq⟩ : ∃ c queue, (work cfg m s).queue = c :: queue := by
      cases hq : (work cfg m s).queue with
      | nil =>
        rw [history, hq, List.append_nil, List.length_map, hstart] at hlong
        omega
      | cons c queue => exact ⟨c, queue, rfl⟩
    have hbegins : step cfg (work cfg m s) .worker = beginCommand cfg c queue (work cfg m s) :=
      step_begins hr hq
    have hcount : (started (step cfg (work cfg m s) .worker).trace).length =
        (started s.trace).length + 1 := by
      rw [hbegins, started_begun, hstart, List.length_append]
      rfl
    obtain ⟨j, hj, hplace⟩ := ih (step cfg (work cfg m s) .worker) (by omega)
      (Nat.lt_of_lt_of_le hlong (history_step cfg _ _).length_le) (by omega)
    have hwork : work cfg (m + (j + 1)) s = work cfg j (step cfg (work cfg m s) .worker) := by
      rw [work_add, work_succ]
    exact ⟨m + (j + 1), by rwa [hwork], by rwa [hwork]⟩

end WolkGateway.Wolk
