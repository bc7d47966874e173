import Mathlib.Algebra.GroupWithZero.Nat
import WolkGateway.GuardedRuns

/-!
# Threads around a command buffer

One worker takes commands from a buffer in order; other threads are started at any time.
Each is at a program point, and a step of it does one access to what the threads share. A
law of such a system says that two counters agree, and it is local: it holds of every run
if each access, each command taken and each thread started changes both by the same amount.
-/

namespace WolkGateway.WorkerThreads
open GuardedRuns

/-- What an access does: the effects it has, the point after it, the commands it puts in
the buffer. -/
structure Done (π γ ε : Type) where
  effects : List ε
  next : Option π
  puts : List γ

/-- The program the threads run. The trace of effects stands for everything they share. -/
structure Program (π γ ε κ : Type) where
  /-- The first point of a command, if there is anything to do for it. -/
  begins : γ → List ε → Option π
  performs : π → List ε → Done π γ ε
  /-- A thread that starts on its own: what is seen of the start, and its first point. -/
  spawns : κ → ε × π
  /-- Effects of what is not part of the program. -/
  foreign : ε → Bool

structure Pool (π γ ε : Type) where
  trace : List ε
  queue : List γ
  worker : Option π
  threads : List π
  /-- The commands put in the buffer from outside. -/
  asked : List γ
  /-- The commands the worker took, each with the trace at that time. -/
  taken : List (γ × List ε)

def Pool.initial {π γ ε : Type} : Pool π γ ε := ⟨[], [], none, [], [], []⟩

inductive Event {π γ ε κ : Type} (program : Program π γ ε κ)
  | put (command : γ)
  | worker
  | spawn (start : κ)
  /-- The thread with this index goes on. -/
  | thread (index : ℕ)
  | elsewhere (effect : ε) (h : program.foreign effect = true)

variable {π γ ε κ : Type}

/-- The state after an access, but for the thread that made it. -/
def Pool.after (s : Pool π γ ε) (done : Done π γ ε) : Pool π γ ε :=
  { s with trace := s.trace ++ done.effects, queue := s.queue ++ done.puts }

def step (program : Program π γ ε κ) (s : Pool π γ ε) : Event program → Pool π γ ε
  | .put command => { s with queue := s.queue ++ [command], asked := s.asked ++ [command] }
  | .worker =>
    match s.worker with
    | some p =>
      let done := program.performs p s.trace
      { s.after done with worker := done.next }
    | none =>
      match s.queue with
      | [] => s
      | command :: queue =>
        { s with
          queue := queue
          worker := program.begins command s.trace
          taken := s.taken ++ [(command, s.trace)] }
  | .spawn start =>
    { s with
      trace := s.trace ++ [(program.spawns start).1]
      threads := s.threads ++ [(program.spawns start).2] }
  | .thread index =>
    match s.threads[index]? with
    | none => s
    | some p =>
      let done := program.performs p s.trace
      { s.after done with threads := s.threads.eraseIdx index ++ done.next.toList }
  | .elsewhere effect _ => { s with trace := s.trace ++ [effect] }

/-- What a counter counts of each part of the state. -/
structure Counter (π γ ε : Type) where
  effect : ε → Bool := fun _ => false
  point : π → Bool := fun _ => false
  command : γ → Bool := fun _ => false
  asked : γ → Bool := fun _ => false
  taken : γ × List ε → Bool := fun _ => false

def Counter.value (c : Counter π γ ε) (s : Pool π γ ε) : ℕ :=
  s.trace.countP c.effect + s.worker.toList.countP c.point + s.threads.countP c.point +
    s.queue.countP c.command + s.asked.countP c.asked + s.taken.countP c.taken

def Counter.done (c : Counter π γ ε) (done : Done π γ ε) : ℕ :=
  done.effects.countP c.effect + done.next.toList.countP c.point + done.puts.countP c.command

/-- Whatever happens once changes both counters by the same amount. -/
structure Balanced (program : Program π γ ε κ) (c c' : Counter π γ ε) : Prop where
  performs : ∀ p trace, c.done (program.performs p trace) + [p].countP c'.point =
    c'.done (program.performs p trace) + [p].countP c.point
  begins : ∀ command trace, (program.begins command trace).toList.countP c.point +
      [(command, trace)].countP c.taken + [command].countP c'.command =
    (program.begins command trace).toList.countP c'.point +
      [(command, trace)].countP c'.taken + [command].countP c.command
  put : ∀ command, [command].countP c.command + [command].countP c.asked =
    [command].countP c'.command + [command].countP c'.asked
  spawns : ∀ start, [(program.spawns start).1].countP c.effect +
      [(program.spawns start).2].countP c.point =
    [(program.spawns start).1].countP c'.effect + [(program.spawns start).2].countP c'.point
  elsewhere : ∀ effect, program.foreign effect = true →
    [effect].countP c.effect = [effect].countP c'.effect

theorem countP_eraseIdx (p : π → Bool) {l : List π} {i : ℕ} {x : π} (h : l[i]? = some x) :
    (l.eraseIdx i).countP p + [x].countP p = l.countP p := by
  induction l generalizing i with
  | nil => simp at h
  | cons y l ih =>
    cases i with
    | zero =>
      rw [List.getElem?_cons_zero, Option.some.injEq] at h
      rw [h, List.eraseIdx_cons_zero, ← List.singleton_append (l := l), List.countP_append]
      omega
    | succ i =>
      rw [List.getElem?_cons_succ] at h
      have hrest := ih h
      rw [List.eraseIdx_cons_succ, ← List.singleton_append (l := l.eraseIdx i),
        ← List.singleton_append (l := l), List.countP_append, List.countP_append]
      omega

theorem balanced_step {program : Program π γ ε κ} {c c' : Counter π γ ε}
    (h : Balanced program c c') (s : Pool π γ ε) (e : Event program) (hs : c.value s = c'.value s) :
    c.value (step program s e) = c'.value (step program s e) := by
  unfold Counter.value at hs ⊢
  cases e with
  | put command =>
    have hput := h.put command
    simp only [step, List.countP_append]
    omega
  | worker =>
    simp only [step]
    cases hw : s.worker with
    | some p =>
      have hperforms := h.performs p s.trace
      rw [hw] at hs
      simp only [Counter.done, Option.toList_some] at hperforms hs
      simp only [Pool.after, List.countP_append]
      omega
    | none =>
      rw [hw] at hs
      cases hq : s.queue with
      | nil =>
        rw [hq] at hs
        simpa [hw, hq] using hs
      | cons command queue =>
        have hbegins := h.begins command s.trace
        rw [hq, ← List.singleton_append, List.countP_append, List.countP_append] at hs
        simp only [Option.toList_none, List.countP_nil] at hs
        simp only [List.countP_append]
        omega
  | spawn start =>
    have hspawns := h.spawns start
    simp only [step, List.countP_append]
    omega
  | thread index =>
    simp only [step]
    cases ht : s.threads[index]? with
    | none => exact hs
    | some p =>
      have hperforms := h.performs p s.trace
      have herase := countP_eraseIdx c.point ht
      have herase' := countP_eraseIdx c'.point ht
      simp only [Counter.done] at hperforms
      simp only [Pool.after, List.countP_append]
      omega
  | elsewhere effect he =>
    have helsewhere := h.elsewhere effect he
    simp only [step, List.countP_append]
    omega

theorem balanced_run {program : Program π γ ε κ} {c c' : Counter π γ ε}
    (h : Balanced program c c') {s : Pool π γ ε} (hs : c.value s = c'.value s)
    (events : List (Event program)) :
    c.value (run (step program) s events) = c'.value (run (step program) s events) :=
  invariant_of_step (I := fun s => c.value s = c'.value s) (balanced_step h) hs events

structure Pool.AtRest (s : Pool π γ ε) : Prop where
  worker : s.worker = none
  threads : s.threads = []
  queue : s.queue = []

/-- Each access and each command taken leaves less work, by these ranks. -/
structure Terminating (program : Program π γ ε κ) (rank : π → ℕ) (cost : γ → ℕ) : Prop where
  performs : ∀ p trace, ((program.performs p trace).next.toList.map rank).sum +
    ((program.performs p trace).puts.map cost).sum < rank p
  begins : ∀ command trace,
    ((program.begins command trace).toList.map rank).sum < cost command

def Pool.work (rank : π → ℕ) (cost : γ → ℕ) (s : Pool π γ ε) : ℕ :=
  (s.worker.toList.map rank).sum + (s.threads.map rank).sum + (s.queue.map cost).sum

def Event.goesOn {program : Program π γ ε κ} : Event program → Bool
  | .worker | .thread _ => true
  | _ => false

/-- While something is left to do, a step leaves less. -/
theorem work_decreases {program : Program π γ ε κ} {rank : π → ℕ} {cost : γ → ℕ}
    (h : Terminating program rank cost) (s : Pool π γ ε) :
    s.AtRest ∨ ∃ e : Event program, e.goesOn = true ∧
      (step program s e).work rank cost < s.work rank cost := by
  cases hw : s.worker with
  | some p =>
    right
    refine ⟨.worker, rfl, ?_⟩
    have hperforms := h.performs p s.trace
    simp only [step, hw, Pool.work, Pool.after, Option.toList_some, List.map_append,
      List.sum_append, List.map_singleton, List.sum_singleton]
    omega
  | none =>
    cases ht : s.threads with
    | cons p threads =>
      right
      refine ⟨.thread 0, rfl, ?_⟩
      have hperforms := h.performs p s.trace
      simp only [step, hw, ht, List.getElem?_cons_zero, Pool.work, Pool.after,
        List.eraseIdx_cons_zero, List.map_append, List.sum_append, List.map_cons, List.sum_cons]
      omega
    | nil =>
      cases hq : s.queue with
      | cons command queue =>
        right
        refine ⟨.worker, rfl, ?_⟩
        have hbegins := h.begins command s.trace
        simp only [step, hw, ht, hq, Pool.work, List.map_cons, List.sum_cons, Option.toList_none,
          List.map_nil, List.sum_nil]
        omega
      | nil => exact .inl ⟨hw, ht, hq⟩

/-- From every state the worker and the threads can come to rest on their own. -/
theorem comes_to_rest {program : Program π γ ε κ} {rank : π → ℕ} {cost : γ → ℕ}
    (h : Terminating program rank cost) (s : Pool π γ ε) :
    ∃ events : List (Event program), (∀ e ∈ events, e.goesOn = true) ∧
      (run (step program) s events).AtRest := by
  induction hn : s.work rank cost using Nat.strongRecOn generalizing s with
  | _ n ih =>
    rcases work_decreases h s with hrest | ⟨e, he, hlt⟩
    · exact ⟨[], fun e he => absurd he List.not_mem_nil, hrest⟩
    · obtain ⟨events, hevents, hrest⟩ := ih _ (by rwa [← hn]) (step program s e) rfl
      refine ⟨e :: events, fun x hx => ?_, hrest⟩
      rcases List.mem_cons.mp hx with rfl | hx
      · exact he
      · exact hevents x hx

end WolkGateway.WorkerThreads
