import WolkGateway.WorkerProgress

/-!
# The finality of disconnect

A connect that fails puts itself behind whatever waits in the buffer, a disconnect
included. A disconnect is final exactly when no connect waits as it is executed and no
connection-lost handler is about to put one there.
-/

namespace WolkGateway.Wolk
open DeviceModel DataService DataLedger GuardedRuns

variable {P : Persistence} {cfg : Config} {s : State P}

/-- The worker has taken the disconnect command and is about to clear the flag. -/
def Disconnecting (s : State P) : Prop := s.running = [.setConnected false, .serviceDisconnect]

instance (s : State P) : Decidable (Disconnecting s) := inferInstanceAs (Decidable (_ = _))

/-- The user does not connect, and the connection is not lost. -/
def Calm (e : Event) : Prop := (∀ b, e ≠ .api (.connect b)) ∧ e ≠ .connectionLost

instance (e : Event) : Decidable (Calm e) := inferInstanceAs (Decidable (_ ∧ _))

/-- From the execution of the disconnect on, and as long as events are calm, the module
stays disconnected and never calls `ConnectivityService::connect`. -/
def Final (cfg : Config) (s : State P) : Prop :=
  ∀ events, (∀ e ∈ events, Calm e) →
    let t := run (step cfg) (step cfg s .worker) events
    t.connected = false ∧ ∀ u, t.trace = s.trace ++ u → ∀ result, .connectCalled result ∉ u

def NoConnectWaiting (s : State P) : Prop := (∀ b, .connect b ∉ s.queue) ∧ s.lostHandlers = 0

structure StaysDisconnected (before : Trace) (t : State P) : Prop where
  connected : t.connected = false
  waiting : NoConnectWaiting t
  running : ∀ a ∈ t.running, a ≠ .setConnected true ∧ ∀ b, a ≠ .enqueue (.connect b)
  trace : ∃ u, t.trace = before ++ u ∧ ∀ result, .connectCalled result ∉ u

theorem lostHandlers_le (s : State P) {e : Event} (he : e ≠ .connectionLost) :
    (step cfg s e).lostHandlers ≤ s.lostHandlers := by
  cases e with
  | connectionLost => exact absurd rfl he
  | api call =>
    simp only [step]
    cases call.command s.clock <;> exact le_rfl
  | worker =>
    simp only [step, workerStep]
    split
    · rename_i a rest hr
      cases a <;> simp only [runAtom]
      all_goals first
        | exact le_rfl
        | (split <;> exact le_rfl)
    · split <;> exact le_rfl
  | connectionLostConnects =>
    simp only [step]
    split
    · exact le_rfl
    · rename_i n hn
      rw [hn]
      exact Nat.le_succ n
  | inboundWorker =>
    simp only [step]
    split
    · exact le_rfl
    · rename_i listener message _ _
      cases listener <;> simp only [deliver]
      all_goals
        first
          | (split <;> exact le_rfl)
          | (unfold enqueueAll; split <;> exact le_rfl)
  | inbound | firmwareWorker | platformStatusWorker =>
    simp only [step]
    split <;> exact le_rfl
  | installCallback | tick => exact le_rfl

theorem connectCalled_of_emits {e : Event} {result : Bool}
    (h : Emits s e (.connectCalled result)) : ∃ b queue, s.queue = .connect b :: queue := by
  cases h with
  | command c queue _ hr hq h =>
    cases h with
    | connectCalled b => exact ⟨b, queue, hq⟩
  | access _ _ _ _ h => cases h
  | aside _ _ h => cases h

/-- Only a connect leads to another connect, or sets the flag. -/
theorem connects_of_leaves {devices : Registry} {c : Command} {a : Atom}
    (h : Leaves devices c a) (hc : ∀ b, c ≠ .connect b) :
    a ≠ .setConnected true ∧ ∀ b, a ≠ .enqueue (.connect b) := by
  constructor
  · rintro rfl
    cases h with
    | setConnected b => exact hc b rfl
  · rintro b rfl
    cases h with
    | retry b => exact hc b rfl
    | refresh key _ _ h => cases h
    | acknowledged d _ _ _ h _ =>
      rcases h with h | h
      · cases h
      · cases h

theorem StaysDisconnected.trace_step {before : Trace} {t : State P}
    (h : StaysDisconnected before t) (cfg : Config) (e : Event) :
    ∃ u, (step cfg t e).trace = before ++ u ∧ ∀ result, .connectCalled result ∉ u := by
  obtain ⟨u, hu, hno⟩ := h.trace
  obtain ⟨v, hv, hall⟩ := step_trace cfg t e
  refine ⟨u ++ v, by rw [hv, hu, List.append_assoc], fun result hmem => ?_⟩
  rcases List.mem_append.mp hmem with hmem | hmem
  · exact hno result hmem
  · obtain ⟨b, queue, hq⟩ := connectCalled_of_emits (hall _ hmem)
    apply h.waiting.1 b
    rw [hq]
    exact List.mem_cons_self

theorem staysDisconnected_step {before : Trace} (t : State P) (e : Event) (he : Calm e)
    (h : StaysDisconnected before t) : StaysDisconnected before (step cfg t e) := by
  have htrace := h.trace_step cfg e
  have hlost : (step cfg t e).lostHandlers = 0 := by
    have hle : (step cfg t e).lostHandlers ≤ t.lostHandlers := lostHandlers_le t he.2
    have hnone : t.lostHandlers = 0 := h.waiting.2
    omega
  rcases stepped cfg t e with ⟨c, hc, hsame, hq, -, -⟩ | ⟨c, queue, rfl, hr, hq, ht⟩ |
    ⟨a, rest, rfl, hr, ht⟩ | ⟨rfl, -⟩ | ⟨-, hsame, hq, -⟩
  · refine ⟨hsame.connected.trans h.connected, ⟨fun b hmem => ?_, hlost⟩, ?_, htrace⟩
    · rw [hq, List.mem_append, List.mem_singleton] at hmem
      rcases hmem with hmem | rfl
      · exact h.waiting.1 b hmem
      · rcases requested_connect hc with rfl | ⟨-, hn⟩
        · exact he.1 b rfl
        · exact hn h.waiting.2
    · rw [hsame.running]
      exact h.running
  · refine ⟨by rw [ht]; exact h.connected, ⟨fun b hmem => ?_, hlost⟩, ?_, htrace⟩
    · rw [ht] at hmem
      apply h.waiting.1 b
      rw [hq]
      exact List.mem_cons_of_mem _ hmem
    · rw [ht]
      intro a ha
      have hc : ∀ b, c ≠ .connect b := by
        rintro b rfl
        apply h.waiting.1 b
        rw [hq]
        exact List.mem_cons_self
      exact connects_of_leaves (leaves_of_mem ha) hc
  · have hrunning := h.running
    rw [hr, List.forall_mem_cons] at hrunning
    obtain ⟨hhead, hrest⟩ := hrunning
    refine ⟨?_, ⟨fun b hmem => ?_, hlost⟩, fun a' ha' => ?_, htrace⟩
    · rw [ht, runAtom_connected]
      cases a with
      | setConnected value =>
        cases value with
        | true => exact absurd rfl hhead.1
        | false => rfl
      | _ => exact h.connected
    · rw [ht, runAtom_queue, List.mem_append] at hmem
      rcases hmem with hmem | hmem
      · exact h.waiting.1 b hmem
      · cases a with
        | enqueue c =>
          exact hhead.2 b (congrArg Atom.enqueue (List.mem_singleton.mp hmem).symm)
        | _ => simp [Atom.enqueues] at hmem
    · rw [ht, runAtom_running, List.mem_append] at ha'
      rcases ha' with ha' | ha'
      · cases a with
        | registerIfConnected | updateIfConnected => simp [Atom.expands, h.connected] at ha'
        | _ => simp [Atom.expands] at ha'
      · exact hrest a' ha'
  · exact absurd rfl he.2
  · refine ⟨hsame.connected.trans h.connected, ⟨by rw [hq]; exact h.waiting.1, hlost⟩, ?_, htrace⟩
    rw [hsame.running]
    exact h.running

theorem step_disconnecting (hd : Disconnecting s) :
    step cfg s .worker = { s with connected := false, running := [.serviceDisconnect] } := by
  rw [step_accesses hd]
  rfl

theorem final_of_noConnectWaiting (hd : Disconnecting s) (h : NoConnectWaiting s) :
    Final cfg s := by
  intro events hcalm
  have h0 : StaysDisconnected s.trace (step cfg s .worker) := by
    rw [step_disconnecting hd]
    exact ⟨rfl, h, by simp, [], by simp [State.trace], by simp⟩
  have hinv : StaysDisconnected s.trace (run (step cfg) (step cfg s .worker) events) := by
    generalize step cfg s .worker = t at h0
    induction events generalizing t with
    | nil => exact h0
    | cons e events ih =>
      exact ih (fun x hx => hcalm x (List.mem_cons_of_mem _ hx)) _
        (staysDisconnected_step t e (hcalm e List.mem_cons_self) h0)
  refine ⟨hinv.connected, fun u hu result => ?_⟩
  obtain ⟨v, hv, hno⟩ := hinv.trace
  rw [List.append_cancel_left (hu.symm.trans hv)]
  exact hno result

/-- A connect that waits is executed when the worker gets to it. -/
theorem not_final_of_waiting {b : Bool} (events : List Event) (hcalm : ∀ e ∈ events, Calm e)
    (h : .connect b ∈ (run (step cfg) (step cfg s .worker) events).queue) : ¬ Final cfg s := by
  intro hfinal
  set t := run (step cfg) (step cfg s .worker) events with ht
  obtain ⟨n, queue, hr, hq⟩ := work_reaches cfg t h
  have hcalm' : ∀ e ∈ events ++ List.replicate (n + 1) Event.worker, Calm e := by
    intro e he
    rcases List.mem_append.mp he with he | he
    · exact hcalm e he
    · rw [List.eq_of_mem_replicate he]
      exact ⟨by simp, by simp⟩
  have hrun : run (step cfg) (step cfg s .worker)
      (events ++ List.replicate (n + 1) Event.worker) = step cfg (work cfg n t) .worker := by
    rw [run_append, ← ht, List.replicate_succ', run_append]
    rfl
  obtain ⟨result, htrace⟩ : ∃ result, (step cfg (work cfg n t) .worker).trace =
      (work cfg n t).trace ++
        [Effect.began (.connect b) (work cfg n t).devices, .connectCalled result] := by
    simp [step_begins hr hq, beginCommand, execute, State.trace, DataState.log]
  obtain ⟨u, hu⟩ : s.trace <+: (work cfg n t).trace := by
    have hprefix := run_trace cfg s (.worker :: (events ++ List.replicate n Event.worker))
    rwa [run_cons, run_append] at hprefix
  refine (hfinal _ hcalm').2
    (u ++ [Effect.began (.connect b) (work cfg n t).devices, .connectCalled result]) ?_ result
    (by simp)
  rw [hrun, htrace, ← hu, List.append_assoc]

/-- A disconnect is final if and only if, as it is executed, no connect waits behind it
and no connection-lost handler is about to call `connect`. -/
theorem disconnect_final_iff (P : Persistence) (cfg : Config) (events : List Event)
    (hd : Disconnecting (reach cfg P events)) :
    Final cfg (reach cfg P events) ↔ NoConnectWaiting (reach cfg P events) := by
  set s := reach cfg P events
  have hs : step cfg s .worker = _ := step_disconnecting hd
  refine ⟨fun hfinal => ⟨fun b hmem => ?_, ?_⟩, final_of_noConnectWaiting hd⟩
  · exact not_final_of_waiting (b := b) [] (by simp) (by rwa [run_nil, hs]) hfinal
  · by_contra hlost
    obtain ⟨n, hn⟩ := Nat.exists_eq_succ_of_ne_zero hlost
    refine not_final_of_waiting (b := true) [.connectionLostConnects] ?_ ?_ hfinal
    · simp [Calm]
    · rw [run_cons, run_nil, hs]
      simp [step, hn, addToCommandBuffer]

def connectedThenDisconnected : List Event :=
  Event.api (.connect false) :: List.replicate 6 Event.worker ++ [Event.api .disconnect, .worker]

theorem disconnect_final_connected :
    Final (.bare .obliging) (reach (.bare .obliging) .inMemory connectedThenDisconnected) :=
  (disconnect_final_iff .inMemory (.bare .obliging) connectedThenDisconnected
    (by decide +kernel)).mpr
    ⟨by decide +kernel, by decide +kernel⟩

def Environment.reachableOnRetry : Environment :=
  { Environment.obliging with connects := fun trace => decide (.connectCalled false ∈ trace) }

/-- The user disconnects while the failed connect is being put back in the buffer. -/
def disconnectedDuringRetry : List Event :=
  [.api (.connect false), .worker, .api .disconnect, .worker, .worker, .worker]

/-- The retry overtaken by the disconnect connects the module again, though the user has not
called `connect` since and the connection was not lost. -/
theorem disconnect_undone_by_retry :
    let s := reach (.bare Environment.reachableOnRetry) .inMemory disconnectedDuringRetry
    Disconnecting s ∧ ¬ Final (.bare Environment.reachableOnRetry) s ∧
      (work (.bare Environment.reachableOnRetry) 4 s).connected = true := by
  refine ⟨by decide +kernel, fun hfinal => ?_, by decide +kernel⟩
  have h := (hfinal (List.replicate 3 Event.worker) (by decide +kernel)).1
  exact absurd h (by decide +kernel)

end WolkGateway.Wolk
