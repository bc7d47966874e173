import WolkGateway.Quiescence
import WolkGateway.DefaultTimestamps
import WolkGateway.InboundOrder

/-!
# The account of the connects

A connect is asked for by the user or owed for a lost connection. It waits in one of three
places until it succeeds: in a connection-lost handler, in the buffer, or with a worker that
is about to put it back after a failure. Each failure is slept on before that.
-/

namespace WolkGateway.Wolk
open DeviceModel DataService DataLedger GuardedRuns

/-- The user asks for a connect, or the loss of the connection does. -/
def isConnectRequest : Event → Bool
  | .api (.connect _) | .connectionLost => true
  | _ => false

def isConnect : Command → Bool
  | .connect _ => true
  | _ => false

/-- The worker is about to put a connect back. -/
def isRetry : Atom → Bool
  | .enqueue command => isConnect command
  | _ => false

variable {P : Persistence} {cfg : Config} {s t : State P}

def successfulConnects (s : State P) : ℕ := s.trace.count (.connectCalled true)

def pendingConnects (s : State P) : ℕ :=
  s.queue.countP isConnect + s.running.countP isRetry + s.lostHandlers

def connectAccount (s : State P) : ℕ := successfulConnects s + pendingConnects s

theorem successfulConnects_same {u : Trace} (ht : t.trace = s.trace ++ u)
    (hu : .connectCalled true ∉ u) : successfulConnects t = successfulConnects s := by
  rw [successfulConnects, ht, List.count_append, List.count_eq_zero.mpr hu]
  rfl

/-- Outside the start of a command no connect is called. -/
theorem successfulConnects_of_emits {e : Event} (h : ∀ c queue, s.running = [] →
    s.queue = c :: queue → e ≠ .worker) :
    successfulConnects (step cfg s e) = successfulConnects s := by
  obtain ⟨u, hu, hall⟩ := step_trace cfg s e
  refine successfulConnects_same hu fun hmem => ?_
  cases hall _ hmem with
  | command c queue _ hr hq _ => exact h c queue hr hq rfl
  | access _ _ _ _ h => cases h
  | aside _ _ h => cases h

theorem isConnect_command (call : ApiCall) (now : ℕ) :
    (call.command now).toList.countP isConnect = [Event.api call].countP isConnectRequest := by
  cases call with
  | addSensorReadings =>
    simp only [ApiCall.command]
    split_ifs <;> rfl
  | _ => rfl

theorem isConnect_handledCommand (received : Listener × InboundMessage) :
    (handledCommand cfg received).toList.countP isConnect = 0 := by
  obtain ⟨listener, message⟩ := received
  cases listener with
  | dataService =>
    simp only [handledCommand]
    cases h : DataService.messageReceived cfg.dataProtocol message with
    | none => rfl
    | some c => cases received_of_messageReceived h <;> rfl
  | deviceStatusService =>
    simp only [handledCommand, DeviceStatusService.messageReceived]
    split_ifs <;> rfl
  | deviceRegistrationService =>
    simp only [handledCommand, DeviceRegistrationService.messageReceived]
    split_ifs
    · rfl
    · split <;> rfl
    · rfl
  | _ => rfl

theorem isRetry_accesses (a : Atom) (connected : Bool) :
    a.enqueues.countP isConnect + (a.expands connected).countP isRetry =
      [a].countP isRetry := by
  cases a with
  | registerIfConnected | updateIfConnected => cases connected <;> rfl
  | enqueue c => cases c <;> rfl
  | _ => rfl

theorem isRetry_connectedAtoms (devices : Registry) (b : Bool) :
    (connectedAtoms devices b).countP isRetry = 0 := by
  rw [List.countP_eq_zero]
  intro a ha hretry
  cases a with
  | enqueue c =>
    cases c with
    | connect b' => exact connectedAtoms_connect ha
    | _ => cases hretry
  | _ => cases hretry

/-- A connect that starts succeeds, or is about to be put back. -/
theorem connectAccount_begun {c : Command} {queue : List Command} (hr : s.running = [])
    (hq : s.queue = c :: queue) : connectAccount (beginCommand cfg c queue s) =
      connectAccount s := by
  have hpending : pendingConnects s = [c].countP isConnect + queue.countP isConnect +
      s.lostHandlers := by
    simp [pendingConnects, hr, hq, List.countP_cons, Nat.add_comm]
  by_cases hconnect : ∃ b, c = .connect b
  · obtain ⟨b, rfl⟩ := hconnect
    rw [connectAccount, connectAccount, successfulConnects, begun_connect_trace,
      List.count_append, hpending, pendingConnects, begun_connect_running]
    cases cfg.env.connects (s.data.log (.began (.connect b) s.devices)).trace with
    | false =>
      simp [beginCommand, successfulConnects, isRetry, isConnect]
      omega
    | true =>
      rw [if_pos rfl, isRetry_connectedAtoms]
      simp [beginCommand, successfulConnects, isConnect]
      omega
  · have hother : ∀ b, c ≠ .connect b := fun b h => hconnect ⟨b, h⟩
    obtain ⟨u, hu, hnone⟩ := begun_other_trace cfg hother queue s
    have hcalled : successfulConnects (beginCommand cfg c queue s) = successfulConnects s :=
      successfulConnects_same hu (hnone true)
    have hretry : (beginCommand cfg c queue s).running.countP isRetry = 0 := by
      rw [List.countP_eq_zero]
      intro a ha hretry
      cases a with
      | enqueue c' =>
        cases c' with
        | connect b => exact (connects_of_leaves (leaves_of_mem ha) hother).2 b rfl
        | _ => cases hretry
      | _ => cases hretry
    have hc : [c].countP isConnect = 0 := by
      cases c with
      | connect b => exact absurd rfl (hother b)
      | _ => rfl
    rw [connectAccount, connectAccount, hcalled, hpending, pendingConnects, hretry, hc,
      Nat.add_zero, Nat.zero_add]
    rfl

theorem connectAccount_accessed {a : Atom} {rest : List Atom} (hr : s.running = a :: rest) :
    connectAccount (step cfg s .worker) = connectAccount s := by
  rw [connectAccount, successfulConnects_of_emits fun _ _ hidle => by simp [hr] at hidle,
    connectAccount]
  congr 1
  rw [step_accesses hr]
  have ha := isRetry_accesses a s.connected
  have hsplit : s.running.countP isRetry = [a].countP isRetry + rest.countP isRetry := by
    rw [hr, ← List.countP_append]
    rfl
  simp only [pendingConnects, runAtom_queue, runAtom_running, runAtom_lostHandlers,
    List.countP_append, hsplit]
  omega

theorem connectAccount_worker (cfg : Config) (s : State P) :
    connectAccount (step cfg s .worker) =
      connectAccount s + [Event.worker].countP isConnectRequest := by
  cases hr : s.running with
  | nil =>
    cases hq : s.queue with
    | nil =>
      rw [step_idle (e := .worker) rfl (not_not_intro ⟨hr, hq⟩)]
      rfl
    | cons c queue =>
      rw [step_begins hr hq]
      exact connectAccount_begun hr hq
  | cons a rest => exact connectAccount_accessed hr

theorem connectAccount_step (cfg : Config) (s : State P) (e : Event) :
    connectAccount (step cfg s e) = connectAccount s + [e].countP isConnectRequest := by
  have aside : ∀ (e : Event) (t : State P), e ≠ .worker → step cfg s e = t →
      pendingConnects t = pendingConnects s + [e].countP isConnectRequest →
      connectAccount (step cfg s e) = connectAccount s + [e].countP isConnectRequest := by
    rintro e _ he rfl h
    rw [connectAccount, h, successfulConnects_of_emits fun _ _ _ _ => he, connectAccount,
      Nat.add_assoc]
  cases e with
  | api call =>
    refine aside _ _ (by simp) rfl ?_
    rw [← isConnect_command call s.clock]
    simp only [step]
    cases call.command s.clock with
    | none => rfl
    | some c =>
      simp only [enqueueAll, addToCommandBuffer, pendingConnects, List.countP_append,
        Option.toList_some]
      omega
  | worker => exact connectAccount_worker cfg s
  | connectionLost =>
    refine aside _ _ (by simp) rfl ?_
    exact (Nat.add_assoc _ _ _).symm
  | connectionLostConnects =>
    refine aside _ _ (by simp) rfl ?_
    simp only [step]
    split
    · rfl
    · rename_i n hn
      simp only [pendingConnects, addToCommandBuffer, List.countP_append, hn]
      have hone : [Command.connect true].countP isConnect = 1 := rfl
      have hnone : [Event.connectionLostConnects].countP isConnectRequest = 0 := rfl
      omega
  | inboundWorker =>
    refine aside _ _ (by simp) rfl ?_
    simp only [step]
    split
    · rfl
    · rename_i listener message rest hi
      rw [pendingConnects, deliver_queue, deliver_running, deliver_lostHandlers, List.countP_append,
        isConnect_handledCommand]
      rfl
  | inbound | firmwareWorker | platformStatusWorker =>
    refine aside _ _ (by simp) rfl ?_
    simp only [step]
    split <;> rfl
  | installCallback | tick => exact aside _ _ (by simp) rfl rfl

theorem connectAccount_run (cfg : Config) (s : State P) (events : List Event) :
    connectAccount (run (step cfg) s events) =
      connectAccount s + events.countP isConnectRequest := by
  induction events generalizing s with
  | nil => rfl
  | cons e events ih =>
    rw [run_cons, ih, connectAccount_step, Nat.add_assoc, ← List.countP_append]
    rfl

/-- The sleeps of a worker whose connect failed, done or still to do. -/
def backoffs (s : State P) : ℕ :=
  s.trace.count (.slept 2000) + s.running.count (.sleep 2000)

/-- Each failed connect has its sleep, and the worker sleeps on one at a time. -/
structure Backoff (s : State P) : Prop where
  failures : failedConnects s = backoffs s
  one : s.running.count (.sleep 2000) ≤ 1
  clock : 2000 * s.trace.count (.slept 2000) ≤ s.clock

theorem sleep_leaves {devices : Registry} {c : Command} {n : ℕ}
    (h : Leaves devices c (.sleep n)) : ∃ b, c = .connect b := by
  cases h with
  | sleep b => exact ⟨b, rfl⟩

theorem backoff_initial : Backoff (State.initial P) :=
  ⟨rfl, Nat.zero_le _, Nat.zero_le _⟩

theorem Backoff.of_same (h : Backoff s) {u : Trace} (ht : t.trace = s.trace ++ u)
    (hfails : .connectCalled false ∉ u) (hslept : .slept 2000 ∉ u)
    (hrunning : t.running.count (.sleep 2000) = s.running.count (.sleep 2000))
    (hclock : s.clock ≤ t.clock) : Backoff t := by
  have hcount : t.trace.count (.slept 2000) = s.trace.count (.slept 2000) := by
    rw [ht, List.count_append, List.count_eq_zero.mpr hslept, Nat.add_zero]
  refine ⟨?_, hrunning ▸ h.one, ?_⟩
  · rw [failedConnects_same ht hfails, h.failures, backoffs, backoffs, hcount, hrunning]
  · rw [hcount]
    exact h.clock.trans hclock

theorem sleeps_begun (c : Command) (queue : List Command) :
    failedConnects (beginCommand cfg c queue s) =
      failedConnects s + (beginCommand cfg c queue s).running.count (.sleep 2000) := by
  by_cases hconnect : ∃ b, c = .connect b
  · obtain ⟨b, rfl⟩ := hconnect
    rw [failedConnects, begun_connect_trace, List.count_append, begun_connect_running]
    cases cfg.env.connects (s.data.log (.began (.connect b) s.devices)).trace with
    | false => rfl
    | true =>
      have hnone : .sleep 2000 ∉ connectedAtoms s.devices b := by
        simp only [connectedAtoms, refreshAtoms]
        split_ifs <;> simp
      rw [if_pos rfl, List.count_eq_zero.mpr hnone]
      rfl
  · have hother : ∀ b, c ≠ .connect b := fun b h => hconnect ⟨b, h⟩
    have hnone : .sleep 2000 ∉ (beginCommand cfg c queue s).running := by
      intro hmem
      obtain ⟨b, rfl⟩ := sleep_leaves (leaves_of_mem hmem)
      exact hother b rfl
    obtain ⟨u, hu, hcalled⟩ := begun_other_trace cfg hother queue s
    rw [List.count_eq_zero.mpr hnone]
    exact failedConnects_same hu (hcalled false)

theorem backoff_begun {c : Command} {queue : List Command} (h : Backoff s) (hr : s.running = [])
    (hq : s.queue = c :: queue) : Backoff (beginCommand cfg c queue s) := by
  obtain ⟨u, hu, hall⟩ := beginCommand_trace cfg c queue s
  have hslept : (beginCommand cfg c queue s).trace.count (.slept 2000) =
      s.trace.count (.slept 2000) := by
    have hnone : .slept 2000 ∉ [Effect.began c s.devices] ++ u := by
      intro hmem
      rcases List.mem_append.mp hmem with hmem | hmem
      · simp at hmem
      · cases hall _ hmem
    rw [hu, List.append_assoc, List.count_append, List.count_eq_zero.mpr hnone, Nat.add_zero]
  have hfailures : failedConnects s = s.trace.count (.slept 2000) := by
    have hf := h.failures
    rwa [backoffs, hr] at hf
  have hsleeps : failedConnects (beginCommand cfg c queue s) = _ := sleeps_begun c queue
  have hclock : (beginCommand cfg c queue s).clock = s.clock := rfl
  have hle : failedConnects (beginCommand cfg c queue s) ≤ failedConnects s + 1 := by
    rcases begun_lowers cfg hr hq with ⟨hmore, -⟩ | ⟨hsame, -⟩ <;> omega
  refine ⟨?_, ?_, ?_⟩
  · rw [backoffs, hslept]
    omega
  · omega
  · rw [hslept, hclock]
    exact h.clock

theorem backoff_accessed {a : Atom} {rest : List Atom} (h : Backoff s)
    (hr : s.running = a :: rest) : Backoff (runAtom cfg a { s with running := rest }) := by
  obtain ⟨hfailures, hone, hclock⟩ := h
  rw [backoffs, hr] at hfailures
  rw [hr] at hone
  have hfails : failedConnects (runAtom cfg a { s with running := rest }) = failedConnects s := by
    obtain ⟨u, hu, hall⟩ := (runAtom_moves cfg a { s with running := rest }).trace_eq
    refine failedConnects_same hu fun hmem => ?_
    cases hall _ hmem
  have hslept : ∃ n, (runAtom cfg a { s with running := rest }).trace.count (.slept 2000) =
        s.trace.count (.slept 2000) + n ∧
      (a :: rest).count (.sleep 2000) =
        n + (runAtom cfg a { s with running := rest }).running.count (.sleep 2000) ∧
      s.clock + 2000 * n ≤ (runAtom cfg a { s with running := rest }).clock := by
    have hlater := step_clock cfg s .worker
    rw [step_accesses hr] at hlater
    rw [runAtom_running]
    cases a with
    | sleep n =>
      have htrace : (runAtom cfg (.sleep n) { s with running := rest }).trace.count (.slept 2000) =
          s.trace.count (.slept 2000) + [Effect.slept n].count (.slept 2000) :=
        List.count_append
      simp only [duration, hr] at hlater
      by_cases hn : n = 2000
      · subst hn
        refine ⟨1, htrace, ?_, by omega⟩
        simp [Atom.expands, Nat.add_comm]
      · refine ⟨0, by simpa [hn] using htrace, ?_, by omega⟩
        simp [Atom.expands, hn]
    | registerIfConnected | updateIfConnected =>
      refine ⟨0, ?_, ?_, by omega⟩
      · simp only [runAtom]
        split <;> rfl
      · simp only [Atom.expands]
        split_ifs <;> simp
    | storeAssets | respond =>
      refine ⟨0, ?_, ?_, by omega⟩
      · simp only [runAtom]
        split <;> simp [State.trace, State.log, DataState.log]
      · simp [Atom.expands]
    | _ =>
      refine ⟨0, ?_, ?_, by omega⟩
      · simp [runAtom, State.trace, State.log, DataState.log, addToCommandBuffer]
      · simp [Atom.expands]
  obtain ⟨n, htrace, hrunning, hlater⟩ := hslept
  refine ⟨?_, ?_, ?_⟩
  · rw [hfails, hfailures, backoffs]
    omega
  · omega
  · omega

theorem backoff_step (cfg : Config) (s : State P) (e : Event) (h : Backoff s) :
    Backoff (step cfg s e) := by
  have hclock : s.clock ≤ (step cfg s e).clock := by
    rw [step_clock]
    exact Nat.le_add_right _ _
  rcases stepped cfg s e with ⟨c, -, hsame, -, hdata, -⟩ | ⟨c, queue, rfl, hr, hq, ht⟩ |
    ⟨a, rest, rfl, hr, ht⟩ | ⟨rfl, -⟩ | ⟨-, hsame, -, hm⟩
  · exact h.of_same (u := []) (by simp [State.trace, hdata]) (by simp) (by simp)
      (by rw [hsame.running]) hclock
  · rw [ht]
    exact backoff_begun h hr hq
  · rw [ht]
    exact backoff_accessed h hr
  · exact h.of_same (u := [.connectionLost]) rfl (by simp) (by simp) rfl hclock
  · obtain ⟨u, hu, hall⟩ := hm.trace_eq
    refine h.of_same hu (fun hmem => ?_) (fun hmem => ?_) (by rw [hsame.running]) hclock
    · cases hall _ hmem
    · cases hall _ hmem

/-- No connect is lost or made up. Every request, by the user or for a lost connection, has
been answered by one successful call or still waits for it; and every failed call is slept on
for two seconds before the next, so time bounds the failures. -/
theorem connects_accounted (P : Persistence) (cfg : Config) (events : List Event) :
    let s := reach cfg P events
    events.countP isConnectRequest = successfulConnects s + pendingConnects s ∧
      failedConnects s = backoffs s ∧ 2000 * failedConnects s ≤ s.clock + 2000 := by
  have hbackoff : Backoff (reach cfg P events) :=
    invariant_of_step (backoff_step cfg) backoff_initial events
  have haccount := connectAccount_run cfg (State.initial P) events
  have hinitial : connectAccount (State.initial P) = 0 := rfl
  refine ⟨?_, hbackoff.failures, ?_⟩
  · rw [hinitial, Nat.zero_add] at haccount
    exact haccount.symm
  · have hone := hbackoff.one
    have hclock := hbackoff.clock
    rw [hbackoff.failures, backoffs]
    omega

end WolkGateway.Wolk
