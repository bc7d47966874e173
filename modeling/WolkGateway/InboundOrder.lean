import WolkGateway.WolkStepCases
import WolkGateway.Transcripts

/-!
# The way of an inbound message

A message waits in the inbound buffer, then as a command in Wolk's buffer, and then the
command starts. Both buffers keep the order: for commands that only inbound messages ask
for, what has started, what waits as a command and what waits as a message are together
what has arrived, as long as each message leads to the command it asks for.
-/

namespace WolkGateway.Wolk
open DeviceModel DataService DataLedger GuardedRuns Transcripts

def delivery : Effect → Option (Listener × InboundMessage)
  | .received listener message => some (listener, message)
  | _ => none

def deliveries (trace : Trace) : List (Listener × InboundMessage) := trace.filterMap delivery

/-- The command that handling a message puts in Wolk's buffer. -/
def handledCommand (cfg : Config) : Listener × InboundMessage → Option Command
  | (.dataService, message) => DataService.messageReceived cfg.dataProtocol message
  | (.deviceStatusService, message) =>
    DeviceStatusService.messageReceived cfg.statusProtocol message
  | (.deviceRegistrationService, message) =>
    DeviceRegistrationService.messageReceived cfg.registrationProtocol message
  | (.firmwareUpdateService, _) | (.platformStatusService, _) => none

variable {P : Persistence} {cfg : Config} {s : State P}

theorem deliver_queue (listener : Listener) (message : InboundMessage) (s : State P) :
    (deliver cfg listener message s).queue =
      s.queue ++ (handledCommand cfg (listener, message)).toList := by
  cases listener with
  | firmwareUpdateService | platformStatusService =>
    simp only [deliver, handledCommand, Option.toList_none, List.append_nil]
    split <;> rfl
  | _ =>
    simp only [deliver, handledCommand, enqueueAll]
    split
    · rename_i h
      simp [h]
    · rename_i h
      simp [h, addToCommandBuffer]

@[simp] theorem deliver_inbox (listener : Listener) (message : InboundMessage) (s : State P) :
    (deliver cfg listener message s).inbox = s.inbox := by
  cases listener <;> simp only [deliver, enqueueAll] <;> split <;> rfl

@[simp] theorem deliver_data (listener : Listener) (message : InboundMessage) (s : State P) :
    (deliver cfg listener message s).data = s.data := by
  cases listener <;> simp only [deliver, enqueueAll] <;> split <;> rfl

@[simp] theorem deliver_running (listener : Listener) (message : InboundMessage) (s : State P) :
    (deliver cfg listener message s).running = s.running := by
  cases listener <;> simp only [deliver, enqueueAll] <;> split <;> rfl

def Passing (u : Trace) : Prop := ∀ e ∈ u, delivery e = none ∧ start e = none

theorem passing_of_mayEmit {devices : Registry} {c : Command} {u : Trace}
    (h : ∀ e ∈ u, MayEmit devices c e) : Passing u := by
  intro e he
  cases h e he <;> exact ⟨rfl, rfl⟩

theorem passing_of_accesses {a : Atom} {u : Trace} (h : ∀ e ∈ u, Accesses a e) : Passing u := by
  intro e he
  cases h e he <;> exact ⟨rfl, rfl⟩

theorem passing_of_aside {event : Event} {u : Trace} (h : ∀ e ∈ u, Aside s event e)
    (hin : ∀ channel payload, event ≠ .inbound channel payload) : Passing u := by
  intro e he
  cases h e he with
  | received channel payload => exact absurd rfl (hin channel payload)
  | _ => exact ⟨rfl, rfl⟩

theorem deliveries_passing {t u : Trace} (h : Passing u) :
    deliveries (t ++ u) = deliveries t := by
  rw [deliveries, List.filterMap_append, List.filterMap_eq_nil_iff.mpr fun e he => (h e he).1,
    List.append_nil]
  rfl

theorem started_passing {t u : Trace} (h : Passing u) : started (t ++ u) = started t :=
  started_startsNone fun e he => (h e he).2

section Order

variable {γ : Type} {tracks : Command → Option γ} {asks : Listener × InboundMessage → Option γ}

/-- What arrived is what started, then what waits as a command, then what waits as a message. -/
structure InOrder (tracks : Command → Option γ) (asks : Listener × InboundMessage → Option γ)
    (s : State P) : Prop where
  order : (deliveries s.trace).filterMap asks =
    (started s.trace).filterMap (fun c => tracks c.1) ++ s.queue.filterMap tracks ++
      s.inbox.filterMap asks
  running : ∀ c, .enqueue c ∈ s.running → tracks c = none

/-- The commands of interest are put in the buffer by inbound messages alone. -/
structure InboundOnly (tracks : Command → Option γ) : Prop where
  api : ∀ (call : ApiCall) now c, call.command now = some c → tracks c = none
  leaves : ∀ devices c c', Leaves devices c (.enqueue c') → tracks c' = none
  registerDevice : ∀ device, tracks (.registerDevice device) = none
  updateDevice : ∀ request, tracks (.updateDevice request) = none
  connect : tracks (.connect true) = none

/-- The message handled in the step leads to the command it asks for. -/
def LeadsTo (cfg : Config) (tracks : Command → Option γ)
    (asks : Listener × InboundMessage → Option γ) (s : State P) (e : Event) : Prop :=
  e = .inboundWorker → ∀ received rest, s.inbox = received :: rest →
    (handledCommand cfg received).bind tracks = asks received

/-- A step that takes no message and no command keeps the order. -/
theorem InOrder.of_passing {t : State P} (h : InOrder tracks asks s) {u : Trace}
    (ht : t.trace = s.trace ++ u) (hu : Passing u)
    (hq : t.queue.filterMap tracks = s.queue.filterMap tracks) (hi : t.inbox = s.inbox)
    (hr : ∀ c, .enqueue c ∈ t.running → tracks c = none) : InOrder tracks asks t := by
  refine ⟨?_, hr⟩
  rw [ht, deliveries_passing hu, started_passing hu, hq, hi]
  exact h.order

theorem inOrder_begun (ho : InboundOnly tracks) (h : InOrder tracks asks s) {c : Command}
    {queue : List Command} (hq : s.queue = c :: queue) :
    InOrder tracks asks (beginCommand cfg c queue s) := by
  obtain ⟨u, htrace, hall⟩ := beginCommand_trace cfg c queue s
  have hpass := passing_of_mayEmit hall
  refine ⟨?_, fun c' hmem => ho.leaves s.devices c c' (leaves_of_mem hmem)⟩
  have harr : deliveries (beginCommand cfg c queue s).trace = deliveries s.trace := by
    rw [htrace, deliveries_passing hpass, deliveries, List.filterMap_append]
    exact List.append_nil _
  have horder := h.order
  rw [harr, started_begun, horder, hq, List.filterMap_append]
  cases hc : tracks c <;> simp [beginCommand, hc]

theorem inOrder_accessed (ho : InboundOnly tracks) (h : InOrder tracks asks s) {a : Atom}
    {rest : List Atom} (hr : s.running = a :: rest) :
    InOrder tracks asks (runAtom cfg a { s with running := rest }) := by
  obtain ⟨u, hu, hall⟩ := (runAtom_moves cfg a { s with running := rest }).trace_eq
  refine h.of_passing hu (passing_of_accesses hall) ?_ ?_ ?_
  · rw [runAtom_queue, List.filterMap_append]
    cases a with
    | enqueue c =>
      have hc : tracks c = none := by
        apply h.running c
        rw [hr]
        exact List.mem_cons_self
      simp [Atom.enqueues, hc]
    | _ => simp [Atom.enqueues]
  · cases a <;> simp only [runAtom]
    all_goals first
      | rfl
      | (split <;> rfl)
  · intro c hmem
    rw [runAtom_running, List.mem_append] at hmem
    rcases hmem with hmem | hmem
    · cases a with
      | registerIfConnected | updateIfConnected =>
        simp only [Atom.expands] at hmem
        split_ifs at hmem
        · simp only [List.mem_cons, Atom.enqueue.injEq, reduceCtorEq, List.not_mem_nil,
            or_false] at hmem
          rw [hmem]
          first
            | exact ho.registerDevice _
            | exact ho.updateDevice _
        · simp at hmem
      | _ => simp [Atom.expands] at hmem
    · apply h.running c
      rw [hr]
      exact List.mem_cons_of_mem _ hmem

/-- Taking the oldest message keeps the order if its command goes behind those waiting. -/
theorem inOrder_delivered (h : InOrder tracks asks s) {received : Listener × InboundMessage}
    {rest : List (Listener × InboundMessage)} (hi : s.inbox = received :: rest)
    (hg : (handledCommand cfg received).bind tracks = asks received) :
    InOrder tracks asks (deliver cfg received.1 received.2 { s with inbox := rest }) := by
  refine ⟨?_, by rw [deliver_running]; exact h.running⟩
  have horder := h.order
  rw [hi, List.filterMap_cons] at horder
  simp only [State.trace, deliver_data, deliver_inbox, deliver_queue, List.filterMap_append]
  rw [State.trace] at horder
  rw [horder, ← hg]
  cases handledCommand cfg received with
  | none => simp
  | some c => cases hc : tracks c <;> simp [hc]

/-- A message that arrives goes behind those waiting. -/
theorem InOrder.arrived {t : State P} (h : InOrder tracks asks s) (listener : Listener)
    (message : InboundMessage) (htrace : t.trace = s.trace ++ [.received listener message])
    (hinbox : t.inbox = s.inbox ++ [(listener, message)]) (hrunning : t.running = s.running)
    (hqueue : t.queue = s.queue) : InOrder tracks asks t := by
  have harr : deliveries t.trace = deliveries s.trace ++ [(listener, message)] := by
    rw [htrace, deliveries, List.filterMap_append]
    rfl
  have hstart : started t.trace = started s.trace := by
    rw [htrace, started, List.filterMap_append]
    exact List.append_nil _
  refine ⟨?_, by rw [hrunning]; exact h.running⟩
  rw [harr, List.filterMap_append, h.order, hstart, hinbox, hqueue, List.filterMap_append]
  simp only [List.append_assoc]

theorem inOrder_enqueue {c : Command} {t : State P} (h : InOrder tracks asks s)
    (hc : tracks c = none) (htrace : t.trace = s.trace) (hqueue : t.queue = s.queue ++ [c])
    (hinbox : t.inbox = s.inbox) (hrunning : t.running = s.running) : InOrder tracks asks t := by
  refine h.of_passing (u := []) (by simp [htrace]) (by simp [Passing]) ?_ hinbox ?_
  · simp [hqueue, hc]
  · rw [hrunning]
    exact h.running

theorem InOrder.aside {t : State P} (h : InOrder tracks asks s) {u : Trace}
    (ht : t.trace = s.trace ++ u) (hu : Passing u) (hq : t.queue = s.queue)
    (hi : t.inbox = s.inbox) (hr : t.running = s.running) : InOrder tracks asks t := by
  refine h.of_passing ht hu (by rw [hq]) hi ?_
  rw [hr]
  exact h.running

theorem inOrder_step (ho : InboundOnly tracks) (s : State P) (e : Event)
    (h : InOrder tracks asks s) (hg : LeadsTo cfg tracks asks s e) :
    InOrder tracks asks (step cfg s e) := by
  cases e with
  | api call =>
    simp only [step]
    cases hc : call.command s.clock with
    | none => exact h
    | some c => exact inOrder_enqueue h (ho.api call s.clock c hc) rfl rfl rfl rfl
  | worker =>
    simp only [step, workerStep]
    split
    · rename_i hr
      exact inOrder_accessed ho h hr
    · split
      · exact h
      · rename_i hq
        exact inOrder_begun ho h hq
  | connectionLost =>
    exact h.aside (u := [.connectionLost]) rfl (by simp [Passing, delivery, start]) rfl rfl rfl
  | connectionLostConnects =>
    simp only [step]
    split
    · exact h
    · exact inOrder_enqueue h ho.connect rfl rfl rfl rfl
  | inbound channel payload =>
    simp only [step]
    split
    · exact h
    · rename_i listener _
      exact h.arrived listener ⟨payload, channel⟩ rfl rfl rfl rfl
  | inboundWorker =>
    simp only [step]
    split
    · exact h
    · rename_i listener message rest hi
      exact inOrder_delivered h hi (hg rfl (listener, message) rest hi)
  | firmwareWorker =>
    simp only [step]
    split
    · exact h
    · rename_i hq
      obtain ⟨u, hu, hall⟩ := (runCommand_moves cfg (s := s) hq s.data).trace_eq
      exact h.aside hu (passing_of_aside hall (by simp)) rfl rfl rfl
  | installCallback d success =>
    obtain ⟨u, hu, hall⟩ := (calledBack_moves cfg (s := s)
      (e := .installCallback d success) d success s.data).trace_eq
    exact h.aside hu (passing_of_aside hall (by simp)) rfl rfl rfl
  | platformStatusWorker =>
    simp only [step]
    split
    · exact h
    · rename_i status _ _
      exact h.aside (u := [.platformStatusHandled status]) rfl
        (by simp [Passing, delivery, start]) rfl rfl rfl
  | tick n =>
    exact h.aside (u := []) (by simp [step, State.trace]) (by simp [Passing]) rfl rfl rfl

theorem inOrder_initial : InOrder tracks asks (State.initial P) := by
  refine ⟨rfl, fun c h => ?_⟩
  simp [State.initial] at h

/-- A step that keeps the order handled a message that led to the command it asks for. -/
theorem leadsTo_of_inOrder (h : InOrder tracks asks s)
    (h' : InOrder tracks asks (step cfg s .inboundWorker)) :
    LeadsTo cfg tracks asks s .inboundWorker := by
  intro _ received rest hi
  have horder := h'.order
  simp only [step, hi, State.trace, deliver_data, deliver_inbox, deliver_queue,
    List.filterMap_append] at horder
  have hbefore := h.order
  rw [hi, State.trace, List.filterMap_cons] at hbefore
  rw [hbefore] at horder
  cases hc : handledCommand cfg received with
  | none =>
    rw [hc] at horder
    cases ha : asks received with
    | none => rfl
    | some x => simp [ha] at horder
  | some c =>
    rw [hc] at horder
    cases ha : asks received <;> cases ht : tracks c <;> simp_all

end Order

end WolkGateway.Wolk
