import WolkGateway.InboundOrder

/-!
# Responses to registrations and updates

A response goes through the inbound buffer, the registration service and Wolk's buffer,
and an acknowledged device is then refreshed: a status for each of its actuators, its
configuration and its firmware version. The registration service asks its protocol for
registration responses only, so what the protocol makes of update responses is a parameter.
-/

namespace WolkGateway.Wolk
open DeviceModel DataService GuardedRuns Transcripts

/-- What the registration protocol makes of update responses. -/
structure UpdateResponses where
  isSubdeviceUpdateResponse : InboundMessage → Bool
  makeSubdeviceUpdateResponse : InboundMessage → Option PlatformResult

def responseCommand : Command → Option Command
  | .handleRegistrationResponse d result => some (.handleRegistrationResponse d result)
  | .handleUpdateResponse d result => some (.handleUpdateResponse d result)
  | _ => none

/-- The command a response of either kind asks for. -/
def responseAsked (cfg : Config) (responses : UpdateResponses) :
    Listener × InboundMessage → Option Command
  | (.deviceRegistrationService, message) =>
    let deviceKey := cfg.registrationProtocol.extractDeviceKeyFromChannel message.channel
    if deviceKey.isEmpty then none
    else if cfg.registrationProtocol.isSubdeviceRegistrationResponse message then
      (cfg.registrationProtocol.makeSubdeviceRegistrationResponse message).map
        (.handleRegistrationResponse deviceKey)
    else if responses.isSubdeviceUpdateResponse message then
      (responses.makeSubdeviceUpdateResponse message).map (.handleUpdateResponse deviceKey)
    else none
  | _ => none

/-- An update response that names a device and parses. -/
def IsUpdateResponse (cfg : Config) (responses : UpdateResponses) (message : InboundMessage) :
    Prop :=
  cfg.registrationProtocol.extractDeviceKeyFromChannel message.channel ≠ [] ∧
  cfg.registrationProtocol.isSubdeviceRegistrationResponse message = false ∧
  responses.isSubdeviceUpdateResponse message = true ∧
  (responses.makeSubdeviceUpdateResponse message).isSome = true

/-- The step does not handle an update response. -/
def HandlesNoUpdateResponse {P : Persistence} (cfg : Config) (responses : UpdateResponses)
    (s : State P) (e : Event) : Prop :=
  e = .inboundWorker → ∀ message rest, s.inbox = (.deviceRegistrationService, message) :: rest →
    ¬ IsUpdateResponse cfg responses message

variable {P : Persistence} {cfg : Config} {responses : UpdateResponses} {s : State P}

theorem responseCommand_inboundOnly : InboundOnly responseCommand where
  api call now c h := by
    cases call with
    | addSensorReadings d r values rtc =>
      simp only [ApiCall.command] at h
      split_ifs at h
      rw [← Option.some.inj h]
      rfl
    | _ =>
      simp only [ApiCall.command, Option.some.injEq] at h
      rw [← h]
      rfl
  leaves devices c c' h := by
    cases h with
    | refresh _ _ _ h => cases h <;> rfl
    | acknowledged _ _ _ _ h _ =>
      rcases h with h | rfl
      · cases h <;> rfl
      · rfl
    | _ => rfl
  registerDevice _ := rfl
  updateDevice _ := rfl
  connect := rfl

/-- A message for the registration service leads to the command it asks for, unless it is
an update response. -/
theorem handled_eq_asked_iff (message : InboundMessage) :
    (handledCommand cfg (.deviceRegistrationService, message)).bind responseCommand =
        responseAsked cfg responses (.deviceRegistrationService, message) ↔
      ¬ IsUpdateResponse cfg responses message := by
  simp only [handledCommand, DeviceRegistrationService.messageReceived, responseAsked,
    IsUpdateResponse]
  by_cases hk : (cfg.registrationProtocol.extractDeviceKeyFromChannel
      message.channel).isEmpty = true
  · simp only [hk, if_true, Option.bind_none, true_iff]
    intro h
    exact h.1 (List.isEmpty_iff.mp hk)
  have hne : cfg.registrationProtocol.extractDeviceKeyFromChannel message.channel ≠ [] := by
    simpa [List.isEmpty_iff] using hk
  rw [if_neg hk, if_neg hk]
  cases hreg : cfg.registrationProtocol.isSubdeviceRegistrationResponse message with
  | true =>
    cases cfg.registrationProtocol.makeSubdeviceRegistrationResponse message <;>
      simp [responseCommand]
  | false =>
    cases hupd : responses.isSubdeviceUpdateResponse message with
    | false => simp
    | true => cases responses.makeSubdeviceUpdateResponse message <;> simp [hne]

theorem leadsTo_iff (s : State P) (e : Event) :
    LeadsTo cfg responseCommand (responseAsked cfg responses) s e ↔
      HandlesNoUpdateResponse cfg responses s e := by
  constructor
  · intro h he message rest hi
    exact (handled_eq_asked_iff message).mp (h he _ rest hi)
  · rintro h he ⟨listener, message⟩ rest hi
    cases listener with
    | deviceRegistrationService => exact (handled_eq_asked_iff message).mpr (h he message rest hi)
    | dataService =>
      simp only [handledCommand, responseAsked]
      cases hm : DataService.messageReceived cfg.dataProtocol message with
      | none => rfl
      | some c => cases received_of_messageReceived hm <;> rfl
    | deviceStatusService =>
      simp only [handledCommand, DeviceStatusService.messageReceived, responseAsked]
      split_ifs <;> rfl
    | firmwareUpdateService | platformStatusService => rfl

/-- The refreshes of an acknowledged device: one status for each actuator reference, the
configuration, the firmware version. -/
def refreshCommands (devices : Registry) (d : Str) (result : PlatformResult) : List Command :=
  if result = .ok then
    (getActuatorReferences devices d).map (.handleActuatorGetCommand d) ++
      [.handleConfigurationGetCommand d, .publishFirmwareVersion d]
  else []

def nextEnqueues (s : State P) : Event → List Command
  | .worker => (s.running.take 1).flatMap Atom.enqueues
  | _ => []

def workerEnqueues (cfg : Config) : State P → List Event → List Command
  | _, [] => []
  | s, e :: events => nextEnqueues s e ++ workerEnqueues cfg (step cfg s e) events

/-- Accesses that put commands in the buffer or call the user's handler. -/
def Answering (a : Atom) : Prop := (∃ c, a = .enqueue c) ∨ ∃ d result, a = .respond d result

theorem step_running_of_ne_worker {e : Event} (he : e ≠ .worker) (s : State P) :
    (step cfg s e).running = s.running := by
  rcases stepped cfg s e with ⟨_, _, hsame, -, -, -⟩ | ⟨_, _, rfl, -, -, -⟩ |
    ⟨_, _, rfl, -, -⟩ | ⟨rfl, ht⟩ | ⟨-, hsame, -, -⟩
  · exact hsame.running
  · exact absurd rfl he
  · exact absurd rfl he
  · rfl
  · exact hsame.running

/-- The worker does what is left of a command, one access a step, whatever comes between. -/
theorem workerEnqueues_eq {events : List Event} (hanswering : ∀ a ∈ s.running, Answering a)
    (hcount : events.count .worker = s.running.length) :
    workerEnqueues cfg s events = s.running.flatMap Atom.enqueues ∧
      (run (step cfg) s events).running = [] := by
  induction events generalizing s with
  | nil =>
    have hnil : s.running = [] := List.length_eq_zero_iff.mp (by simpa using hcount.symm)
    rw [hnil]
    exact ⟨rfl, hnil⟩
  | cons e events ih =>
    by_cases he : e = .worker
    · subst he
      rw [List.count_cons_self] at hcount
      cases hr : s.running with
      | nil =>
        rw [hr, List.length_nil] at hcount
        omega
      | cons a rest =>
        have hnext : (step cfg s .worker).running = rest := by
          rw [step_accesses hr, runAtom_running]
          have hmem : a ∈ s.running := by
            rw [hr]
            exact List.mem_cons_self
          rcases hanswering a hmem with ⟨c, rfl⟩ | ⟨d, result, rfl⟩
          · rfl
          · rfl
        have hrest : ∀ b ∈ (step cfg s .worker).running, Answering b := by
          intro b hb
          rw [hnext] at hb
          exact hanswering b (by rw [hr]; exact List.mem_cons_of_mem _ hb)
        have hlen : events.count .worker = (step cfg s .worker).running.length := by
          rw [hr, List.length_cons] at hcount
          rw [hnext]
          omega
        obtain ⟨henq, hdone⟩ := ih hrest hlen
        refine ⟨?_, hdone⟩
        rw [workerEnqueues, henq, hnext]
        simp [nextEnqueues, hr]
    · have hsame : (step cfg s e).running = s.running := step_running_of_ne_worker he s
      rw [List.count_cons_of_ne he] at hcount
      obtain ⟨henq, hdone⟩ := ih (s := step cfg s e) (by rwa [hsame]) (by rwa [hsame])
      refine ⟨?_, hdone⟩
      rw [workerEnqueues, henq, hsame]
      cases e <;> first | rfl | exact absurd rfl he

theorem answering_of_acknowledged {devices : Registry} {d : Str} {result : PlatformResult}
    {a : Atom} (h : a ∈ acknowledgedAtoms devices d result) : Answering a := by
  unfold acknowledgedAtoms at h
  split_ifs at h
  · rcases List.mem_append.mp h with h | h
    · obtain ⟨c, rfl, -⟩ := mem_refreshAtoms h
      exact .inl ⟨c, rfl⟩
    · exact .inl ⟨_, List.mem_singleton.mp h⟩
  · cases h

theorem acknowledgedAtoms_enqueues (devices : Registry) (d : Str) (result : PlatformResult) :
    (acknowledgedAtoms devices d result).flatMap Atom.enqueues =
      refreshCommands devices d result := by
  unfold acknowledgedAtoms refreshCommands refreshAtoms
  split_ifs
  · have hstatuses : ((getActuatorReferences devices d).map fun r =>
        Atom.enqueue (.handleActuatorGetCommand d r)).flatMap Atom.enqueues =
          (getActuatorReferences devices d).map (.handleActuatorGetCommand d) := by
      rw [List.flatMap_map, List.map_eq_flatMap]
      rfl
    rw [List.flatMap_append, List.flatMap_append, hstatuses, List.append_assoc]
    rfl
  · rfl

def RespondsTo (c : Command) (d : Str) (result : PlatformResult) : Prop :=
  c = .handleRegistrationResponse d result ∨ c = .handleUpdateResponse d result

/-- A response command of a registered device leaves its refreshes, in this order. -/
theorem beginCommand_response {c : Command} {d : Str} {result : PlatformResult}
    (hc : RespondsTo c d result) (hd : d ∈ s.devices) (queue : List Command) :
    (∀ a ∈ (beginCommand cfg c queue s).running, Answering a) ∧
      (beginCommand cfg c queue s).running.flatMap Atom.enqueues =
        refreshCommands s.devices d result := by
  rcases hc with rfl | rfl
  · simp only [beginCommand, execute, (deviceExists_iff _ _).mpr hd, if_true]
    constructor
    · intro a ha
      rcases List.mem_append.mp ha with ha | ha
      · exact answering_of_acknowledged ha
      · exact .inr ⟨d, result, List.mem_singleton.mp ha⟩
    · rw [List.flatMap_append, acknowledgedAtoms_enqueues]
      exact List.append_nil _
  · simp only [beginCommand, execute, (deviceExists_iff _ _).mpr hd, if_true]
    exact ⟨fun a ha => answering_of_acknowledged ha, acknowledgedAtoms_enqueues _ _ _⟩

def responseHandled : Effect → Option (Str × PlatformResult)
  | .registrationResponseHandled _ d result => some (d, result)
  | _ => none

/-- The call a started command is to make: a registration response for a registered device. -/
def responseDue : Command × Registry → Option (Str × PlatformResult)
  | (.handleRegistrationResponse d result, devices) =>
    if d ∈ devices then some (d, result) else none
  | _ => none

def responding : Atom → Option (Str × PlatformResult)
  | .respond d result => some (d, result)
  | _ => none

/-- The calls made, and the one the worker is yet to make, are those that were due. -/
def CallsDue (s : State P) : Prop :=
  s.trace.filterMap responseHandled ++ s.running.filterMap responding =
    (started s.trace).filterMap responseDue

theorem CallsDue.quiet {t : State P} (h : CallsDue s) {u : Trace} (ht : t.trace = s.trace ++ u)
    (hu : ∀ e ∈ u, responseHandled e = none) (hnone : StartsNone u)
    (hr : t.running.filterMap responding = s.running.filterMap responding) : CallsDue t := by
  rw [CallsDue, ht, hr, List.filterMap_append, List.filterMap_eq_nil_iff.mpr hu,
    List.append_nil, started_startsNone hnone]
  exact h

theorem responding_of_leaves {devices : Registry} {c : Command} {a : Atom}
    (h : Leaves devices c a) (hc : ∀ d result, c ≠ .handleRegistrationResponse d result) :
    responding a = none := by
  cases h with
  | respond d result => exact absurd rfl (hc d result)
  | _ => rfl

theorem responding_execute (devices : Registry) (now : ℕ) (data : DataState P) (c : Command) :
    (execute cfg devices now data c).rest.filterMap responding =
      (responseDue (c, devices)).toList := by
  by_cases hc : ∃ d result, c = .handleRegistrationResponse d result
  · obtain ⟨d, result, rfl⟩ := hc
    by_cases hd : d ∈ devices
    · have hnone : (acknowledgedAtoms devices d result).filterMap responding = [] := by
        refine List.filterMap_eq_nil_iff.mpr fun a ha => ?_
        have hleaves : Leaves devices (.handleUpdateResponse d result) a :=
          mem_acknowledgedAtoms ha hd (.inr ⟨result, rfl⟩)
        exact responding_of_leaves hleaves (by simp)
      simp only [execute, (deviceExists_iff _ _).mpr hd, if_true, List.filterMap_append, hnone,
        responseDue, if_pos hd]
      rfl
    · simp [execute, responseDue, hd]
  · have hdue : responseDue (c, devices) = none := by
      cases c <;> first | rfl | exact absurd ⟨_, _, rfl⟩ hc
    rw [hdue]
    refine List.filterMap_eq_nil_iff.mpr fun a ha => ?_
    exact responding_of_leaves (leaves_of_mem ha) fun d result h => hc ⟨d, result, h⟩

theorem callsDue_step {handler : ℕ}
    (hh : cfg.callbacks.registrationResponseHandler = some handler) (s : State P) (e : Event)
    (h : CallsDue s) : CallsDue (step cfg s e) := by
  rcases stepped cfg s e with ⟨c, hc, hsame, hq, hd, -⟩ | ⟨c, queue, rfl, hr, hq, ht⟩ |
    ⟨a, rest, rfl, hr, ht⟩ | ⟨rfl, ht⟩ | ⟨-, hsame, -, hm⟩
  · exact h.quiet (u := []) (by simp [State.trace, hd]) (by simp) (by simp [StartsNone])
      (by rw [hsame.running])
  · obtain ⟨u, hu, hall⟩ := beginCommand_trace cfg c queue s
    have hnone : u.filterMap responseHandled = [] := by
      refine List.filterMap_eq_nil_iff.mpr fun x hx => ?_
      cases hall x hx <;> rfl
    have hbefore := h
    rw [CallsDue, hr, List.filterMap_nil, List.append_nil] at hbefore
    have hhandled : (beginCommand cfg c queue s).trace.filterMap responseHandled =
        s.trace.filterMap responseHandled := by
      rw [hu, List.filterMap_append, hnone, List.append_nil, List.filterMap_append]
      exact List.append_nil _
    rw [ht, CallsDue, started_begun, List.filterMap_append, ← hbefore, hhandled]
    congr 1
    have hrest : (beginCommand cfg c queue s).running.filterMap responding =
        (responseDue (c, s.devices)).toList := responding_execute _ _ _ _
    rw [hrest]
    cases hdue : responseDue (c, s.devices) <;> simp [hdue]
  · rw [ht]
    by_cases ha : ∃ d result, a = .respond d result
    · obtain ⟨d, result, rfl⟩ := ha
      rw [CallsDue, hr] at h
      have htrace : (runAtom cfg (.respond d result) { s with running := rest }).trace =
          s.trace ++ [Effect.registrationResponseHandled handler d result] := by
        simp [runAtom, hh, State.log, State.trace, DataState.log]
      have hrunning : (runAtom cfg (.respond d result) { s with running := rest }).running =
          rest := by
        rw [runAtom_running]
        rfl
      have hstart : started (s.trace ++ [Effect.registrationResponseHandled handler d result]) =
          started s.trace := started_startsNone (by simp [StartsNone, start])
      rw [CallsDue, htrace, hrunning, hstart, ← h, List.filterMap_append, List.append_assoc]
      rfl
    · obtain ⟨u, hu, hall⟩ := (runAtom_moves cfg a { s with running := rest }).trace_eq
      refine h.quiet hu (fun x hx => ?_) (startsNone_of_accesses hall) ?_
      · cases hall x hx with
        | responded _ d result => exact absurd ⟨d, result, rfl⟩ ha
        | _ => rfl
      · rw [runAtom_running, hr, List.filterMap_append]
        cases a with
        | respond d result => exact absurd ⟨d, result, rfl⟩ ha
        | registerIfConnected | updateIfConnected =>
          simp only [Atom.expands]
          split <;> rfl
        | _ => rfl
  · exact h.quiet (u := [.connectionLost]) rfl (by simp [responseHandled])
      (by simp [StartsNone, start]) (by rw [ht]; rfl)
  · obtain ⟨u, hu, hall⟩ := hm.trace_eq
    refine h.quiet hu (fun x hx => ?_) (startsNone_of_aside hall) (by rw [hsame.running])
    cases hall x hx <;> rfl

/-- Every response asked for its command and none came between; a response command puts in
the buffer the refreshes of its device, in the registry it starts in, and no more; and the
user's handler, where there is one, was called for the registration responses that were due. -/
structure Refreshed (cfg : Config) (responses : UpdateResponses) (s : State P) : Prop where
  dispatched : InOrder responseCommand (responseAsked cfg responses) s
  refreshed : ∀ c queue d result, s.running = [] → s.queue = c :: queue →
    RespondsTo c d result → d ∈ s.devices → ∀ events,
    events.count .worker = (step cfg s .worker).running.length →
    workerEnqueues cfg (step cfg s .worker) events = refreshCommands s.devices d result ∧
      (run (step cfg) (step cfg s .worker) events).running = []
  called : cfg.callbacks.registrationResponseHandler.isSome → CallsDue s

theorem callsDue_reach (h : cfg.callbacks.registrationResponseHandler.isSome)
    (events : List Event) : CallsDue (reach cfg P events) := by
  obtain ⟨handler, hh⟩ := Option.isSome_iff_exists.mp h
  have hinit : CallsDue (State.initial P) := rfl
  exact invariant_of_step (callsDue_step hh) hinit events

theorem refreshes_of_response {c : Command} {queue : List Command} {d : Str}
    {result : PlatformResult} (hr : s.running = []) (hq : s.queue = c :: queue)
    (hc : RespondsTo c d result) (hd : d ∈ s.devices) {events : List Event}
    (hcount : events.count .worker = (step cfg s .worker).running.length) :
    workerEnqueues cfg (step cfg s .worker) events = refreshCommands s.devices d result ∧
      (run (step cfg) (step cfg s .worker) events).running = [] := by
  have hbegun : step cfg s .worker = beginCommand cfg c queue s := step_begins hr hq
  obtain ⟨hanswering, henq⟩ := beginCommand_response hc hd queue
  rw [hbegun] at hcount ⊢
  rw [← henq]
  exact workerEnqueues_eq hanswering hcount

/-- Every response is answered in every state of a run if and only if the run handles no
update response: for registration responses alone the chain of handlers is complete. -/
theorem responses_refreshed (events : List Event) :
    (∀ before after, events = before ++ after →
      Refreshed cfg responses (reach cfg P before)) ↔
    Guarded (step cfg) (HandlesNoUpdateResponse cfg responses) (.initial P) events := by
  constructor
  · intro h
    rw [guarded_iff]
    intro before e after heq
    rw [← leadsTo_iff]
    intro he
    subst he
    have hnow := (h before (.inboundWorker :: after) heq).dispatched
    have hnext := (h (before ++ [.inboundWorker]) after (by simp [heq])).dispatched
    rw [reach, run_append] at hnext
    exact leadsTo_of_inOrder hnow hnext rfl
  · intro h before after heq
    have hbefore : Guarded (step cfg) (HandlesNoUpdateResponse cfg responses) (.initial P)
        before := by
      rw [guarded_iff] at h ⊢
      intro first e rest hfirst
      exact h first e (rest ++ after) (by rw [heq, hfirst]; simp)
    refine ⟨?_, fun c queue d result hr hq hc hd events hcount =>
      refreshes_of_response hr hq hc hd hcount, fun hh => callsDue_reach hh before⟩
    refine invariant_of_guarded (fun s e ho hg => ?_) inOrder_initial hbefore
    exact inOrder_step responseCommand_inboundOnly s e ho ((leadsTo_iff s e).mpr hg)

/-- A protocol whose channels are device keys; responses to registrations read `r`. -/
def Config.answering : Config :=
  { Config.bare .obliging with
    registrationProtocol := ⟨id, fun message => message.content = ['r'], fun _ => some .ok⟩
    inboundMessageHandler :=
      InboundGatewayMessageHandler.empty.addListener .deviceRegistrationService [['d']] }

/-- Responses to updates read `u`, and every one reports success. -/
def UpdateResponses.answering : UpdateResponses :=
  ⟨fun message => message.content = ['u'], fun _ => some .ok⟩

def respondedWith (content : Str) : List Event :=
  [.api (.addDevice (actuatorDevice ['d'] ['v'])), .worker, .worker, .inbound ['d'] content,
    .inboundWorker]

/-- The update response leaves no command behind, and so nothing refreshes the device. -/
theorem update_response_dropped :
    let s := reach .answering .inMemory (respondedWith ['u'])
    getActuatorReferences s.devices ['d'] = [['v']] ∧
      (deliveries s.trace).filterMap (responseAsked .answering .answering) =
        [.handleUpdateResponse ['d'] .ok] ∧
      s.BufferEmpty ∧ s.inbox = [] ∧ ¬ Refreshed .answering .answering s := by
  intro s
  have hasked : (deliveries s.trace).filterMap (responseAsked .answering .answering) =
      [.handleUpdateResponse ['d'] .ok] := by decide +kernel
  have hanswered : (started s.trace).filterMap (fun c => responseCommand c.1) ++
      s.queue.filterMap responseCommand ++
        s.inbox.filterMap (responseAsked .answering .answering) = [] := by decide +kernel
  refine ⟨by decide +kernel, hasked, ⟨by decide +kernel, by decide +kernel⟩, by decide +kernel,
    fun h => ?_⟩
  have horder := h.dispatched.order
  rw [hasked, hanswered] at horder
  cases horder

example : (reach .answering .inMemory (respondedWith ['r'])).queue =
    [.handleRegistrationResponse ['d'] .ok] := by decide +kernel

end WolkGateway.Wolk
