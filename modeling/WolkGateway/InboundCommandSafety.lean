import WolkGateway.InboundOrder

/-!
# Inbound commands, end to end

A message for the data service waits in the inbound buffer, then as a command in Wolk's
buffer, and is carried out in the registry of that moment. Both buffers keep the order, so
what was carried out, what waits in Wolk's buffer and what waits in the inbound buffer are
together what has arrived.
-/

namespace WolkGateway.Wolk
open DeviceModel DataService DataLedger GuardedRuns Transcripts

def arrival : Effect → Option InboundMessage
  | .received .dataService message => some message
  | _ => none

def arrivals (trace : Trace) : List InboundMessage := trace.filterMap arrival

def setCommand : Command → Option Command
  | .handleActuatorSetCommand key reference value =>
    some (.handleActuatorSetCommand key reference value)
  | .handleConfigurationSetCommand key configuration =>
    some (.handleConfigurationSetCommand key configuration)
  | _ => none

/-- What a message asks to set: it is classified as an actuator set or a configuration set,
names a device, and parses. -/
def requestedSet (protocol : DataProtocol) (message : InboundMessage) : Option Command :=
  let key := protocol.extractDeviceKeyFromChannel message.channel
  if protocol.isActuatorGetMessage message || key.isEmpty then none
  else if protocol.isActuatorSetMessage message then
    (protocol.makeActuatorSetCommand message).map fun (reference, value) =>
      .handleActuatorSetCommand key reference value
  else if protocol.isConfigurationGetMessage message then none
  else if protocol.isConfigurationSetMessage message then
    (protocol.makeConfigurationSetCommand message).map (.handleConfigurationSetCommand key)
  else none

theorem messageReceived_bind_setCommand (protocol : DataProtocol) (message : InboundMessage) :
    (DataService.messageReceived protocol message).bind setCommand =
      requestedSet protocol message := by
  simp only [DataService.messageReceived, requestedSet]
  cases protocol.isActuatorGetMessage message with
  | true => cases protocol.makeActuatorGetCommand message <;> rfl
  | false =>
    simp only [Bool.false_eq_true, if_false, Bool.false_or]
    split_ifs
    · rfl
    · cases protocol.makeActuatorSetCommand message <;> rfl
    · rfl
    · cases protocol.makeConfigurationSetCommand message <;> rfl
    · rfl

def awaitedSet (protocol : DataProtocol) : Listener × InboundMessage → Option Command
  | (.dataService, message) => requestedSet protocol message
  | _ => none

variable {P : Persistence} {cfg : Config} {s : State P}

/-- What arrived is what started, then what waits as a command, then what waits as a message. -/
structure SetsInOrder (cfg : Config) (s : State P) : Prop where
  order : (arrivals s.trace).filterMap (requestedSet cfg.dataProtocol) =
    (started s.trace).filterMap (fun c => setCommand c.1) ++ s.queue.filterMap setCommand ++
      s.inbox.filterMap (awaitedSet cfg.dataProtocol)
  running : ∀ c, .enqueue c ∈ s.running → setCommand c = none

theorem setCommand_api {call : ApiCall} {now : ℕ} {c : Command} (h : call.command now = some c) :
    setCommand c = none := by
  cases call with
  | addSensorReadings d r values rtc =>
    simp only [ApiCall.command] at h
    split_ifs at h
    rw [← Option.some.inj h]
    rfl
  | _ =>
    simp only [ApiCall.command, Option.some.injEq] at h
    rw [← h]
    rfl

theorem setCommand_leaves {devices : Registry} {c c' : Command}
    (h : Leaves devices c (.enqueue c')) : setCommand c' = none := by
  cases h with
  | refresh _ _ _ h => cases h <;> rfl
  | acknowledged _ _ _ _ h _ =>
    rcases h with h | rfl
    · cases h <;> rfl
    · rfl
  | _ => rfl

theorem setCommand_inboundOnly : InboundOnly setCommand where
  api _ _ _ h := setCommand_api h
  leaves _ _ _ h := setCommand_leaves h
  registerDevice _ := rfl
  updateDevice _ := rfl
  connect := rfl

theorem deliveries_awaitedSet (cfg : Config) (trace : Trace) :
    (deliveries trace).filterMap (awaitedSet cfg.dataProtocol) =
      (arrivals trace).filterMap (requestedSet cfg.dataProtocol) := by
  rw [deliveries, arrivals, List.filterMap_filterMap, List.filterMap_filterMap]
  congr 1
  funext e
  cases e with
  | received listener message => cases listener <;> rfl
  | _ => rfl

theorem leadsTo_awaitedSet (cfg : Config) (s : State P) (e : Event) :
    LeadsTo cfg setCommand (awaitedSet cfg.dataProtocol) s e := by
  rintro - ⟨listener, message⟩ rest -
  cases listener with
  | dataService => exact messageReceived_bind_setCommand cfg.dataProtocol message
  | deviceStatusService =>
    simp only [handledCommand, DeviceStatusService.messageReceived, awaitedSet]
    split_ifs <;> rfl
  | deviceRegistrationService =>
    simp only [handledCommand, DeviceRegistrationService.messageReceived, awaitedSet]
    split_ifs
    · rfl
    · cases cfg.registrationProtocol.makeSubdeviceRegistrationResponse message <;> rfl
    · rfl
  | firmwareUpdateService | platformStatusService => rfl

theorem setsInOrder_reach (cfg : Config) (events : List Event) :
    SetsInOrder cfg (reach cfg P events) := by
  have h : InOrder setCommand (awaitedSet cfg.dataProtocol) (reach cfg P events) :=
    invariant_of_step (I := InOrder setCommand (awaitedSet cfg.dataProtocol))
      (fun s e h => inOrder_step setCommand_inboundOnly s e h (leadsTo_awaitedSet cfg s e))
      inOrder_initial events
  refine ⟨?_, h.running⟩
  rw [← deliveries_awaitedSet]
  exact h.order

def actuation : Effect → Option (Str × Str × Str)
  | .actuationHandled _ key reference value => some (key, reference, value)
  | _ => none

/-- The call of the actuation handler a command is to make. -/
def actuationDue : Command × Registry → Option (Str × Str × Str)
  | (.handleActuatorSetCommand key reference value, devices) =>
    if key ∈ devices ∧ actuatorDefinedForDevice devices key reference = true then
      some (key, reference, value)
    else none
  | _ => none

def configured : Effect → Option (Str × List ConfigurationItem)
  | .configurationHandled _ key configuration => some (key, configuration)
  | _ => none

def configurationDue : Command × Registry → Option (Str × List ConfigurationItem)
  | (.handleConfigurationSetCommand key configuration, devices) =>
    if key ∈ devices ∧ ∀ item ∈ configuration,
        configurationItemDefinedForDevice devices key item.reference = true then
      some (key, configuration)
    else none
  | _ => none

/-- The call that is made: without a configuration handler there is none. -/
def configurationMade (callbacks : Callbacks) (c : Command × Registry) :
    Option (Str × List ConfigurationItem) :=
  if callbacks.configurationHandler.selected.isSome then configurationDue c else none

section Calls

variable {α : Type} {call : Effect → Option α} {due : Command × Registry → Option α}

/-- The calls of one kind are made by the commands' own pieces, as they are due. -/
structure MadeByCommands (P : Persistence) (cfg : Config) (call : Effect → Option α)
    (due : Command × Registry → Option α) : Prop where
  execute : ∀ (devices : Registry) (now : ℕ) (s : DataState P) (c : Command), ∃ u,
    (execute cfg devices now s c).data.trace = s.trace ++ u ∧
      u.filterMap call = (due (c, devices)).toList
  began : ∀ c devices, call (.began c devices) = none
  access : ∀ a e, Accesses a e → call e = none
  lost : call .connectionLost = none
  aside : ∀ (s : State P) event e, Aside s event e → call e = none

/-- The calls made are those that were due as commands started, in that order. -/
theorem calls_eq (h : MadeByCommands P cfg call due) (events : List Event) :
    (reach cfg P events).trace.filterMap call =
      (started (reach cfg P events).trace).filterMap due := by
  refine invariant_of_step (I := fun s : State P =>
    s.trace.filterMap call = (started s.trace).filterMap due) (fun s e ih => ?_) rfl events
  have quiet : ∀ (t : State P) (u : Trace), t.trace = s.trace ++ u →
      (∀ x ∈ u, call x = none) → StartsNone u →
      t.trace.filterMap call = (started t.trace).filterMap due := by
    intro t u ht hu hnone
    rw [ht, List.filterMap_append, List.filterMap_eq_nil_iff.mpr hu, List.append_nil, ih,
      started_startsNone hnone]
  rcases stepped cfg s e with ⟨c, hc, hsame, -, hdata, -⟩ | ⟨c, queue, rfl, hr, hq, ht⟩ |
    ⟨a, rest, rfl, hr, ht⟩ | ⟨rfl, ht⟩ | ⟨-, hsame, -, hm⟩
  · exact quiet _ [] (by simp [State.trace, hdata]) (by simp) (by simp [StartsNone])
  · obtain ⟨u, hu, hcall⟩ := h.execute s.devices s.clock (s.data.log (.began c s.devices)) c
    have htrace : (step cfg s .worker).trace = s.trace ++ [.began c s.devices] ++ u := by
      rw [ht]
      exact hu
    have hstart : started (step cfg s .worker).trace = started s.trace ++ [(c, s.devices)] := by
      rw [ht, started_begun]
    rw [hstart, List.filterMap_append, ← ih, htrace, List.filterMap_append, List.filterMap_append,
      hcall]
    have hbegan : [Effect.began c s.devices].filterMap call = [] := by
      simp [h.began]
    rw [hbegan, List.append_nil]
    cases hdue : due (c, s.devices) <;> simp [hdue]
  · obtain ⟨u, hu, hall⟩ := (runAtom_moves cfg a { s with running := rest }).trace_eq
    exact quiet _ u (by rw [ht]; exact hu) (fun x hx => h.access a x (hall x hx))
      (startsNone_of_accesses hall)
  · exact quiet _ [.connectionLost] rfl (by simp [h.lost]) (by simp [StartsNone, start])
  · obtain ⟨u, hu, hall⟩ := hm.trace_eq
    exact quiet _ u hu (fun x hx => h.aside s e x (hall x hx)) (startsNone_of_aside hall)

end Calls

variable {handler provider : ℕ}

theorem refreshActuatorStatus_trace (hp : cfg.callbacks.actuatorStatusProvider.selected =
      some provider) (key reference : Str) (s : DataState P) :
    (refreshActuatorStatus cfg key reference s).trace = s.trace ++
      [.actuatorStatusProvided provider key reference
          (cfg.env.actuatorStatus provider s.trace key reference),
        .added key reference (.actuatorStatus
          ⟨(cfg.env.actuatorStatus provider s.trace key reference).value, reference,
            (cfg.env.actuatorStatus provider s.trace key reference).state⟩)] := by
  simp [refreshActuatorStatus, hp, addActuatorStatus, DataState.log]

theorem refreshConfiguration_trace (hp : cfg.callbacks.configurationProvider.selected =
      some provider) (key : Str) (s : DataState P) :
    (refreshConfiguration cfg key s).trace = s.trace ++
      [Effect.configurationProvided provider key (cfg.env.configuration provider s.trace key),
        .added key [] (.configuration (cfg.env.configuration provider s.trace key))] := by
  simp [refreshConfiguration, hp, addConfiguration, DataState.log]

/-- An actuator set that is due: the handler, the provider and the put, then attempts only. -/
theorem runActuatorSet_trace {devices : Registry}
    (hh : cfg.callbacks.actuationHandler.selected = some handler)
    (hp : cfg.callbacks.actuatorStatusProvider.selected = some provider)
    {key reference : Str} (hdef : actuatorDefinedForDevice devices key reference = true)
    (value : Str) (s : DataState P) :
    let status := cfg.env.actuatorStatus provider
      (s.trace ++ [.actuationHandled handler key reference value]) key reference
    ∃ u, (runActuatorSet cfg devices key reference value s).trace = s.trace ++
        (.actuationHandled handler key reference value ::
        .actuatorStatusProvided provider key reference status ::
        .added key reference (.actuatorStatus ⟨status.value, reference, status.state⟩) :: u) ∧
      ∀ e ∈ u, AttemptAt .actuatorStatuses (fun _ => True) e := by
  intro status
  have hk : key ∈ devices := mem_of_actuatorDefined hdef
  have hm : Moves cfg.env _ _ _ := publishActuatorStatuses_moves
    (refreshActuatorStatus cfg key reference
      (s.log (.actuationHandled handler key reference value)))
  obtain ⟨u, hu, hall⟩ := hm.trace_eq
  refine ⟨u, ?_, hall⟩
  have hrun : runActuatorSet cfg devices key reference value s = publishActuatorStatuses cfg.env
      (refreshActuatorStatus cfg key reference
        (s.log (.actuationHandled handler key reference value))) := by
    simp [runActuatorSet, hk, hdef, hh]
  rw [hrun, hu, refreshActuatorStatus_trace hp]
  simp [DataState.log, status]

theorem runConfigurationSet_trace {devices : Registry}
    (hh : cfg.callbacks.configurationHandler.selected = some handler)
    (hp : cfg.callbacks.configurationProvider.selected = some provider) {key : Str}
    (hk : key ∈ devices) {items : List ConfigurationItem} (hdef : ∀ item ∈ items,
      configurationItemDefinedForDevice devices key item.reference = true) (s : DataState P) :
    let answer := cfg.env.configuration provider
      (s.trace ++ [.configurationHandled handler key items]) key
    ∃ u, (runConfigurationSet cfg devices key items s).trace = s.trace ++
        (.configurationHandled handler key items ::
        .configurationProvided provider key answer ::
        .added key [] (.configuration answer) :: u) ∧
      ∀ e ∈ u, AttemptAt .configurations (fun _ => True) e := by
  intro answer
  have hm : Moves cfg.env _ _ _ := publishConfiguration_moves
    (refreshConfiguration cfg key (s.log (.configurationHandled handler key items)))
  obtain ⟨u, hu, hall⟩ := hm.trace_eq
  refine ⟨u, ?_, hall⟩
  have hrun : runConfigurationSet cfg devices key items s = DataService.publishConfiguration
      cfg.env (refreshConfiguration cfg key
        (s.log (.configurationHandled handler key items))) := by
    have hany : items.any (fun item =>
        !configurationItemDefinedForDevice devices key item.reference) = false := by
      simpa using hdef
    simp [runConfigurationSet, hk, hany, hh]
  rw [hrun, hu, refreshConfiguration_trace hp]
  simp [DataState.log, answer]

theorem actuation_of_mayEmit {devices : Registry} {c : Command} {e : Effect}
    (h : MayEmit devices c e) (hc : ∀ key r v, c ≠ .handleActuatorSetCommand key r v) :
    actuation e = none := by
  cases h with
  | actuationHandled _ key r v => exact absurd rfl (hc key r v)
  | _ => rfl

theorem configured_of_mayEmit {devices : Registry} {c : Command} {e : Effect}
    (h : MayEmit devices c e) (hc : ∀ key v, c ≠ .handleConfigurationSetCommand key v) :
    configured e = none := by
  cases h with
  | configurationHandled _ key v => exact absurd rfl (hc key v)
  | _ => rfl

theorem filterMap_attempts {α : Type} {call : Effect → Option α} {u : Trace} {family : Family}
    (hu : ∀ e ∈ u, AttemptAt family (fun _ => True) e)
    (hcall : ∀ f k d items o, call (.attempted f k d items o) = none) : u.filterMap call = [] := by
  refine List.filterMap_eq_nil_iff.mpr fun e he => ?_
  obtain ⟨k, d, items, o, rfl, -⟩ := hu e he
  exact hcall _ _ _ _ _

/-- It is enough that a command makes the call that is due, and that one for which none is
due either makes none or is of another kind. -/
theorem madeByCommands_of_due {α : Type} {call : Effect → Option α}
    {due : Command × Registry → Option α}
    (hmade : ∀ devices now (s : DataState P) c x, due (c, devices) = some x →
      ∃ u, (execute cfg devices now s c).data.trace = s.trace ++ u ∧ u.filterMap call = [x])
    (hother : ∀ devices c, due (c, devices) = none →
      (∀ now (s : DataState P), ∃ u, (execute cfg devices now s c).data.trace = s.trace ++ u ∧
        u.filterMap call = []) ∨ ∀ e, MayEmit devices c e → call e = none)
    (began : ∀ c devices, call (.began c devices) = none)
    (access : ∀ a e, Accesses a e → call e = none) (lost : call .connectionLost = none)
    (aside : ∀ (s : State P) event e, Aside s event e → call e = none) :
    MadeByCommands P cfg call due := by
  refine ⟨fun devices now s c => ?_, began, access, lost, aside⟩
  cases hdue : due (c, devices) with
  | some x => exact hmade devices now s c x hdue
  | none =>
    rcases hother devices c hdue with hsilent | hkind
    · exact hsilent now s
    · obtain ⟨u, hu, hall⟩ := (execute_moves cfg devices now s c).trace_eq
      exact ⟨u, hu, List.filterMap_eq_nil_iff.mpr fun e he => hkind e (hall e he)⟩

theorem execute_actuatorRefused {devices : Registry} {key r v : Str}
    (h : actuationDue (.handleActuatorSetCommand key r v, devices) = none) (now : ℕ)
    (s : DataState P) : execute cfg devices now s (.handleActuatorSetCommand key r v) =
      ⟨s, devices, []⟩ := by
  simp only [actuationDue, ite_eq_right_iff, reduceCtorEq, imp_false, not_and_or,
    Bool.not_eq_true] at h
  rcases h with h | h <;> simp [execute, runActuatorSet, h]

theorem execute_configurationRefused {devices : Registry} {key : Str}
    {items : List ConfigurationItem}
    (h : configurationDue (.handleConfigurationSetCommand key items, devices) = none) (now : ℕ)
    (s : DataState P) : execute cfg devices now s (.handleConfigurationSetCommand key items) =
      ⟨s, devices, []⟩ := by
  simp only [configurationDue, ite_eq_right_iff, reduceCtorEq, imp_false, not_and_or] at h
  rcases h with h | h
  · simp [execute, runConfigurationSet, h]
  · have hany : items.any (fun item =>
        !configurationItemDefinedForDevice devices key item.reference) = true := by
      simpa using h
    simp [execute, runConfigurationSet, hany]

/-- Without a configuration handler a set command does what the get command does, or nothing. -/
theorem runConfigurationSet_unhandled
    (hh : cfg.callbacks.configurationHandler.selected = none) (devices : Registry) (key : Str)
    (items : List ConfigurationItem) (s : DataState P) :
    runConfigurationSet cfg devices key items s = s ∨
      runConfigurationSet cfg devices key items s = runConfigurationGet cfg devices key s := by
  simp only [runConfigurationSet, runConfigurationGet, hh]
  split_ifs
  · exact .inl rfl
  · exact .inl rfl
  · exact .inr rfl

theorem actuations_made (hw : Wired cfg.callbacks) :
    MadeByCommands P cfg actuation actuationDue := by
  obtain ⟨handler, hh⟩ := Option.isSome_iff_exists.mp hw.actuationHandler
  obtain ⟨provider, hp⟩ := Option.isSome_iff_exists.mp hw.actuatorStatusProvider
  apply madeByCommands_of_due
  · intro devices now s c x hdue
    cases c <;> simp only [actuationDue, reduceCtorEq] at hdue
    rename_i key r v
    split_ifs at hdue with h
    obtain ⟨u, hu, hall⟩ := runActuatorSet_trace hh hp h.2 v s
    have hnil : u.filterMap actuation = [] := filterMap_attempts hall fun _ _ _ _ _ => rfl
    refine ⟨_, hu, ?_⟩
    show (key, r, v) :: u.filterMap actuation = _
    rw [hnil, Option.some.inj hdue]
  · intro devices c hdue
    by_cases hc : ∃ key r v, c = .handleActuatorSetCommand key r v
    · obtain ⟨key, r, v, rfl⟩ := hc
      refine .inl fun now s => ⟨[], ?_, rfl⟩
      rw [execute_actuatorRefused hdue, List.append_nil]
    · right
      simp only [not_exists] at hc
      exact fun e he => actuation_of_mayEmit he hc
  · exact fun _ _ => rfl
  · intro a e h
    cases h <;> rfl
  · rfl
  · intro s event e h
    cases h <;> rfl

theorem configurations_made (hw : Wired cfg.callbacks) :
    MadeByCommands P cfg configured (configurationMade cfg.callbacks) := by
  apply madeByCommands_of_due
  · intro devices now s c x hmade
    rw [configurationMade, Option.ite_none_right_eq_some] at hmade
    obtain ⟨hset, hdue⟩ := hmade
    obtain ⟨handler, hh⟩ := Option.isSome_iff_exists.mp hset
    obtain ⟨provider, hp⟩ := Option.isSome_iff_exists.mp (hw.configuration.symm.trans hset)
    cases c <;> simp only [configurationDue, reduceCtorEq] at hdue
    rename_i key items
    split_ifs at hdue with h
    obtain ⟨u, hu, hall⟩ := runConfigurationSet_trace hh hp h.1 h.2 s
    have hnil : u.filterMap configured = [] := filterMap_attempts hall fun _ _ _ _ _ => rfl
    refine ⟨_, hu, ?_⟩
    show (key, items) :: u.filterMap configured = _
    rw [hnil, Option.some.inj hdue]
  · intro devices c hmade
    by_cases hc : ∃ key items, c = .handleConfigurationSetCommand key items
    · obtain ⟨key, items, rfl⟩ := hc
      left
      intro now s
      cases hh : cfg.callbacks.configurationHandler.selected with
      | some handler =>
        have hdue :
            configurationDue (.handleConfigurationSetCommand key items, devices) = none := by
          simpa [configurationMade, hh] using hmade
        refine ⟨[], ?_, rfl⟩
        rw [execute_configurationRefused hdue, List.append_nil]
      | none =>
        rcases runConfigurationSet_unhandled hh devices key items s with hrun | hrun
        · exact ⟨[], by simp [execute, hrun], rfl⟩
        · obtain ⟨u, hu, hall⟩ := (execute_moves cfg devices now s
            (.handleConfigurationGetCommand key)).trace_eq
          refine ⟨u, by rw [execute, hrun]; exact hu, ?_⟩
          exact List.filterMap_eq_nil_iff.mpr fun e he =>
            configured_of_mayEmit (hall e he) (by simp)
    · right
      simp only [not_exists] at hc
      exact fun e he => configured_of_mayEmit he hc
  · exact fun _ _ => rfl
  · intro a e h
    cases h <;> rfl
  · rfl
  · intro s event e h
    cases h <;> rfl

/-- What a set command that is due does first, after the calls `before`: the handler, then
the provider, whose answer is stored. -/
def CarriedOut (cfg : Config) (before : Trace) (devices : Registry) (after : Trace) :
    Command → Prop
  | .handleActuatorSetCommand key reference value =>
    (actuationDue (.handleActuatorSetCommand key reference value, devices)).isSome →
      ∃ handler provider, cfg.callbacks.actuationHandler.selected = some handler ∧
        cfg.callbacks.actuatorStatusProvider.selected = some provider ∧
        let status := cfg.env.actuatorStatus provider
          (before ++ [.began (.handleActuatorSetCommand key reference value) devices,
            .actuationHandled handler key reference value]) key reference
        [.actuationHandled handler key reference value,
          .actuatorStatusProvided provider key reference status,
          .added key reference (.actuatorStatus ⟨status.value, reference, status.state⟩)] <+: after
  | .handleConfigurationSetCommand key items =>
    (configurationMade cfg.callbacks (.handleConfigurationSetCommand key items, devices)).isSome →
      ∃ handler provider, cfg.callbacks.configurationHandler.selected = some handler ∧
        cfg.callbacks.configurationProvider.selected = some provider ∧
        let answer := cfg.env.configuration provider
          (before ++ [.began (.handleConfigurationSetCommand key items) devices,
            .configurationHandled handler key items]) key
        [.configurationHandled handler key items,
          .configurationProvided provider key answer,
          .added key [] (.configuration answer)] <+: after
  | _ => True

theorem CarriedOut.append {before after u : Trace} {devices : Registry} {c : Command}
    (h : CarriedOut cfg before devices after c) : CarriedOut cfg before devices (after ++ u) c := by
  cases c with
  | handleActuatorSetCommand | handleConfigurationSetCommand =>
    intro hdue
    obtain ⟨handler, provider, hh, hp, hprefix⟩ := h hdue
    exact ⟨handler, provider, hh, hp, hprefix.trans (List.prefix_append _ _)⟩
  | _ => trivial

theorem carriedOut_execute (hw : Wired cfg.callbacks) {u : Trace} {c : Command}
    {data : DataState P} (hdata : data.trace = s.trace ++ [Effect.began c s.devices])
    (hu : (execute cfg s.devices s.clock data c).data.trace = data.trace ++ u) :
    CarriedOut cfg s.trace s.devices u c := by
  cases c with
  | handleActuatorSetCommand key r v =>
    intro hdue
    obtain ⟨handler, hh⟩ := Option.isSome_iff_exists.mp hw.actuationHandler
    obtain ⟨provider, hp⟩ := Option.isSome_iff_exists.mp hw.actuatorStatusProvider
    have hdef : actuatorDefinedForDevice s.devices key r = true := by
      simp only [actuationDue] at hdue
      split_ifs at hdue with h
      · exact h.2
      · simp at hdue
    obtain ⟨w, hwtrace, -⟩ := runActuatorSet_trace hh hp hdef v data
    rw [List.append_cancel_left (hu.symm.trans hwtrace), hdata]
    exact ⟨handler, provider, hh, hp, w, by simp⟩
  | handleConfigurationSetCommand key items =>
    intro hmade
    simp only [configurationMade] at hmade
    split_ifs at hmade with hset
    · obtain ⟨handler, hh⟩ := Option.isSome_iff_exists.mp hset
      obtain ⟨provider, hp⟩ := Option.isSome_iff_exists.mp (hw.configuration.symm.trans hset)
      simp only [configurationDue] at hmade
      split_ifs at hmade with h
      · obtain ⟨w, hwtrace, -⟩ := runConfigurationSet_trace hh hp h.1 h.2 data
        rw [List.append_cancel_left (hu.symm.trans hwtrace), hdata]
        exact ⟨handler, provider, hh, hp, w, by simp⟩
      · simp at hmade
    · simp at hmade
  | _ => trivial

theorem carriedOut_reach (hw : Wired cfg.callbacks) (events : List Event) :
    ∀ before c devices after, (reach cfg P events).trace = before ++ .began c devices :: after →
      CarriedOut cfg before devices after c := by
  refine behind_starts (fun _ _ _ _ _ h => h.append) ?_ events
  intro s c queue u _ hu
  have hrun : (execute cfg s.devices s.clock (s.data.log (.began c s.devices)) c).data.trace =
      (s.data.log (.began c s.devices)).trace ++ u := by
    rw [DataState.log, List.append_assoc]
    exact hu
  exact carriedOut_execute hw rfl hrun

theorem step_refused {c : Command} {queue : List Command} (hr : s.running = [])
    (hq : s.queue = c :: queue) (hset : setCommand c = some c)
    (ha : actuationDue (c, s.devices) = none) (hc : configurationDue (c, s.devices) = none) :
    step cfg s .worker =
      { s with queue := queue, data := s.data.log (.began c s.devices) } := by
  have hexec : execute cfg s.devices s.clock (s.data.log (.began c s.devices)) c =
      ⟨s.data.log (.began c s.devices), s.devices, []⟩ := by
    cases c with
    | handleActuatorSetCommand key r v => exact execute_actuatorRefused ha _ _
    | handleConfigurationSetCommand key items => exact execute_configurationRefused hc _ _
    | _ => simp [setCommand] at hset
  simp only [step_begins hr hq, beginCommand, hexec, hr]

def actuationAsked : Command → Option (Str × Str × Str)
  | .handleActuatorSetCommand key reference value => some (key, reference, value)
  | _ => none

def configurationAsked : Command → Option (Str × List ConfigurationItem)
  | .handleConfigurationSetCommand key configuration => some (key, configuration)
  | _ => none

theorem filterMap_sublist {α β : Type} {f g : α → Option β}
    (h : ∀ a b, f a = some b → g a = some b) (l : List α) :
    (l.filterMap f).Sublist (l.filterMap g) := by
  induction l with
  | nil => exact List.Sublist.refl _
  | cons a l ih =>
    cases hf : f a with
    | none =>
      rw [List.filterMap_cons_none hf, List.filterMap_cons]
      cases g a with
      | none => exact ih
      | some b => exact ih.cons b
    | some b =>
      rw [List.filterMap_cons_some hf, List.filterMap_cons_some (h a b hf)]
      exact ih.cons_cons b

/-- Calls due for started set commands are among what the arrived messages ask for. -/
theorem SetsInOrder.sublist {α : Type} {due : Command × Registry → Option α}
    {ask : Command → Option α} (h : SetsInOrder cfg s)
    (hdue : ∀ c x, due c = some x → (setCommand c.1).bind ask = some x) :
    ((started s.trace).filterMap due).Sublist ((arrivals s.trace).filterMap fun message =>
      (requestedSet cfg.dataProtocol message).bind ask) := by
  have horder := congrArg (List.filterMap ask) h.order
  rw [List.filterMap_filterMap, List.filterMap_append, List.filterMap_append,
    List.filterMap_filterMap] at horder
  rw [horder, List.append_assoc]
  exact (filterMap_sublist hdue _).trans (List.sublist_append_left _ _)

/-- What holds of the inbound set commands in a state. -/
structure InboundSets (cfg : Config) (s : State P) : Prop where
  /-- Nothing that arrived is lost, duplicated or reordered on its way to the worker. -/
  order : (arrivals s.trace).filterMap (requestedSet cfg.dataProtocol) =
    (started s.trace).filterMap (fun c => setCommand c.1) ++ s.queue.filterMap setCommand ++
      s.inbox.filterMap (awaitedSet cfg.dataProtocol)
  /-- The handlers are called for the started commands that are due, and for no others. -/
  actuations : s.trace.filterMap actuation = (started s.trace).filterMap actuationDue
  configurations : s.trace.filterMap configured =
    (started s.trace).filterMap (configurationMade cfg.callbacks)
  /-- In the order of arrival, and at most once for each message. -/
  actuationsArrived : (s.trace.filterMap actuation).Sublist
    ((arrivals s.trace).filterMap fun message =>
      (requestedSet cfg.dataProtocol message).bind actuationAsked)
  configurationsArrived : (s.trace.filterMap configured).Sublist
    ((arrivals s.trace).filterMap fun message =>
      (requestedSet cfg.dataProtocol message).bind configurationAsked)
  /-- A command that is due goes on to ask the provider and to store its answer. -/
  carriedOut : ∀ before c devices after, s.trace = before ++ .began c devices :: after →
    CarriedOut cfg before devices after c
  /-- A command that is not due is as if it had not come. -/
  refused : ∀ c queue, s.running = [] → s.queue = c :: queue → setCommand c = some c →
    actuationDue (c, s.devices) = none → configurationDue (c, s.devices) = none →
    step cfg s .worker = { s with queue := queue, data := s.data.log (.began c s.devices) }

/-- In every run of a built Wolk, whatever the protocol makes of the messages, the actuation
handler, and the configuration handler if there is one, are called exactly for what arrived,
in order, and was due in the registry its command started in. -/
theorem inbound_commands_safe (P : Persistence) (builder : WolkBuilder) (core : CoreLibrary)
    (env : Environment) (cfg : Config) (hbuild : builder.build core env = .ok cfg)
    (events : List Event) : InboundSets cfg (reach cfg P events) := by
  have hw := wired_of_build hbuild
  have h := setsInOrder_reach (P := P) cfg events
  have hact := calls_eq (P := P) (actuations_made hw) events
  have hconf := calls_eq (P := P) (configurations_made hw) events
  refine ⟨h.order, hact, hconf, ?_, ?_, carriedOut_reach hw events,
    fun _ _ hr hq hset ha hc => step_refused hr hq hset ha hc⟩
  · rw [hact]
    apply h.sublist
    intro ⟨c, devices⟩ x hx
    cases c <;> simp only [actuationDue, reduceCtorEq] at hx
    split_ifs at hx
    exact hx
  · rw [hconf]
    apply h.sublist
    intro ⟨c, devices⟩ x hx
    rw [configurationMade, Option.ite_none_right_eq_some] at hx
    obtain ⟨-, hx⟩ := hx
    cases c <;> simp only [configurationDue, reduceCtorEq] at hx
    split_ifs at hx
    exact hx

def WolkBuilder.withConfiguration : WolkBuilder :=
  { WolkBuilder.bare with
    callbacks := ⟨⟨some 1, none⟩, ⟨some 2, none⟩, ⟨none, some 3⟩, ⟨none, some 4⟩, ⟨none, some 5⟩,
      none⟩ }

/-- A data protocol that takes every message on the channel `a` for an actuator set of the
device `a`. -/
def CoreLibrary.actuating : CoreLibrary :=
  { CoreLibrary.silent with
    dataProtocol := ⟨id, fun _ => false, fun _ => true, fun _ => false, fun _ => false,
      fun _ => none, fun message => some (['r'], message.content), fun _ => none⟩
    dataChannels := [['a']] }

def Config.actuating : Config :=
  { Config.bare .obliging with
    callbacks := WolkBuilder.withConfiguration.callbacks
    dataProtocol := CoreLibrary.actuating.dataProtocol
    inboundMessageHandler := InboundGatewayMessageHandler.empty.addListener .dataService [['a']] }

def setTwice : List Event :=
  [.inbound ['a'] ['1'], .inboundWorker, .worker,
    .api (.addDevice ⟨['a'], ['a'], ⟨[], [], [], [⟨['r'], []⟩]⟩⟩), .worker, .worker,
    .inbound ['a'] ['2'], .inboundWorker, .worker]

theorem inbound_commands_safe_setTwice :
    InboundSets .actuating (reach .actuating .inMemory setTwice) ∧
    (reach .actuating .inMemory setTwice).trace.filterMap actuation = [(['a'], ['r'], ['2'])] :=
  ⟨inbound_commands_safe .inMemory .withConfiguration .actuating .obliging .actuating rfl setTwice,
    by decide +kernel⟩

end WolkGateway.Wolk
