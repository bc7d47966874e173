import WolkGateway.PublishingByDevice
import WolkGateway.WolkRegistry

/-!
# The gates of the entry points

Most commands that name a device check that it is registered, and that it declares the
reference, before they touch anything. Three do not: the two that publish a value handed
over by the user, and `publishDeviceStatus`. What a value handed over leaves behind is
nothing when no message can be built for it, or when it is what persistence holds already.
-/

namespace WolkGateway.Wolk
open DeviceModel DataService DataLedger GuardedRuns DataServiceCalls DataServicePublishing
open KeyPublishing PublishingByDevice

/-- The command names a device that is not registered, or a sensor, an alarm or an actuator
its device does not declare. Broadcasts name no device. -/
def NamesUnknown (devices : Registry) : Command → Prop
  | .addSensorReading d r _ _ => d ∉ devices ∨ sensorDefinedForDevice devices d r = false
  | .addAlarm d r _ _ => d ∉ devices ∨ alarmDefinedForDevice devices d r = false
  | .publishActuatorStatus d r _ | .handleActuatorSetCommand d r _ =>
    d ∉ devices ∨ actuatorDefinedForDevice devices d r = false
  | .handleActuatorGetCommand d r =>
    ¬ (d = [] ∧ r = []) ∧ (d ∉ devices ∨ actuatorDefinedForDevice devices d r = false)
  | .publishConfiguration d _ | .handleConfigurationGetCommand d
  | .handleConfigurationSetCommand d _ | .addDeviceStatus d _ | .publishDeviceStatus d _
  | .publishDevice d => d ∉ devices
  | .handleDeviceStatusRequest d => d ≠ [] ∧ d ∉ devices
  | .addAssetsToDevice request => request.deviceKey ∉ devices
  | _ => False

/-- The attempt at the item goes without a call to `publish`. -/
def Discards (env : Environment) (trace : Trace) (family : Family) (key : Str) (item : Item) :
    Prop :=
  (family ≠ .configurations ∧ ¬ Parses key) ∨
    env.makesMessage trace (.data family (deviceOf family key) [item]) = false

variable {P : Persistence} {cfg : Config} {s : State P}

/-- Persistence holds what it held, the registry is as before, nothing was handed to
`publish`, and nothing is left to do. -/
structure Untouched (s t : State P) : Prop where
  store : contentsOf t.data = contentsOf s.data
  registry : t.devices = s.devices
  calls : ∀ u, t.trace = s.trace ++ u → ∀ e ∈ u, e.handed = none
  running : t.running = []

/-- The command checks the device it names, or what it stores and sends comes to nothing. A
configuration is published together with all others, an actuator status together with those
of its device, and under a device key with a `+` not at all. -/
def Gated (cfg : Config) (s : State P) (c : Command) : Prop :=
  match c with
  | .publishActuatorStatus d r value =>
    let key := makePersistenceKey d r
    let item := Item.actuatorStatus ⟨value, r, .ready⟩
    if PERSISTENCE_KEY_DELIMITER ∈ d then contentsOf s.data .actuatorStatuses key = [item]
    else (∀ k, deviceOf .actuatorStatuses k = d → contentsOf s.data .actuatorStatuses k = []) ∧
      Discards cfg.env (s.trace ++ [.began c s.devices, .added d r item]) .actuatorStatuses key
        item
  | .publishConfiguration d values =>
    let item := Item.configuration values
    (∀ k, contentsOf s.data .configurations k = []) ∧
      Discards cfg.env (s.trace ++ [.began c s.devices, .added d [] item]) .configurations d item
  | .publishDeviceStatus d status =>
    cfg.env.makesMessage (s.trace ++ [.began c s.devices]) (.statusUpdate d status) = false
  | _ => True

section Quietly

variable {env : Environment} {family : Family} {key : Str}

theorem discards_iff {trace : Trace} {item : Item} : Discards env trace family key item ↔
    (Effect.attempted family key (deviceOf family key) [item]
      (attemptOutcome env trace family key [item])).handed = none := by
  unfold Discards attemptOutcome
  by_cases hk : family ≠ .configurations ∧ ¬ Parses key
  · simp [hk, Effect.handed]
  rw [if_neg hk, or_iff_right hk, Environment.outcome]
  cases env.makesMessage trace (.data family (deviceOf family key) [item]) <;>
    cases env.accepts trace (.data family (deviceOf family key) [item]) <;> simp [Effect.handed]

/-- Behind a put only its key is visited, when nothing else is pending there. -/
theorem visits_one {s s₁ : DataState P} {p : Str → Bool} {item : Item}
    (hs₁ : contentsOf s₁ = setAt (contentsOf s) family key [item]) (hp : p key = true)
    (h : ∀ k, p k = true → contentsOf s family k = []) :
    (keysOf family s₁).filter p = [key] := by
  refine List.perm_singleton.mp ((List.perm_ext_iff_of_nodup
    ((keysOf_nodup family s₁).filter p) (List.nodup_singleton key)).mpr fun k => ?_)
  rw [List.mem_filter, mem_keysOf, hs₁, List.mem_singleton]
  constructor
  · rintro ⟨hne, hpk⟩
    by_contra hk
    exact hne (by simp [setAt, hk, h k hpk])
  · rintro rfl
    exact ⟨by simp [setAt], hp⟩

/-- A put and the publishing behind it come to nothing if and only if nothing else is
published, and the item is discarded. -/
theorem publishes_quietly_iff (hf : keepsAll family = false) {s s₁ t : DataState P}
    {p : Str → Bool} {item : Item}
    (hs₁ : contentsOf s₁ = setAt (contentsOf s) family key [item]) (hp : p key = true)
    (ht : t = ((keysOf family s₁).filter p).foldl (fun s k => publishKey env family k s) s₁) :
    (contentsOf t = contentsOf s ∧ ∀ es, t.trace = s₁.trace ++ es → ∀ e ∈ es, e.handed = none) ↔
      (∀ k, p k = true → contentsOf s family k = []) ∧ Discards env s₁.trace family key item := by
  have hitem : contentsOf s₁ family key = [item] := by simp [hs₁, setAt]
  obtain ⟨htrace, hcontents⟩ := @publishKey_single P env family key s₁ item hitem
  constructor
  · rintro ⟨hc, hq⟩
    have hm : Moves env IsAttempt s₁ t := by
      rw [ht]
      exact .foldl _ (fun k _ s => publishKey_attempts family k s) s₁
    have hempty : ∀ k, p k = true → contentsOf s family k = [] := by
      intro k hk
      obtain ⟨es, hes, -⟩ := hm.trace_eq
      rw [← hc]
      refine emptied_of_unhanded hf hm ?_ hes (hq es hes)
      by_cases hk₁ : contentsOf s₁ family k = []
      · exact (Settles.of_nil hk₁).trans_right hm
      · rw [ht]
        exact .foldl (List.mem_filter.mpr ⟨(mem_keysOf family s₁ k).mpr hk₁, hk⟩)
          (publishKey_attempts family) (publishKey_settles family) s₁
    rw [visits_one hs₁ hp hempty, List.foldl_cons, List.foldl_nil] at ht
    subst ht
    exact ⟨hempty, discards_iff.mpr (hq _ htrace _ (List.mem_singleton_self _))⟩
  · rintro ⟨hempty, hd⟩
    rw [visits_one hs₁ hp hempty, List.foldl_cons, List.foldl_nil] at ht
    subst ht
    have hhanded := discards_iff.mp hd
    constructor
    · have hr : attemptOutcome env s₁.trace family key [item] ≠ .rejected := by
        intro hr
        rw [hr] at hhanded
        cases hhanded
      funext f k
      rw [hcontents hr, hs₁]
      by_cases hk : f = family ∧ k = key
      · obtain ⟨rfl, rfl⟩ := hk
        simp [setAt, hempty k hp]
      · simp [setAt, hk]
    · intro es hes e he
      rw [List.append_cancel_left (hes.symm.trans htrace), List.mem_singleton] at he
      rw [he]
      exact hhanded

end Quietly

theorem untouched_of_execute {c : Command} {queue : List Command}
    (h : execute cfg s.devices s.clock (s.data.log (.began c s.devices)) c =
      ⟨s.data.log (.began c s.devices), s.devices, []⟩) :
    Untouched s (beginCommand cfg c queue s) := by
  have hb : (beginCommand cfg c queue s).data = s.data.log (.began c s.devices) := by
    simp [beginCommand, h]
  refine ⟨by rw [hb]; rfl, by simp [beginCommand, h], fun u hu e he => ?_,
    by simp [beginCommand, h]⟩
  have hlog : (beginCommand cfg c queue s).trace = s.trace ++ [.began c s.devices] := by
    simp [State.trace, hb, DataState.log]
  rw [List.append_cancel_left (hu.symm.trans hlog), List.mem_singleton] at he
  rw [he]
  rfl

theorem execute_eq_of_gated {c : Command} (hn : NamesUnknown s.devices c) (data : DataState P)
    (h1 : ∀ d r v, c ≠ .publishActuatorStatus d r v) (h2 : ∀ d v, c ≠ .publishConfiguration d v)
    (h3 : ∀ d v, c ≠ .publishDeviceStatus d v) (now : ℕ) :
    execute cfg s.devices now data c = ⟨data, s.devices, []⟩ := by
  cases c with
  | addSensorReading d r values rtc =>
    rcases hn with hn | hn <;> simp [execute, runAddSensorReading, hn]
  | addAlarm d r active rtc => rcases hn with hn | hn <;> simp [execute, runAddAlarm, hn]
  | handleActuatorSetCommand d r v =>
    rcases hn with hn | hn <;> simp [execute, runActuatorSet, hn]
  | handleActuatorGetCommand d r =>
    obtain ⟨hb, hn | hn⟩ := hn <;>
      simp [execute, runActuatorGet, hn, List.isEmpty_iff, hb]
  | handleConfigurationGetCommand d =>
    simp [execute, runConfigurationGet, show d ∉ s.devices from hn]
  | handleConfigurationSetCommand d v =>
    simp [execute, runConfigurationSet, show d ∉ s.devices from hn]
  | addDeviceStatus d v => simp [execute, runAddDeviceStatus, show d ∉ s.devices from hn]
  | publishDevice d => simp [execute, runPublishDevice, show d ∉ s.devices from hn]
  | handleDeviceStatusRequest d =>
    obtain ⟨hb, hn⟩ := hn
    simp [execute, runDeviceStatusRequest, List.isEmpty_iff, hb, hn]
  | addAssetsToDevice request =>
    simp [execute, Std.ExtTreeMap.getElem?_eq_none (show request.deviceKey ∉ s.devices from hn)]
  | publishActuatorStatus d r v => exact absurd rfl (h1 d r v)
  | publishConfiguration d v => exact absurd rfl (h2 d v)
  | publishDeviceStatus d v => exact absurd rfl (h3 d v)
  | _ => exact hn.elim

/-- A command that stores a value first, judged by what follows the put. -/
theorem untouched_iff_of_put {t : State P} {c : Command} {s₁ : DataState P} (d r : Str)
    (item : Item) {allowed : Effect → Prop} (hdevices : t.devices = s.devices)
    (hrunning : t.running = []) (hs₁ : s₁.trace = s.trace ++ [.began c s.devices, .added d r item])
    (hm : Moves cfg.env allowed s₁ t.data) :
    Untouched s t ↔ contentsOf t.data = contentsOf s.data ∧
      ∀ es, t.data.trace = s₁.trace ++ es → ∀ e ∈ es, e.handed = none := by
  constructor
  · intro h
    refine ⟨h.store, fun es hes e he => ?_⟩
    have htrace : t.trace = s.trace ++ ([.began c s.devices, .added d r item] ++ es) := by
      rw [State.trace, hes, hs₁, List.append_assoc]
    exact h.calls _ htrace e (List.mem_append_right _ he)
  · rintro ⟨hc, hq⟩
    refine ⟨hc, hdevices, fun u hu e he => ?_, hrunning⟩
    obtain ⟨es, hes, -⟩ := hm.trace_eq
    rw [State.trace, hes, hs₁, List.append_assoc] at hu
    rw [← List.append_cancel_left hu] at he
    rcases List.mem_append.mp he with he | he
    · simp only [List.mem_cons, List.not_mem_nil, or_false] at he
      rcases he with rfl | rfl <;> rfl
    · exact hq es hes e he

/-- No key splits at a `+` behind the first. -/
theorem publishActuatorStatusesOf_of_delimiter {d : Str} (h : PERSISTENCE_KEY_DELIMITER ∈ d)
    (data : DataState P) : publishActuatorStatusesOf cfg.env d data = data := by
  have hnone : findMatchingPersistanceKeys d (P.actuatorStatuses.keys data.actuatorStatuses) =
      [] := by
    refine List.filter_eq_nil_iff.mpr fun key _ hkey => ?_
    apply delimiter_not_mem_parsePersistenceKey key
    rwa [of_decide_eq_true hkey]
  rw [publishActuatorStatusesOf, hnone, List.foldl_nil]

theorem untouched_publishActuatorStatus_iff {d r value : Str} {queue : List Command} :
    Untouched s (beginCommand cfg (.publishActuatorStatus d r value) queue s) ↔
      Gated cfg s (.publishActuatorStatus d r value) := by
  set began := s.data.log (.began (.publishActuatorStatus d r value) s.devices)
  set s₁ := addActuatorStatus d r value .ready began with hs₁
  set t := publishActuatorStatusesOf cfg.env d s₁ with ht
  have htrace : s₁.trace = s.trace ++ [.began (.publishActuatorStatus d r value) s.devices,
      .added d r (.actuatorStatus ⟨value, r, .ready⟩)] := List.append_assoc _ _ _
  have hput : contentsOf s₁ = setAt (contentsOf s.data) .actuatorStatuses
      (makePersistenceKey d r) [.actuatorStatus ⟨value, r, .ready⟩] :=
    contentsOf_addActuatorStatus d r value .ready began
  have hiff : Untouched s (beginCommand cfg (.publishActuatorStatus d r value) queue s) ↔
      contentsOf t = contentsOf s.data ∧
        ∀ es, t.trace = s₁.trace ++ es → ∀ e ∈ es, e.handed = none :=
    untouched_iff_of_put d r _ rfl rfl htrace (publishActuatorStatusesOf_moves d s₁)
  rw [hiff]
  simp only [Gated]
  split_ifs with hplus
  · rw [ht, publishActuatorStatusesOf_of_delimiter hplus, hput]
    constructor
    · rintro ⟨hc, -⟩
      rw [← hc]
      simp [setAt]
    · intro hc
      refine ⟨?_, fun es hes e he => ?_⟩
      · funext f k
        by_cases hk : f = .actuatorStatuses ∧ k = makePersistenceKey d r
        · obtain ⟨rfl, rfl⟩ := hk
          simp [setAt, hc]
        · simp [setAt, hk]
      · rw [List.self_eq_append_right.mp hes] at he
        cases he
  · have hall : t = ((keysOf .actuatorStatuses s₁).filter fun k =>
        deviceOf .actuatorStatuses k = d).foldl
        (fun s k => publishKey cfg.env .actuatorStatuses k s) s₁ :=
      publishFamilyOf_eq cfg.env (show Family.actuatorStatuses ≠ .configurations by decide) d s₁
    have hd : deviceOf .actuatorStatuses (makePersistenceKey d r) = d := by
      simp [deviceOf, parsePersistenceKey_makePersistenceKey r hplus]
    rw [publishes_quietly_iff (p := fun k => deviceOf .actuatorStatuses k = d)
      (show keepsAll .actuatorStatuses = false from rfl) hput (decide_eq_true hd) hall, htrace]
    simp only [decide_eq_true_eq]

theorem untouched_publishConfiguration_iff {d : Str} {values : List ConfigurationItem}
    {queue : List Command} :
    Untouched s (beginCommand cfg (.publishConfiguration d values) queue s) ↔
      Gated cfg s (.publishConfiguration d values) := by
  set began := s.data.log (.began (.publishConfiguration d values) s.devices)
  set s₁ := addConfiguration d values began with hs₁
  set t := DataService.publishConfiguration cfg.env s₁ with ht
  have htrace : s₁.trace = s.trace ++ [.began (.publishConfiguration d values) s.devices,
      .added d [] (.configuration values)] := List.append_assoc _ _ _
  have hput : contentsOf s₁ = setAt (contentsOf s.data) .configurations d
      [.configuration values] := contentsOf_addConfiguration d values began
  have hiff : Untouched s (beginCommand cfg (.publishConfiguration d values) queue s) ↔
      contentsOf t = contentsOf s.data ∧
        ∀ es, t.trace = s₁.trace ++ es → ∀ e ∈ es, e.handed = none :=
    untouched_iff_of_put d [] _ rfl rfl htrace (publishConfiguration_moves s₁)
  have hall : t = ((keysOf .configurations s₁).filter fun _ => true).foldl
      (fun s k => publishKey cfg.env .configurations k s) s₁ := by
    rw [List.filter_true]
    exact publishFamily_eq cfg.env .configurations s₁
  rw [hiff, publishes_quietly_iff (show keepsAll .configurations = false from rfl) hput rfl hall,
    htrace]
  simp only [Gated, forall_const]

theorem untouched_publishDeviceStatus_iff {d : Str} {status : DeviceStatus}
    {queue : List Command} :
    Untouched s (beginCommand cfg (.publishDeviceStatus d status) queue s) ↔
      Gated cfg s (.publishDeviceStatus d status) := by
  set began := s.trace ++ [Effect.began (.publishDeviceStatus d status) s.devices] with hbegan
  have htrace : (beginCommand cfg (.publishDeviceStatus d status) queue s).trace = s.trace ++
      [Effect.began (.publishDeviceStatus d status) s.devices,
        .sent (.statusUpdate d status) (cfg.env.outcome began (.statusUpdate d status))] := by
    simp [beginCommand, execute, DeviceStatusService.publishDeviceStatusUpdate, DataState.send,
      DataState.log, State.trace, hbegan]
  have hgated : Gated cfg s (.publishDeviceStatus d status) ↔
      cfg.env.makesMessage began (.statusUpdate d status) = false := Iff.rfl
  rw [hgated]
  constructor
  · intro h
    have hnone := (h.calls _ htrace (.sent (.statusUpdate d status)
      (cfg.env.outcome began (.statusUpdate d status))) (by simp))
    by_contra hmake
    rw [Bool.not_eq_false] at hmake
    rw [Environment.outcome, hmake] at hnone
    cases hacc : cfg.env.accepts began (.statusUpdate d status) <;>
      simp [hacc, Effect.handed] at hnone
  · intro hmake
    refine ⟨rfl, rfl, fun u hu e he => ?_, rfl⟩
    rw [List.append_cancel_left (hu.symm.trans htrace)] at he
    simp only [List.mem_cons, List.not_mem_nil, or_false] at he
    rcases he with rfl | rfl
    · rfl
    · simp [Environment.outcome, hmake, Effect.handed]

/-- A command that names an unknown device, or an undeclared reference, leaves everything as
it was if and only if it is one that checks, or what it stores and sends comes to nothing. -/
theorem unknown_device_gate_iff (P : Persistence) (cfg : Config) (events : List Event)
    (c : Command) (queue : List Command) (hr : (reach cfg P events).running = [])
    (hq : (reach cfg P events).queue = c :: queue)
    (hn : NamesUnknown (reach cfg P events).devices c) :
    Untouched (reach cfg P events) (step cfg (reach cfg P events) .worker) ↔
      Gated cfg (reach cfg P events) c := by
  generalize reach cfg P events = s at hr hq hn ⊢
  rw [step_begins hr hq]
  cases c with
  | publishActuatorStatus d r v => exact untouched_publishActuatorStatus_iff
  | publishConfiguration d v => exact untouched_publishConfiguration_iff
  | publishDeviceStatus d status => exact untouched_publishDeviceStatus_iff
  | _ =>
    refine iff_of_true (untouched_of_execute ?_) trivial
    exact execute_eq_of_gated hn _ (by simp) (by simp) (by simp) _

/-- The module is connected and holds a reading of its device; the next reading is for a
device that is not there. -/
def readingForUnknown : List Event :=
  Event.api (.addDevice (sensorDevice ['a'] ['s'])) :: .api (.connect false) ::
    List.replicate 6 Event.worker ++
    [Event.api (.addSensorReading ['a'] ['s'] ['1'] 0), .worker,
      Event.api (.addSensorReading ['x'] ['s'] ['2'] 0)]

theorem unknown_device_gate_reading :
    let s := reach (.bare .obliging) .inMemory readingForUnknown
    s.connected = true ∧ ['a'] ∈ s.devices ∧
    contentsOf s.data .sensorReadings (makePersistenceKey ['a'] ['s']) ≠ [] ∧
    Untouched s (step (.bare .obliging) s .worker) :=
  ⟨by decide +kernel, by decide +kernel, by decide +kernel,
    (unknown_device_gate_iff .inMemory (.bare .obliging) readingForUnknown
      (.addSensorReading ['x'] ['s'] [['2']] 0) [] (by decide +kernel) (by decide +kernel)
      (.inl (by decide +kernel))).mpr trivial⟩

def statusForUnknown : List Event :=
  Event.api (.connect false) :: List.replicate 6 Event.worker ++
    [Event.api (.publishActuatorStatusValue ['x'] ['r'] ['1'])]

theorem unknown_device_published :
    let s := reach (.bare .obliging) .inMemory statusForUnknown
    s.running = [] ∧ s.queue = [.publishActuatorStatus ['x'] ['r'] ['1']] ∧
    NamesUnknown s.devices (.publishActuatorStatus ['x'] ['r'] ['1']) ∧
    (some (.data .actuatorStatuses ['x'] [.actuatorStatus ⟨['1'], ['r'], .ready⟩], true)) ∈
      (step (.bare .obliging) s .worker).trace.map Effect.handed ∧
    ¬ Untouched s (step (.bare .obliging) s .worker) := by
  refine ⟨by decide +kernel, by decide +kernel, .inl (by decide +kernel), by decide +kernel, ?_⟩
  intro h
  cases h.calls ((step (.bare .obliging) (reach (.bare .obliging) .inMemory statusForUnknown)
      .worker).trace.drop
        (reach (.bare .obliging) .inMemory statusForUnknown).trace.length) (by decide +kernel)
    (.attempted .actuatorStatuses ['x', '+', 'r'] ['x']
      [.actuatorStatus ⟨['1'], ['r'], .ready⟩] .accepted) (by decide +kernel)

end WolkGateway.Wolk
