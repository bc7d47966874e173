import WolkGateway.WolkSystem
import WolkGateway.DataLedger

/-!
# What a step can do

`MayEmit` lists, command by command, the calls the command may make and under which
checks. Every later invariant is read off this list instead of the command bodies.
-/

namespace WolkGateway.Wolk
open DeviceModel DataService DataLedger GuardedRuns

def publishesData : Command → Bool
  | .publish | .publishDevice _ | .publishActuatorStatus .. | .publishConfiguration ..
  | .handleActuatorSetCommand .. | .handleActuatorGetCommand ..
  | .handleConfigurationSetCommand .. | .handleConfigurationGetCommand .. => true
  | _ => false

/-- The actuators whose status a command asks the provider for. -/
inductive Refreshes (devices : Registry) : Command → Str → Str → Prop
  | set (key reference value : Str) (h : actuatorDefinedForDevice devices key reference = true) :
      Refreshes devices (.handleActuatorSetCommand key reference value) key reference
  | get (key reference : Str) (h : actuatorDefinedForDevice devices key reference = true) :
      Refreshes devices (.handleActuatorGetCommand key reference) key reference
  | broadcast (key : Str) (device : Device) (reference : Str) (hk : devices[key]? = some device)
      (hr : reference ∈ device.getActuatorReferences) :
      Refreshes devices (.handleActuatorGetCommand [] []) device.key reference

inductive RefreshesConfiguration (devices : Registry) : Command → Str → Prop
  | set (key : Str) (configuration : List ConfigurationItem) (h : key ∈ devices)
      (hdef : ∀ item ∈ configuration,
        configurationItemDefinedForDevice devices key item.reference = true) :
      RefreshesConfiguration devices (.handleConfigurationSetCommand key configuration) key
  | get (key : Str) (h : key ∈ devices) :
      RefreshesConfiguration devices (.handleConfigurationGetCommand key) key

inductive AsksStatus (devices : Registry) : Command → Str → Prop
  | request (key : Str) (h : key ∈ devices) :
      AsksStatus devices (.handleDeviceStatusRequest key) key
  | nested (device : Device) : AsksStatus devices (.publishDeviceStatusOf device) device.key

/-- The messages a command sends past persistence. -/
inductive Sends (devices : Registry) : Command → OutboundMessage → Prop
  | addDeviceStatus (d : Str) (status : DeviceStatus) (h : d ∈ devices) :
      Sends devices (.addDeviceStatus d status) (.statusUpdate d status)
  | publishDeviceStatus (d : Str) (status : DeviceStatus) :
      Sends devices (.publishDeviceStatus d status) (.statusUpdate d status)
  | nested (device : Device) (status : DeviceStatus) :
      Sends devices (.publishDeviceStatusOf device) (.statusUpdate device.key status)
  | request (key : Str) (status : DeviceStatus) (h : key ∈ devices) :
      Sends devices (.handleDeviceStatusRequest key) (.statusResponse key status)
  | registerDevice (device : Device) :
      Sends devices (.registerDevice device) (.registrationRequest device)
  | registerDevices (key : Str) (device : Device) (h : devices[key]? = some device) :
      Sends devices .registerDevices (.registrationRequest device)
  | updateDevice (request : SubdeviceUpdateRequest) :
      Sends devices (.updateDevice request) (.updateRequest request)
  | lastWill (device : Device) (deviceKeys : List Str) :
      Sends devices (.addDevice device) (.lastWill deviceKeys)

/-- The calls a command may make, started with the registry `devices`. -/
inductive MayEmit (devices : Registry) : Command → Effect → Prop
  | sensorReading (d r : Str) (values : List Str) (rtc time : ℕ) (hd : d ∈ devices)
      (h : sensorDefinedForDevice devices d r = true) :
      MayEmit devices (.addSensorReading d r values rtc)
        (.added d r (.sensorReading ⟨values, r, time⟩))
  | alarm (d r : Str) (active : Bool) (rtc : ℕ) (hd : d ∈ devices)
      (h : alarmDefinedForDevice devices d r = true) :
      MayEmit devices (.addAlarm d r active rtc) (.added d r (.alarm ⟨active, r, rtc⟩))
  | actuatorStatusValue (d r value : Str) :
      MayEmit devices (.publishActuatorStatus d r value)
        (.added d r (.actuatorStatus ⟨value, r, .ready⟩))
  | configurationValue (d : Str) (configurations : List ConfigurationItem) :
      MayEmit devices (.publishConfiguration d configurations)
        (.added d [] (.configuration configurations))
  | actuatorStatusProvided (c : Command) (p : ℕ) (d r : Str) (status : ProvidedStatus)
      (h : Refreshes devices c d r) : MayEmit devices c (.actuatorStatusProvided p d r status)
  | actuatorStatus (c : Command) (d r : Str) (status : ActuatorStatus)
      (h : Refreshes devices c d r) : MayEmit devices c (.added d r (.actuatorStatus status))
  | configurationProvided (c : Command) (p : ℕ) (d : Str) (configuration : List ConfigurationItem)
      (h : RefreshesConfiguration devices c d) :
      MayEmit devices c (.configurationProvided p d configuration)
  | configuration (c : Command) (d : Str) (configuration : List ConfigurationItem)
      (h : RefreshesConfiguration devices c d) :
      MayEmit devices c (.added d [] (.configuration configuration))
  | actuationHandled (handler : ℕ) (key r value : Str)
      (h : actuatorDefinedForDevice devices key r = true) :
      MayEmit devices (.handleActuatorSetCommand key r value)
        (.actuationHandled handler key r value)
  | configurationHandled (handler : ℕ) (key : Str) (configuration : List ConfigurationItem)
      (h : key ∈ devices) (hdef : ∀ item ∈ configuration,
        configurationItemDefinedForDevice devices key item.reference = true) :
      MayEmit devices (.handleConfigurationSetCommand key configuration)
        (.configurationHandled handler key configuration)
  | attempted (c : Command) (f : Family) (k d : Str) (items : List Item) (outcome : Outcome)
      (h : publishesData c = true) : MayEmit devices c (.attempted f k d items outcome)
  | deviceStatusProvided (c : Command) (p : ℕ) (d : Str) (status : DeviceStatus)
      (h : AsksStatus devices c d) : MayEmit devices c (.deviceStatusProvided p d status)
  | sent (c : Command) (message : OutboundMessage) (outcome : Outcome)
      (h : Sends devices c message) : MayEmit devices c (.sent message outcome)
  | connectCalled (publishRightAway result : Bool) :
      MayEmit devices (.connect publishRightAway) (.connectCalled result)
  | deviceAdded (device : Device) (h : device.key ∉ devices) :
      MayEmit devices (.addDevice device) (.deviceAdded device)
  | lastWill (device : Device) (h : device.key ∉ devices) :
      MayEmit devices (.addDevice device)
        (.setUncontrolledDisconnectMessage (getDeviceKeys (devices.insert device.key device)))
  | deviceRemoved (d : Str) (h : d ∈ devices) :
      MayEmit devices (.removeDevice d) (.deviceRemoved d)

variable {P : Persistence} {cfg : Config} {devices : Registry} {allowed : Effect → Prop}

theorem send_moves (message : OutboundMessage) (s : DataState P)
    (h : ∀ outcome, allowed (.sent message outcome)) :
    Moves cfg.env allowed s (s.send cfg.env message) :=
  log_moves s _ (h _) rfl

theorem refreshActuatorStatus_moves (key reference : Str) (s : DataState P)
    (hp : ∀ p status, allowed (.actuatorStatusProvided p key reference status))
    (ha : ∀ status, allowed (.added key reference (.actuatorStatus status))) :
    Moves cfg.env allowed s (refreshActuatorStatus cfg key reference s) := by
  have hadd : ∀ value state (s : DataState P),
      Moves cfg.env allowed s (addActuatorStatus key reference value state s) := by
    intro value state s
    refine (addActuatorStatus_moves key reference value state s).mono ?_
    rintro _ rfl
    exact ha _
  unfold refreshActuatorStatus
  split
  · exact (log_moves s _ (hp _ _) trivial).trans (hadd _ _ _)
  · exact hadd _ _ _

theorem refreshConfiguration_moves (key : Str) (s : DataState P)
    (hp : ∀ p configuration, allowed (.configurationProvided p key configuration))
    (ha : ∀ configuration, allowed (.added key [] (.configuration configuration))) :
    Moves cfg.env allowed s (refreshConfiguration cfg key s) := by
  have hadd : ∀ configuration (s : DataState P),
      Moves cfg.env allowed s (addConfiguration key configuration s) := by
    intro configuration s
    refine (addConfiguration_moves key configuration s).mono ?_
    rintro _ rfl
    exact ha _
  unfold refreshConfiguration
  split
  · exact (log_moves s _ (hp _ _) trivial).trans (hadd _ _)
  · exact hadd _ _

theorem sendDeviceStatus_moves (send : DeviceStatus → DataState P → DataState P) (key : Str)
    (s : DataState P) (hp : ∀ p status, allowed (.deviceStatusProvided p key status))
    (hs : ∀ status s, Moves cfg.env allowed s (send status s)) :
    Moves cfg.env allowed s (sendDeviceStatus cfg send key s) := by
  unfold sendDeviceStatus
  split
  · exact (log_moves s _ (hp _ _) trivial).trans (hs _ _)
  · exact hs _ _

theorem mayEmit_attempt {c : Command} (h : publishesData c = true) {family : Family}
    {keys : Str → Prop} (e : Effect) (he : AttemptAt family keys e) : MayEmit devices c e := by
  obtain ⟨k, d, items, o, rfl, -⟩ := he
  exact .attempted c family k d items o h

theorem runPublish_moves (s : DataState P) :
    Moves cfg.env (MayEmit devices .publish) s (runPublish cfg s) :=
  ((publishActuatorStatuses_moves s).mono (mayEmit_attempt rfl)).trans <|
    ((publishConfiguration_moves _).mono (mayEmit_attempt rfl)).trans <|
    ((publishAlarms_moves _).mono (mayEmit_attempt rfl)).trans
      ((publishSensorReadings_moves _).mono (mayEmit_attempt rfl))

theorem runPublishDevice_moves (d : Str) (s : DataState P) :
    Moves cfg.env (MayEmit devices (.publishDevice d)) s (runPublishDevice cfg devices d s) := by
  unfold runPublishDevice
  split
  · exact .refl _ _
  · exact ((publishActuatorStatusesOf_moves d s).mono (mayEmit_attempt rfl)).trans <|
      ((publishConfigurationOf_moves d _).mono (mayEmit_attempt rfl)).trans <|
      ((publishAlarmsOf_moves d _).mono (mayEmit_attempt rfl)).trans
        ((publishSensorReadingsOf_moves d _).mono (mayEmit_attempt rfl))

theorem refresh_moves {c : Command} {key reference : Str} (hc : publishesData c = true)
    (h : Refreshes devices c key reference) (s : DataState P) :
    Moves cfg.env (MayEmit devices c) s
      (publishActuatorStatuses cfg.env (refreshActuatorStatus cfg key reference s)) :=
  (refreshActuatorStatus_moves key reference s
    (fun p status => .actuatorStatusProvided c p key reference status h)
    (fun status => .actuatorStatus c key reference status h)).trans
    ((publishActuatorStatuses_moves _).mono (mayEmit_attempt hc))

theorem refreshConfigurationAndPublish_moves {c : Command} {key : Str}
    (hc : publishesData c = true) (h : RefreshesConfiguration devices c key) (s : DataState P) :
    Moves cfg.env (MayEmit devices c) s
      (DataService.publishConfiguration cfg.env (refreshConfiguration cfg key s)) :=
  (refreshConfiguration_moves key s
    (fun p configuration => .configurationProvided c p key configuration h)
    (fun configuration => .configuration c key configuration h)).trans
    ((publishConfiguration_moves _).mono (mayEmit_attempt hc))

theorem runAddSensorReading_moves (now : ℕ) (d r : Str) (values : List Str) (rtc : ℕ)
    (s : DataState P) :
    Moves cfg.env (MayEmit devices (.addSensorReading d r values rtc)) s
      (runAddSensorReading devices now d r values rtc s) := by
  unfold runAddSensorReading
  split_ifs with h1 h2
  · exact .refl _ _
  · exact .refl _ _
  all_goals
    refine (addSensorReading_moves d r values _ s).mono ?_
    rintro _ rfl
    exact .sensorReading d r values _ _ (by simpa using h1) (by simpa using h2)

theorem runAddAlarm_moves (d r : Str) (active : Bool) (rtc : ℕ) (s : DataState P) :
    Moves cfg.env (MayEmit devices (.addAlarm d r active rtc)) s
      (runAddAlarm devices d r active rtc s) := by
  unfold runAddAlarm
  split_ifs with h1 h2
  · exact .refl _ _
  · exact .refl _ _
  · refine (addAlarm_moves d r active rtc s).mono ?_
    rintro _ rfl
    exact .alarm d r active rtc (by simpa using h1) (by simpa using h2)

theorem runPublishActuatorStatus_moves (d r value : Str) (s : DataState P) :
    Moves cfg.env (MayEmit devices (.publishActuatorStatus d r value)) s
      (runPublishActuatorStatus cfg d r value s) := by
  refine Moves.trans ((addActuatorStatus_moves d r value .ready s).mono ?_)
    ((publishActuatorStatusesOf_moves d _).mono (mayEmit_attempt rfl))
  rintro _ rfl
  exact .actuatorStatusValue d r value

theorem runPublishConfiguration_moves (d : Str) (configurations : List ConfigurationItem)
    (s : DataState P) :
    Moves cfg.env (MayEmit devices (.publishConfiguration d configurations)) s
      (runPublishConfiguration cfg d configurations s) := by
  refine Moves.trans ((addConfiguration_moves d configurations s).mono ?_)
    ((publishConfiguration_moves _).mono (mayEmit_attempt rfl))
  rintro _ rfl
  exact .configurationValue d configurations

theorem runAddDeviceStatus_moves (d : Str) (status : DeviceStatus) (s : DataState P) :
    Moves cfg.env (MayEmit devices (.addDeviceStatus d status)) s
      (runAddDeviceStatus cfg devices d status s) := by
  unfold runAddDeviceStatus
  split_ifs with h
  · exact .refl _ _
  · exact send_moves _ s fun outcome =>
      .sent _ _ outcome (.addDeviceStatus d status (by simpa using h))

theorem runDeviceStatusRequest_moves (key : Str) (s : DataState P) :
    Moves cfg.env (MayEmit devices (.handleDeviceStatusRequest key)) s
      (runDeviceStatusRequest cfg devices key s) := by
  unfold runDeviceStatusRequest
  split_ifs with h1 h2
  · exact .refl _ _
  · exact .refl _ _
  · have hk : key ∈ devices := by simpa using h2
    exact sendDeviceStatus_moves _ key s
      (fun p status => .deviceStatusProvided _ p key status (.request key hk))
      (fun status s => send_moves _ s fun outcome => .sent _ _ outcome (.request key status hk))

theorem runConfigurationGet_moves (key : Str) (s : DataState P) :
    Moves cfg.env (MayEmit devices (.handleConfigurationGetCommand key)) s
      (runConfigurationGet cfg devices key s) := by
  unfold runConfigurationGet
  split_ifs with h
  · exact .refl _ _
  · exact refreshConfigurationAndPublish_moves rfl (.get key (by simpa using h)) s

theorem runActuatorSet_moves (key r value : Str) (s : DataState P) :
    Moves cfg.env (MayEmit devices (.handleActuatorSetCommand key r value)) s
      (runActuatorSet cfg devices key r value s) := by
  unfold runActuatorSet
  split_ifs with h1 h2
  · exact .refl _ _
  · exact .refl _ _
  · have hdef : actuatorDefinedForDevice devices key r = true := by simpa using h2
    dsimp only
    split
    · exact Moves.trans (log_moves s _ (.actuationHandled _ key r value hdef) trivial)
        (refresh_moves rfl (.set key r value hdef) _)
    · exact refresh_moves rfl (.set key r value hdef) _

theorem runActuatorGet_moves (key r : Str) (s : DataState P) :
    Moves cfg.env (MayEmit devices (.handleActuatorGetCommand key r)) s
      (runActuatorGet cfg devices key r s) := by
  unfold runActuatorGet
  split_ifs with h0 h1 h2
  · obtain ⟨rfl, rfl⟩ : key = [] ∧ r = [] := by simpa [List.isEmpty_iff] using h0
    refine .foldl _ (fun kvp hkvp s => ?_) s
    have hk : devices[kvp.1]? = some kvp.2 :=
      Std.ExtTreeMap.mem_toList_iff_getElem?_eq_some.mp hkvp
    refine Moves.trans (.foldl _ (fun r hr s => ?_) s)
      ((publishActuatorStatuses_moves _).mono (mayEmit_attempt rfl))
    exact refreshActuatorStatus_moves _ _ _
      (fun p status => .actuatorStatusProvided _ p _ _ status (.broadcast _ _ _ hk hr))
      (fun status => .actuatorStatus _ _ _ status (.broadcast _ _ _ hk hr))
  · exact .refl _ _
  · exact .refl _ _
  · exact refresh_moves rfl (.get key r (by simpa using h2)) s

theorem runConfigurationSet_moves (key : Str) (configuration : List ConfigurationItem)
    (s : DataState P) :
    Moves cfg.env (MayEmit devices (.handleConfigurationSetCommand key configuration)) s
      (runConfigurationSet cfg devices key configuration s) := by
  unfold runConfigurationSet
  split_ifs with h1 h2
  · exact .refl _ _
  · exact .refl _ _
  · have hk : key ∈ devices := by simpa using h1
    have hdef : ∀ item ∈ configuration,
        configurationItemDefinedForDevice devices key item.reference = true := by simpa using h2
    dsimp only
    split
    · exact Moves.trans (log_moves s _ (.configurationHandled _ key configuration hk hdef) trivial)
        (refreshConfigurationAndPublish_moves rfl (.set key configuration hk hdef) _)
    · exact refreshConfigurationAndPublish_moves rfl (.set key configuration hk hdef) _

theorem runRegisterDevices_moves (s : DataState P) :
    Moves cfg.env (MayEmit devices .registerDevices) s (runRegisterDevices cfg devices s) := by
  refine .foldl _ (fun kvp hkvp s => ?_) s
  have hk : devices[kvp.1]? = some kvp.2 :=
    Std.ExtTreeMap.mem_toList_iff_getElem?_eq_some.mp hkvp
  exact send_moves _ s fun outcome => .sent _ _ outcome (.registerDevices kvp.1 kvp.2 hk)

theorem devicesUpdated_moves (deviceKeys : List Str) (s : DataState P)
    (h1 : ∀ outcome, allowed (.sent (.lastWill deviceKeys) outcome))
    (h2 : allowed (.setUncontrolledDisconnectMessage deviceKeys)) :
    Moves cfg.env allowed s (DeviceStatusService.devicesUpdated cfg.env deviceKeys s) := by
  unfold DeviceStatusService.devicesUpdated
  split_ifs with h
  · refine log_moves s _ (h1 _) ?_
    simp only [Unrelated, Environment.outcome, h, if_true]
  · exact log_moves s _ h2 trivial

/-- A command makes only the calls listed for it. -/
theorem execute_moves (cfg : Config) (devices : Registry) (now : ℕ) (s : DataState P)
    (c : Command) :
    Moves cfg.env (MayEmit devices c) s (execute cfg devices now s c).data := by
  cases c with
  | addSensorReading d r values rtc => exact runAddSensorReading_moves now d r values rtc s
  | addAlarm d r active rtc => exact runAddAlarm_moves d r active rtc s
  | publishActuatorStatus d r value => exact runPublishActuatorStatus_moves d r value s
  | publishConfiguration d configurations => exact runPublishConfiguration_moves d configurations s
  | addDeviceStatus d status => exact runAddDeviceStatus_moves d status s
  | connect publishRightAway =>
    exact log_moves s _ (.connectCalled publishRightAway _) trivial
  | publish => exact runPublish_moves s
  | publishDevice d => exact runPublishDevice_moves d s
  | addDevice device =>
    simp only [execute]
    split_ifs with h
    · exact .refl _ _
    · have hk : device.key ∉ devices := by simpa using h
      exact Moves.trans (log_moves s _ (.deviceAdded device hk) trivial)
        (devicesUpdated_moves _ _ (fun outcome => .sent _ _ outcome (.lastWill device _))
          (.lastWill device hk))
  | addAssetsToDevice request =>
    simp only [execute]
    split
    · exact .refl _ _
    · split_ifs <;> exact .refl _ _
  | removeDevice d =>
    simp only [execute]
    split_ifs with h
    · exact log_moves s _ (.deviceRemoved d (by simpa using h)) trivial
    · exact .refl _ _
  | handleActuatorSetCommand key r value => exact runActuatorSet_moves key r value s
  | handleActuatorGetCommand key r => exact runActuatorGet_moves key r s
  | handleDeviceStatusRequest key => exact runDeviceStatusRequest_moves key s
  | handleConfigurationSetCommand key configuration =>
    exact runConfigurationSet_moves key configuration s
  | handleConfigurationGetCommand key => exact runConfigurationGet_moves key s
  | registerDevice device =>
    exact send_moves _ s fun outcome => .sent _ _ outcome (.registerDevice device)
  | updateDevice request =>
    exact send_moves _ s fun outcome => .sent _ _ outcome (.updateDevice request)
  | registerDevices => exact runRegisterDevices_moves s
  | publishDeviceStatusOf device =>
    exact sendDeviceStatus_moves _ device.key s
      (fun p status => .deviceStatusProvided _ p device.key status (.nested device))
      (fun status s => send_moves _ s fun outcome => .sent _ _ outcome (.nested device status))
  | publishDeviceStatus d status =>
    exact send_moves _ s fun outcome => .sent _ _ outcome (.publishDeviceStatus d status)
  | handleRegistrationResponse | handleUpdateResponse =>
    simp only [execute]
    split_ifs <;> exact .refl _ _
  | disconnect | publishFirmwareVersion | publishFirmwareVersions | publishDeviceStatuses =>
    exact .refl _ _

end WolkGateway.Wolk
