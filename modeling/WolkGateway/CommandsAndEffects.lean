import WolkGateway.DeviceModel

/-!
# Commands, messages and the calls the module makes

`Command` lists the closures that `Wolk` puts in its command buffer, each with the values
it captures. `Effect` lists what can be observed of a run: the calls made to persistence,
to the connectivity service and to the user's callbacks, and the commands as they start.
Message encodings are symbolic: a message is the call of `makeMessage` that builds it.

Whatever the environment decides (a built or a null message, an accepted or a rejected
publish, a provider's answer) is a function of the calls made so far. Every such call is
itself recorded, so any pattern of outcomes is the pattern of some environment.
-/

namespace WolkGateway
open DeviceModel

inductive Command
  | addSensorReading (deviceKey reference : Str) (values : List Str) (rtc : ℕ)
  | addAlarm (deviceKey reference : Str) (active : Bool) (rtc : ℕ)
  | publishActuatorStatus (deviceKey reference value : Str)
  | publishConfiguration (deviceKey : Str) (configurations : List ConfigurationItem)
  | addDeviceStatus (deviceKey : Str) (status : DeviceStatus)
  | connect (publishRightAway : Bool)
  | disconnect
  | publish
  | publishDevice (deviceKey : Str)
  | addDevice (device : Device)
  | addAssetsToDevice (request : SubdeviceUpdateRequest)
  | removeDevice (deviceKey : Str)
  | handleActuatorSetCommand (key reference value : Str)
  | handleActuatorGetCommand (key reference : Str)
  | handleDeviceStatusRequest (key : Str)
  | handleConfigurationSetCommand (key : Str) (configuration : List ConfigurationItem)
  | handleConfigurationGetCommand (key : Str)
  | registerDevice (device : Device)
  | updateDevice (request : SubdeviceUpdateRequest)
  | registerDevices
  | publishFirmwareVersion (deviceKey : Str)
  | publishFirmwareVersions
  | publishDeviceStatuses
  /-- The command nested in `publishDeviceStatuses`, with the device it copied. -/
  | publishDeviceStatusOf (device : Device)
  | publishDeviceStatus (deviceKey : Str) (status : DeviceStatus)
  | handleRegistrationResponse (deviceKey : Str) (result : PlatformResult)
  | handleUpdateResponse (deviceKey : Str) (result : PlatformResult)
  deriving DecidableEq

structure FirmwareUpdateInstall where
  deviceKeys : List Str
  fileName : Str
  deriving DecidableEq

structure FirmwareUpdateAbort where
  deviceKeys : List Str
  deriving DecidableEq

/-- The closures `FirmwareUpdateService` puts in its own command buffer. -/
inductive FirmwareCommand
  | publishFirmwareVersion (deviceKey : Str)
  | install (command : FirmwareUpdateInstall)
  | abort (command : FirmwareUpdateAbort)
  deriving DecidableEq

inductive FirmwareUpdateStatus
  | installation | completed | aborted | installationFailed | fileSystemError
  deriving DecidableEq

inductive Family | sensorReadings | alarms | actuatorStatuses | configurations
  deriving DecidableEq

inductive Item
  | sensorReading (reading : SensorReading)
  | alarm (alarm : Alarm)
  | actuatorStatus (status : ActuatorStatus)
  | configuration (items : List ConfigurationItem)
  deriving DecidableEq

def Item.family : Item → Family
  | .sensorReading _ => .sensorReadings
  | .alarm _ => .alarms
  | .actuatorStatus _ => .actuatorStatuses
  | .configuration _ => .configurations

inductive OutboundMessage
  | data (family : Family) (deviceKey : Str) (items : List Item)
  | registrationRequest (device : Device)
  | updateRequest (request : SubdeviceUpdateRequest)
  | statusResponse (deviceKey : Str) (status : DeviceStatus)
  | statusUpdate (deviceKey : Str) (status : DeviceStatus)
  | lastWill (deviceKeys : List Str)
  | firmwareVersion (deviceKey version : Str)
  | firmwareStatus (deviceKey : Str) (status : FirmwareUpdateStatus)
  deriving DecidableEq

structure InboundMessage where
  content : Str
  channel : Str
  deriving DecidableEq

inductive Listener
  | firmwareUpdateService | platformStatusService | dataService | deviceStatusService
  | deviceRegistrationService
  deriving DecidableEq

inductive ConnectivityStatus | none | connected | offline deriving DecidableEq

/-- What became of one attempt to send: the persistence key did not parse, `makeMessage`
returned null, or `ConnectivityService::publish` returned false or true. -/
inductive Outcome | unparsable | unbuildable | rejected | accepted deriving DecidableEq

inductive Effect
  /-- The worker starts a command; `devices` is the registry it starts in. -/
  | began (command : Command) (devices : Registry)
  | deviceAdded (device : Device)
  | assetsStored (request : SubdeviceUpdateRequest)
  | deviceRemoved (deviceKey : Str)
  /-- A `DataService` call that puts an item into persistence. -/
  | added (deviceKey reference : Str) (item : Item)
  /-- One pass over a persistence key: the items fetched, the device the message is built
  for, and the outcome. Every outcome but `rejected` removes the items. -/
  | attempted (family : Family) (persistenceKey deviceKey : Str) (items : List Item)
      (outcome : Outcome)
  | sent (message : OutboundMessage) (outcome : Outcome)
  | setUncontrolledDisconnectMessage (deviceKeys : List Str)
  | connectCalled (result : Bool)
  | disconnectCalled
  | reconnectCalled (result : Bool)
  | connectionLost
  | slept (milliseconds : ℕ)
  | actuationHandled (handler : ℕ) (key reference value : Str)
  | actuatorStatusProvided (provider : ℕ) (key reference : Str) (status : ProvidedStatus)
  | configurationHandled (handler : ℕ) (key : Str) (configuration : List ConfigurationItem)
  | configurationProvided (provider : ℕ) (key : Str) (configuration : List ConfigurationItem)
  | deviceStatusProvided (provider : ℕ) (key : Str) (status : DeviceStatus)
  | registrationResponseHandled (handler : ℕ) (key : Str) (result : PlatformResult)
  | firmwareVersionProvided (key version : Str)
  | installCalled (deviceKey firmwareFile : Str)
  | abortCalled (deviceKey : Str) (result : Bool)
  | installCalledBack (deviceKey : Str) (success : Bool)
  /-- A message from the connectivity service put in a listener's inbound buffer. -/
  | received (listener : Listener) (message : InboundMessage)
  | platformStatusHandled (status : ConnectivityStatus)
  deriving DecidableEq

abbrev Trace := List Effect

/-- The message handed to `ConnectivityService::publish`, and whether it was accepted. -/
def Effect.handed : Effect → Option (OutboundMessage × Bool)
  | .attempted family _ deviceKey items .accepted => some (.data family deviceKey items, true)
  | .attempted family _ deviceKey items .rejected => some (.data family deviceKey items, false)
  | .sent message .accepted => some (message, true)
  | .sent message .rejected => some (message, false)
  | _ => none

/-- Everything outside the module that answers it. -/
structure Environment where
  makesMessage : Trace → OutboundMessage → Bool
  accepts : Trace → OutboundMessage → Bool
  connects : Trace → Bool
  reconnects : Trace → Bool
  actuatorStatus : ℕ → Trace → Str → Str → ProvidedStatus
  configuration : ℕ → Trace → Str → List ConfigurationItem
  deviceStatus : ℕ → Trace → Str → DeviceStatus
  firmwareVersion : Trace → Str → Str
  isFilePresent : Trace → Str → Bool
  /-- A callback made inside `FirmwareInstaller::install`, if there is one. -/
  installs : Trace → Str → Str → Option Bool
  aborts : Trace → Str → Bool

def Environment.obliging : Environment where
  makesMessage _ _ := true
  accepts _ _ := true
  connects _ := true
  reconnects _ := true
  actuatorStatus _ _ _ _ := ⟨[], .ready⟩
  configuration _ _ _ := []
  deviceStatus _ _ _ := .connected
  firmwareVersion _ _ := []
  isFilePresent _ _ := true
  installs _ _ _ := none
  aborts _ _ := true

/-- `makeMessage`, then `ConnectivityService::publish` unless it returned null. -/
def Environment.outcome (env : Environment) (trace : Trace) (message : OutboundMessage) : Outcome :=
  if !env.makesMessage trace message then .unbuildable
  else if env.accepts trace message then .accepted
  else .rejected

@[simp] theorem outcome_eq_accepted (env : Environment) (trace : Trace)
    (message : OutboundMessage) :
    env.outcome trace message = .accepted ↔
      env.makesMessage trace message = true ∧ env.accepts trace message = true := by
  unfold Environment.outcome
  split_ifs <;> simp_all

@[simp] theorem outcome_ne_unparsable (env : Environment) (trace : Trace)
    (message : OutboundMessage) :
    env.outcome trace message ≠ .unparsable := by
  unfold Environment.outcome
  split_ifs <;> simp

end WolkGateway
