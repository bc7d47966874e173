import WolkGateway.FirmwareUpdateService
import WolkGateway.InboundGatewayMessageHandler

/-!
# The commands of Wolk

What the worker does for each command. The registry and the stored data belong to the
worker alone, so a command's work on them is one piece, `execute`. The connection flag and
the command buffers are shared with other threads: each access to them is an `Atom` of its
own, left for the worker to do after the piece, one at a time.
-/

namespace WolkGateway.Wolk
open DeviceModel DataService

/-- One of the two forms in which a user callback is held, identified by a number. -/
structure Callback where
  object : Option ℕ
  lambda : Option ℕ
  deriving DecidableEq

/-- The form that is called: the object if there is one. -/
def Callback.selected (c : Callback) : Option ℕ :=
  match c.object with
  | some id => some id
  | none => c.lambda

structure Callbacks where
  actuationHandler : Callback
  actuatorStatusProvider : Callback
  deviceStatusProvider : Callback
  configurationHandler : Callback
  configurationProvider : Callback
  registrationResponseHandler : Option ℕ
  deriving DecidableEq

/-- What a built `Wolk` is made of, and the environment it runs in. -/
structure Config where
  env : Environment
  callbacks : Callbacks
  dataProtocol : DataProtocol
  statusProtocol : DeviceStatusService.StatusProtocol
  registrationProtocol : DeviceRegistrationService.RegistrationProtocol
  firmwareUpdateProtocol : FirmwareUpdateService.FirmwareProtocol
  /-- Whether `m_firmwareUpdateService` is set. -/
  hasFirmwareUpdateService : Bool
  inboundMessageHandler : InboundGatewayMessageHandler Listener
  mqttTopicMatch : Str → Str → Bool

/-- An access of the worker to what it shares with other threads, within a command. -/
inductive Atom
  | setConnected (value : Bool)
  | serviceDisconnect
  | serviceReconnect
  | enqueue (command : Command)
  | enqueueFirmware (command : FirmwareCommand)
  /-- `if (m_connected)` in `addDevice`. -/
  | registerIfConnected (device : Device)
  /-- `if (m_connected)` in `addAssetsToDevice`. -/
  | updateIfConnected (request : SubdeviceUpdateRequest)
  | storeAssets (request : SubdeviceUpdateRequest)
  | sleep (milliseconds : ℕ)
  | respond (deviceKey : Str) (result : PlatformResult)
  deriving DecidableEq

section Bodies

variable {P : Persistence} (cfg : Config) (devices : Registry)

def refreshActuatorStatus (key reference : Str) (s : DataState P) : DataState P :=
  match cfg.callbacks.actuatorStatusProvider.selected with
  | some provider =>
    let status := cfg.env.actuatorStatus provider s.trace key reference
    addActuatorStatus key reference status.value status.state
      (s.log (.actuatorStatusProvided provider key reference status))
  | none => addActuatorStatus key reference [] .error s

def refreshConfiguration (key : Str) (s : DataState P) : DataState P :=
  match cfg.callbacks.configurationProvider.selected with
  | some provider =>
    let configuration := cfg.env.configuration provider s.trace key
    addConfiguration key configuration (s.log (.configurationProvided provider key configuration))
  | none => addConfiguration key [] s

def sendDeviceStatus (send : DeviceStatus → DataState P → DataState P) (key : Str)
    (s : DataState P) : DataState P :=
  match cfg.callbacks.deviceStatusProvider.selected with
  | some provider =>
    let status := cfg.env.deviceStatus provider s.trace key
    send status (s.log (.deviceStatusProvided provider key status))
  | none => send .offline s

def runAddSensorReading (now : ℕ) (deviceKey reference : Str) (values : List Str) (rtc : ℕ)
    (s : DataState P) : DataState P :=
  if !deviceExists devices deviceKey then s
  else if !sensorDefinedForDevice devices deviceKey reference then s
  else addSensorReading deviceKey reference values (if rtc ≠ 0 then rtc else now) s

def runAddAlarm (deviceKey reference : Str) (active : Bool) (rtc : ℕ) (s : DataState P) :
    DataState P :=
  if !deviceExists devices deviceKey then s
  else if !alarmDefinedForDevice devices deviceKey reference then s
  else addAlarm deviceKey reference active rtc s

def runPublishActuatorStatus (deviceKey reference value : Str) (s : DataState P) : DataState P :=
  publishActuatorStatusesOf cfg.env deviceKey (addActuatorStatus deviceKey reference value .ready s)

def runPublishConfiguration (deviceKey : Str) (configurations : List ConfigurationItem)
    (s : DataState P) : DataState P :=
  DataService.publishConfiguration cfg.env (addConfiguration deviceKey configurations s)

def runAddDeviceStatus (deviceKey : Str) (status : DeviceStatus) (s : DataState P) :
    DataState P :=
  if !deviceExists devices deviceKey then s
  else DeviceStatusService.publishDeviceStatusUpdate cfg.env deviceKey status s

def runPublish (s : DataState P) : DataState P :=
  publishSensorReadings cfg.env <| publishAlarms cfg.env <|
    DataService.publishConfiguration cfg.env <| publishActuatorStatuses cfg.env s

def runPublishDevice (deviceKey : Str) (s : DataState P) : DataState P :=
  if !deviceExists devices deviceKey then s
  else publishSensorReadingsOf cfg.env deviceKey <| publishAlarmsOf cfg.env deviceKey <|
    publishConfigurationOf cfg.env deviceKey <| publishActuatorStatusesOf cfg.env deviceKey s

def runActuatorSet (key reference value : Str) (s : DataState P) : DataState P :=
  if !deviceExists devices key then s
  else if !actuatorDefinedForDevice devices key reference then s
  else
    let s := match cfg.callbacks.actuationHandler.selected with
      | some handler => s.log (.actuationHandled handler key reference value)
      | none => s
    publishActuatorStatuses cfg.env (refreshActuatorStatus cfg key reference s)

/-- The statuses of one device's actuators are all stored, then everything is published. -/
def refreshDevice (device : Device) (s : DataState P) : DataState P :=
  publishActuatorStatuses cfg.env (device.getActuatorReferences.foldl
    (fun s reference => refreshActuatorStatus cfg device.key reference s) s)

def runActuatorGet (key reference : Str) (s : DataState P) : DataState P :=
  if key.isEmpty && reference.isEmpty then
    devices.toList.foldl (fun s kvp => refreshDevice cfg kvp.2 s) s
  else if !deviceExists devices key then s
  else if !actuatorDefinedForDevice devices key reference then s
  else publishActuatorStatuses cfg.env (refreshActuatorStatus cfg key reference s)

def runConfigurationSet (key : Str) (configuration : List ConfigurationItem) (s : DataState P) :
    DataState P :=
  if !deviceExists devices key then s
  else if configuration.any fun item =>
      !configurationItemDefinedForDevice devices key item.reference then s
  else
    let s := match cfg.callbacks.configurationHandler.selected with
      | some handler => s.log (.configurationHandled handler key configuration)
      | none => s
    DataService.publishConfiguration cfg.env (refreshConfiguration cfg key s)

def runConfigurationGet (key : Str) (s : DataState P) : DataState P :=
  if !deviceExists devices key then s
  else DataService.publishConfiguration cfg.env (refreshConfiguration cfg key s)

def runDeviceStatusRequest (key : Str) (s : DataState P) : DataState P :=
  if key.isEmpty then s
  else if !deviceExists devices key then s
  else sendDeviceStatus cfg (fun status =>
    DeviceStatusService.publishDeviceStatusResponse cfg.env key status) key s

def runRegisterDevices (s : DataState P) : DataState P :=
  devices.toList.foldl
    (fun s kvp => DeviceRegistrationService.publishRegistrationRequest cfg.env kvp.2 s) s

/-- The refreshes put in the buffer for one device. -/
def refreshAtoms (deviceKey : Str) (references : List Str) : List Atom :=
  references.map (fun reference => .enqueue (.handleActuatorGetCommand deviceKey reference)) ++
    [.enqueue (.handleConfigurationGetCommand deviceKey)]

/-- What follows a successful `ConnectivityService::connect`. -/
def connectedAtoms (publishRightAway : Bool) : List Atom :=
  [.setConnected true, .enqueue .registerDevices] ++
  if publishRightAway then
    [.enqueue .publishFirmwareVersions, .enqueue .publishDeviceStatuses] ++
    devices.toList.flatMap (fun kvp => refreshAtoms kvp.1 kvp.2.getActuatorReferences) ++
    [.enqueue .publish]
  else []

/-- What follows an `OK` response, for a registration and for an update alike. -/
def acknowledgedAtoms (deviceKey : Str) (result : PlatformResult) : List Atom :=
  if result = .ok then
    refreshAtoms deviceKey (getActuatorReferences devices deviceKey) ++
      [.enqueue (.publishFirmwareVersion deviceKey)]
  else []

/-- The data and the registry after the worker's own piece of a command, and what is left. -/
structure Executed (P : Persistence) where
  data : DataState P
  devices : Registry
  rest : List Atom

def execute (now : ℕ) (s : DataState P) : Command → Executed P
  | .addSensorReading d r values rtc =>
    ⟨runAddSensorReading devices now d r values rtc s, devices, []⟩
  | .addAlarm d r active rtc => ⟨runAddAlarm devices d r active rtc s, devices, []⟩
  | .publishActuatorStatus d r value => ⟨runPublishActuatorStatus cfg d r value s, devices, []⟩
  | .publishConfiguration d configurations =>
    ⟨runPublishConfiguration cfg d configurations s, devices, []⟩
  | .addDeviceStatus d status => ⟨runAddDeviceStatus cfg devices d status s, devices, []⟩
  | .connect publishRightAway =>
    let connected := cfg.env.connects s.trace
    ⟨s.log (.connectCalled connected), devices,
      if connected then connectedAtoms devices publishRightAway
      else [.sleep 2000, .enqueue (.connect publishRightAway)]⟩
  | .disconnect => ⟨s, devices, [.setConnected false, .serviceDisconnect]⟩
  | .publish => ⟨runPublish cfg s, devices, []⟩
  | .publishDevice d => ⟨runPublishDevice cfg devices d s, devices, []⟩
  | .addDevice device =>
    if deviceExists devices device.key then ⟨s, devices, []⟩
    else
      let devices := devices.insert device.key device
      ⟨DeviceStatusService.devicesUpdated cfg.env (getDeviceKeys devices)
        (s.log (.deviceAdded device)), devices, [.registerIfConnected device]⟩
  | .addAssetsToDevice request =>
    match devices[request.deviceKey]? with
    | none => ⟨s, devices, []⟩
    | some device =>
      if validateAssetsToUpdate device request then ⟨s, devices, [.updateIfConnected request]⟩
      else ⟨s, devices, []⟩
  | .removeDevice d =>
    if deviceExists devices d then ⟨s.log (.deviceRemoved d), devices.erase d, []⟩
    else ⟨s, devices, []⟩
  | .handleActuatorSetCommand key r value => ⟨runActuatorSet cfg devices key r value s, devices, []⟩
  | .handleActuatorGetCommand key r => ⟨runActuatorGet cfg devices key r s, devices, []⟩
  | .handleDeviceStatusRequest key =>
    ⟨runDeviceStatusRequest cfg devices key s, devices,
      if key.isEmpty then [.enqueue .publishDeviceStatuses] else []⟩
  | .handleConfigurationSetCommand key configuration =>
    ⟨runConfigurationSet cfg devices key configuration s, devices, []⟩
  | .handleConfigurationGetCommand key => ⟨runConfigurationGet cfg devices key s, devices, []⟩
  | .registerDevice device =>
    ⟨DeviceRegistrationService.publishRegistrationRequest cfg.env device s, devices, []⟩
  | .updateDevice request =>
    ⟨DeviceRegistrationService.publishUpdateRequest cfg.env request s, devices, []⟩
  | .registerDevices => ⟨runRegisterDevices cfg devices s, devices, []⟩
  | .publishFirmwareVersion d =>
    ⟨s, devices, if cfg.hasFirmwareUpdateService
      then [.enqueueFirmware (.publishFirmwareVersion d)] else []⟩
  | .publishFirmwareVersions =>
    ⟨s, devices, if cfg.hasFirmwareUpdateService
      then devices.toList.map fun kvp => .enqueueFirmware (.publishFirmwareVersion kvp.2.key)
      else []⟩
  | .publishDeviceStatuses =>
    ⟨s, devices, devices.toList.map fun kvp => .enqueue (.publishDeviceStatusOf kvp.2)⟩
  | .publishDeviceStatusOf device =>
    ⟨sendDeviceStatus cfg (fun status =>
      DeviceStatusService.publishDeviceStatusUpdate cfg.env device.key status) device.key s,
      devices, []⟩
  | .publishDeviceStatus d status =>
    ⟨DeviceStatusService.publishDeviceStatusUpdate cfg.env d status s, devices, []⟩
  | .handleRegistrationResponse d result =>
    if deviceExists devices d then
      ⟨s, devices, acknowledgedAtoms devices d result ++ [.respond d result]⟩
    else ⟨s, devices, []⟩
  | .handleUpdateResponse d result =>
    if deviceExists devices d then ⟨s, devices, acknowledgedAtoms devices d result⟩
    else ⟨s, devices, []⟩

end Bodies

end WolkGateway.Wolk
