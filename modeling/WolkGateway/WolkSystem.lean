import WolkGateway.WolkBuilder
import WolkGateway.GuardedRuns

/-!
# The system

Wolk with its command buffer and worker, the firmware service and the inbound handler with
theirs, the threads of the user and of the connectivity service. One event is one atomic
step of one thread; a run is any sequence of events, so every interleaving is a run.
-/

namespace WolkGateway.Wolk
open DeviceModel DataService GuardedRuns

structure State (P : Persistence) where
  data : DataState P
  /-- `m_devices`. -/
  devices : Registry
  /-- `m_connected`. -/
  connected : Bool
  /-- What the worker has left to do of the command it is executing. -/
  running : List Atom
  /-- `m_commandBuffer`, oldest command first. -/
  queue : List Command
  /-- Connection-lost handlers that have cleared the flag and not yet called `connect`. -/
  lostHandlers : ℕ
  firmwareQueue : List FirmwareCommand
  inbox : List (Listener × InboundMessage)
  platformQueue : List ConnectivityStatus
  /-- What `currentRtc` returns. -/
  clock : ℕ

variable {P : Persistence}

def State.trace (s : State P) : Trace := s.data.trace

def State.initial (P : Persistence) : State P :=
  ⟨.initial P, ∅, false, [], [], 0, [], [], [], 0⟩

/-- The command buffer is empty: no command waits, and none is being executed. -/
def State.BufferEmpty (s : State P) : Prop := s.running = [] ∧ s.queue = []

def State.log (s : State P) (e : Effect) : State P := { s with data := s.data.log e }

def addToCommandBuffer (command : Command) (s : State P) : State P :=
  { s with queue := s.queue ++ [command] }

inductive ApiCall
  | addSensorReading (deviceKey reference value : Str) (rtc : ℕ)
  | addSensorReadings (deviceKey reference : Str) (values : List Str) (rtc : ℕ)
  | addAlarm (deviceKey reference : Str) (active : Bool) (rtc : ℕ)
  | publishActuatorStatus (deviceKey reference : Str)
  | publishActuatorStatusValue (deviceKey reference value : Str)
  | publishConfiguration (deviceKey : Str)
  | publishConfigurationValue (deviceKey : Str) (configurations : List ConfigurationItem)
  | addDeviceStatus (deviceKey : Str) (status : DeviceStatus)
  | connect (publishRightAway : Bool)
  | disconnect
  | publish
  | publishDevice (deviceKey : Str)
  | publishDeviceStatus (deviceKey : Str) (status : DeviceStatus)
  | addDevice (device : Device)
  | addAssetsToDevice (request : SubdeviceUpdateRequest)
  | removeDevice (deviceKey : Str)
  deriving DecidableEq

/-- The command a call made at time `now` puts in the buffer. A multi-value reading without
values puts none; an alarm without a time takes the time of the call, a reading does not. -/
def ApiCall.command (now : ℕ) : ApiCall → Option Command
  | .addSensorReading d r value rtc => some (.addSensorReading d r [value] rtc)
  | .addSensorReadings d r values rtc =>
    if values.isEmpty then none else some (.addSensorReading d r values rtc)
  | .addAlarm d r active rtc => some (.addAlarm d r active (if rtc = 0 then now else rtc))
  | .publishActuatorStatus d r => some (.handleActuatorGetCommand d r)
  | .publishActuatorStatusValue d r value => some (.publishActuatorStatus d r value)
  | .publishConfiguration d => some (.handleConfigurationGetCommand d)
  | .publishConfigurationValue d configurations => some (.publishConfiguration d configurations)
  | .addDeviceStatus d status => some (.addDeviceStatus d status)
  | .connect publishRightAway => some (.connect publishRightAway)
  | .disconnect => some .disconnect
  | .publish => some .publish
  | .publishDevice d => some (.publishDevice d)
  | .publishDeviceStatus d status => some (.publishDeviceStatus d status)
  | .addDevice device => some (.addDevice device)
  | .addAssetsToDevice request => some (.addAssetsToDevice request)
  | .removeDevice d => some (.removeDevice d)

inductive Event
  | api (call : ApiCall)
  /-- The worker takes its next atomic step. -/
  | worker
  /-- `m_connected = false` in the connection-lost handler. -/
  | connectionLost
  /-- `connect()` in the connection-lost handler. -/
  | connectionLostConnects
  /-- The connectivity service delivers a message. -/
  | inbound (channel payload : Str)
  /-- The worker of the inbound buffer handles its next message. -/
  | inboundWorker
  /-- The worker of the firmware service runs its next command. -/
  | firmwareWorker
  /-- The installer calls back from a thread of its own. -/
  | installCallback (deviceKey : Str) (success : Bool)
  | platformStatusWorker
  /-- Time passes. -/
  | tick (milliseconds : ℕ)
  deriving DecidableEq

variable (cfg : Config)

def runAtom (a : Atom) (s : State P) : State P :=
  match a with
  | .setConnected value => { s with connected := value }
  | .serviceDisconnect => s.log .disconnectCalled
  | .serviceReconnect => s.log (.reconnectCalled (cfg.env.reconnects s.trace))
  | .enqueue command => addToCommandBuffer command s
  | .enqueueFirmware command => { s with firmwareQueue := s.firmwareQueue ++ [command] }
  | .registerIfConnected device =>
    if s.connected then
      { s with running := .enqueue (.registerDevice device) :: .serviceReconnect :: s.running }
    else s
  | .updateIfConnected request =>
    if s.connected then
      { s with running := .enqueue (.updateDevice request) :: .storeAssets request :: s.running }
    else s
  | .storeAssets request =>
    match s.devices[request.deviceKey]? with
    | none => s
    | some device =>
      { s.log (.assetsStored request) with
        devices := s.devices.insert request.deviceKey (storeAssetsToDevice device request) }
  | .sleep milliseconds => { s.log (.slept milliseconds) with clock := s.clock + milliseconds }
  | .respond deviceKey result =>
    match cfg.callbacks.registrationResponseHandler with
    | some handler => s.log (.registrationResponseHandled handler deviceKey result)
    | none => s

/-- The worker takes the next command and does its own piece of it. -/
def beginCommand (command : Command) (queue : List Command) (s : State P) : State P :=
  let r := execute cfg s.devices s.clock (s.data.log (.began command s.devices)) command
  { s with data := r.data, devices := r.devices, running := r.rest, queue := queue }

def workerStep (s : State P) : State P :=
  match s.running with
  | a :: rest => runAtom cfg a { s with running := rest }
  | [] =>
    match s.queue with
    | [] => s
    | command :: queue => beginCommand cfg command queue s

def enqueueAll (commands : Option Command) (s : State P) : State P :=
  match commands with
  | none => s
  | some command => addToCommandBuffer command s

/-- `MessageListener::messageReceived` of each listener. -/
def deliver (listener : Listener) (message : InboundMessage) (s : State P) : State P :=
  match listener with
  | .dataService => enqueueAll (DataService.messageReceived cfg.dataProtocol message) s
  | .deviceStatusService =>
    enqueueAll (DeviceStatusService.messageReceived cfg.statusProtocol message) s
  | .deviceRegistrationService =>
    enqueueAll (DeviceRegistrationService.messageReceived cfg.registrationProtocol message) s
  | .firmwareUpdateService =>
    match FirmwareUpdateService.messageReceived cfg.firmwareUpdateProtocol message with
    | none => s
    | some command => { s with firmwareQueue := s.firmwareQueue ++ [command] }
  | .platformStatusService =>
    match PlatformStatusService.messageReceived message with
    | none => s
    | some status => { s with platformQueue := s.platformQueue ++ [status] }

def withFirmware (r : FirmwareUpdateService.Result P) (queue : List FirmwareCommand)
    (s : State P) : State P := { s with data := r.1, firmwareQueue := queue ++ r.2 }

def step (s : State P) : Event → State P
  | .api call => enqueueAll (call.command s.clock) s
  | .worker => workerStep cfg s
  | .connectionLost =>
    { s.log .connectionLost with connected := false, lostHandlers := s.lostHandlers + 1 }
  | .connectionLostConnects =>
    match s.lostHandlers with
    | 0 => s
    | n + 1 => addToCommandBuffer (.connect true) { s with lostHandlers := n }
  | .inbound channel payload =>
    match cfg.inboundMessageHandler.handlerFor cfg.mqttTopicMatch channel with
    | none => s
    | some listener =>
      { s.log (.received listener ⟨payload, channel⟩) with
        inbox := s.inbox ++ [(listener, ⟨payload, channel⟩)] }
  | .inboundWorker =>
    match s.inbox with
    | [] => s
    | (listener, message) :: inbox => deliver cfg listener message { s with inbox := inbox }
  | .firmwareWorker =>
    match s.firmwareQueue with
    | [] => s
    | command :: queue =>
      withFirmware (FirmwareUpdateService.runCommand cfg.env s.data command) queue s
  | .installCallback deviceKey success =>
    withFirmware (FirmwareUpdateService.calledBack cfg.env deviceKey success s.data)
      s.firmwareQueue s
  | .platformStatusWorker =>
    match s.platformQueue with
    | [] => s
    | status :: queue => { s.log (.platformStatusHandled status) with platformQueue := queue }
  | .tick milliseconds => { s with clock := s.clock + milliseconds }

variable {cfg}

theorem step_begins {s : State P} {command : Command} {queue : List Command}
    (hr : s.running = []) (hq : s.queue = command :: queue) :
    step cfg s .worker = beginCommand cfg command queue s := by
  simp only [step, workerStep, hr, hq]

theorem step_accesses {s : State P} {a : Atom} {rest : List Atom} (hr : s.running = a :: rest) :
    step cfg s .worker = runAtom cfg a { s with running := rest } := by
  simp only [step, workerStep, hr]

variable (cfg)

/-- The state a fresh Wolk reaches by a run. -/
def reach (P : Persistence) (events : List Event) : State P :=
  run (step cfg) (.initial P) events

def bareDevice (key : Str) : Device := ⟨key, key, ⟨[], [], [], []⟩⟩

def sensorDevice (key reference : Str) : Device := ⟨key, key, ⟨[], [⟨reference, []⟩], [], []⟩⟩

def actuatorDevice (key reference : Str) : Device :=
  ⟨key, key, ⟨[], [], [], [⟨reference, []⟩]⟩⟩

end WolkGateway.Wolk
