import WolkGateway.WolkStepEffects
import WolkGateway.Transcripts

/-!
# The cases of a step

Every step of the system is one of five: a command is put in the buffer from outside, the
worker begins a command, the worker does one access of it, the connection is lost, or
another thread acts aside. Invariants of the system are proved by these cases. A command
starts in one of them only, so what a trace holds behind a start is settled in that step.
-/

namespace WolkGateway.Wolk
open DeviceModel DataService DataLedger GuardedRuns Transcripts

/-- What is put in the buffer again for one device. -/
inductive Refreshing (key : Str) : Command → Prop
  | actuator (reference : Str) : Refreshing key (.handleActuatorGetCommand key reference)
  | configuration : Refreshing key (.handleConfigurationGetCommand key)

/-- What a command can leave for the worker to do after its own piece. -/
inductive Leaves (devices : Registry) : Command → Atom → Prop
  | setConnected (b : Bool) : Leaves devices (.connect b) (.setConnected true)
  | registerDevices (b : Bool) : Leaves devices (.connect b) (.enqueue .registerDevices)
  | firmwareVersions : Leaves devices (.connect true) (.enqueue .publishFirmwareVersions)
  | deviceStatuses : Leaves devices (.connect true) (.enqueue .publishDeviceStatuses)
  | refresh (key : Str) (command : Command) (h : key ∈ devices) (hc : Refreshing key command) :
      Leaves devices (.connect true) (.enqueue command)
  | publish : Leaves devices (.connect true) (.enqueue .publish)
  | sleep (b : Bool) : Leaves devices (.connect b) (.sleep 2000)
  | retry (b : Bool) : Leaves devices (.connect b) (.enqueue (.connect b))
  | clearConnected : Leaves devices .disconnect (.setConnected false)
  | serviceDisconnect : Leaves devices .disconnect .serviceDisconnect
  | registerIfConnected (device : Device) (h : device.key ∉ devices) :
      Leaves devices (.addDevice device) (.registerIfConnected device)
  | updateIfConnected (request : SubdeviceUpdateRequest) (device : Device)
      (h : devices[request.deviceKey]? = some device)
      (hv : validateAssetsToUpdate device request = true) :
      Leaves devices (.addAssetsToDevice request) (.updateIfConnected request)
  | statusesRequested : Leaves devices (.handleDeviceStatusRequest [])
      (.enqueue .publishDeviceStatuses)
  | firmwareVersion (d : Str) : Leaves devices (.publishFirmwareVersion d)
      (.enqueueFirmware (.publishFirmwareVersion d))
  | eachFirmwareVersion (key : Str) (device : Device) (h : devices[key]? = some device) :
      Leaves devices .publishFirmwareVersions
        (.enqueueFirmware (.publishFirmwareVersion device.key))
  | eachDeviceStatus (key : Str) (device : Device) (h : devices[key]? = some device) :
      Leaves devices .publishDeviceStatuses (.enqueue (.publishDeviceStatusOf device))
  | respond (d : Str) (result : PlatformResult) :
      Leaves devices (.handleRegistrationResponse d result) (.respond d result)
  | acknowledged (d : Str) (c command : Command) (h : d ∈ devices)
      (hc : Refreshing d command ∨ command = .publishFirmwareVersion d)
      (hr : (∃ result, c = .handleRegistrationResponse d result) ∨
        ∃ result, c = .handleUpdateResponse d result) : Leaves devices c (.enqueue command)

variable {P : Persistence} {cfg : Config} {devices : Registry}

theorem mem_refreshAtoms {key : Str} {references : List Str} {a : Atom}
    (h : a ∈ refreshAtoms key references) : ∃ command, a = .enqueue command ∧
      Refreshing key command := by
  simp only [refreshAtoms, List.mem_append, List.mem_map, List.mem_singleton] at h
  rcases h with ⟨reference, -, rfl⟩ | rfl
  · exact ⟨_, rfl, .actuator reference⟩
  · exact ⟨_, rfl, .configuration⟩

theorem mem_of_mem_toList {kvp : Str × Device} (h : kvp ∈ devices.toList) : kvp.1 ∈ devices := by
  have hk : devices[kvp.1]? = some kvp.2 := Std.ExtTreeMap.mem_toList_iff_getElem?_eq_some.mp h
  by_contra hn
  simp [Std.ExtTreeMap.getElem?_eq_none hn] at hk

theorem mem_connectedAtoms {b : Bool} {a : Atom} (h : a ∈ connectedAtoms devices b) :
    Leaves devices (.connect b) a := by
  simp only [connectedAtoms, List.mem_append, List.mem_cons, List.not_mem_nil, or_false] at h
  rcases h with (rfl | rfl) | h
  · exact .setConnected b
  · exact .registerDevices b
  · split_ifs at h with hb
    · subst hb
      simp only [List.mem_append, List.mem_cons, List.not_mem_nil, or_false,
        List.mem_flatMap] at h
      rcases h with ((rfl | rfl) | ⟨kvp, hkvp, h⟩) | rfl
      · exact .firmwareVersions
      · exact .deviceStatuses
      · obtain ⟨command, rfl, hc⟩ := mem_refreshAtoms h
        exact .refresh kvp.1 command (mem_of_mem_toList hkvp) hc
      · exact .publish
    · simp at h

theorem mem_acknowledgedAtoms {d : Str} {result : PlatformResult} {a : Atom} {c : Command}
    (h : a ∈ acknowledgedAtoms devices d result) (hd : d ∈ devices)
    (hr : (∃ result, c = .handleRegistrationResponse d result) ∨
      ∃ result, c = .handleUpdateResponse d result) : Leaves devices c a := by
  unfold acknowledgedAtoms at h
  split_ifs at h
  · rcases List.mem_append.mp h with h | h
    · obtain ⟨command, rfl, hc⟩ := mem_refreshAtoms h
      exact .acknowledged d c command hd (.inl hc) hr
    · rw [List.mem_singleton.mp h]
      exact .acknowledged d c _ hd (.inr rfl) hr
  · simp at h

theorem leaves_connect {now : ℕ} {s : DataState P} {b : Bool} {a : Atom}
    (h : a ∈ (execute cfg devices now s (.connect b)).rest) : Leaves devices (.connect b) a := by
  simp only [execute] at h
  split_ifs at h
  · exact mem_connectedAtoms h
  · simp only [List.mem_cons, List.not_mem_nil, or_false] at h
    rcases h with rfl | rfl
    · exact .sleep b
    · exact .retry b

theorem leaves_addAssetsToDevice {now : ℕ} {s : DataState P} {request : SubdeviceUpdateRequest}
    {a : Atom} (h : a ∈ (execute cfg devices now s (.addAssetsToDevice request)).rest) :
    Leaves devices (.addAssetsToDevice request) a := by
  simp only [execute] at h
  split at h
  · simp at h
  · rename_i device hdev
    split_ifs at h with hv
    · rw [List.mem_singleton.mp h]
      exact .updateIfConnected request device hdev hv
    · simp at h

/-- Whatever is left after a command is listed for it. -/
theorem leaves_of_mem {now : ℕ} {s : DataState P} {c : Command} {a : Atom}
    (h : a ∈ (execute cfg devices now s c).rest) : Leaves devices c a := by
  cases c with
  | connect b => exact leaves_connect h
  | disconnect =>
    simp only [execute, List.mem_cons, List.not_mem_nil, or_false] at h
    rcases h with rfl | rfl
    · exact .clearConnected
    · exact .serviceDisconnect
  | addDevice device =>
    simp only [execute] at h
    split_ifs at h with hk
    · simp at h
    · rw [List.mem_singleton.mp h]
      exact .registerIfConnected device (by simpa using hk)
  | addAssetsToDevice request => exact leaves_addAssetsToDevice h
  | removeDevice d =>
    simp only [execute] at h
    split_ifs at h <;> simp at h
  | handleDeviceStatusRequest key =>
    simp only [execute] at h
    split_ifs at h with hk
    · rw [List.isEmpty_iff] at hk
      subst hk
      rw [List.mem_singleton.mp h]
      exact .statusesRequested
    · simp at h
  | publishFirmwareVersion d =>
    simp only [execute] at h
    split_ifs at h
    · rw [List.mem_singleton.mp h]
      exact .firmwareVersion d
    · simp at h
  | publishFirmwareVersions =>
    simp only [execute] at h
    split_ifs at h
    · obtain ⟨kvp, hkvp, rfl⟩ := List.mem_map.mp h
      exact .eachFirmwareVersion kvp.1 kvp.2
        (Std.ExtTreeMap.mem_toList_iff_getElem?_eq_some.mp hkvp)
    · simp at h
  | publishDeviceStatuses =>
    obtain ⟨kvp, hkvp, rfl⟩ := List.mem_map.mp h
    exact .eachDeviceStatus kvp.1 kvp.2 (Std.ExtTreeMap.mem_toList_iff_getElem?_eq_some.mp hkvp)
  | handleRegistrationResponse d result =>
    simp only [execute] at h
    split_ifs at h with hd
    · rcases List.mem_append.mp h with h | h
      · exact mem_acknowledgedAtoms h (by simpa using hd) (.inl ⟨result, rfl⟩)
      · rw [List.mem_singleton.mp h]
        exact .respond d result
    · simp at h
  | handleUpdateResponse d result =>
    simp only [execute] at h
    split_ifs at h with hd
    · exact mem_acknowledgedAtoms h (by simpa using hd) (.inr ⟨result, rfl⟩)
    · simp at h
  | _ => simp [execute] at h

/-- A command put in the buffer by the user, by an inbound message or by the
connection-lost handler. -/
inductive Requested (cfg : Config) (s : State P) : Event → Command → Prop
  | api (call : ApiCall) (c : Command) (h : call.command s.clock = some c) :
      Requested cfg s (.api call) c
  | data (message : InboundMessage) (rest : List (Listener × InboundMessage)) (c : Command)
      (hi : s.inbox = (.dataService, message) :: rest)
      (h : DataService.messageReceived cfg.dataProtocol message = some c) :
      Requested cfg s .inboundWorker c
  | status (key : Str) : Requested cfg s .inboundWorker (.handleDeviceStatusRequest key)
  | registration (key : Str) (result : PlatformResult) :
      Requested cfg s .inboundWorker (.handleRegistrationResponse key result)
  | connectionLost (h : s.lostHandlers ≠ 0) :
      Requested cfg s .connectionLostConnects (.connect true)

theorem requested_connect {s : State P} {e : Event} {b : Bool}
    (h : Requested cfg s e (.connect b)) :
    e = .api (.connect b) ∨ (e = .connectionLostConnects ∧ s.lostHandlers ≠ 0) := by
  cases h with
  | api call _ h =>
    cases call with
    | connect b' => exact .inl (by simpa [ApiCall.command] using h)
    | addSensorReadings =>
      simp only [ApiCall.command] at h
      split_ifs at h
      simp at h
    | _ => simp [ApiCall.command] at h
  | data message _ _ _ h => cases received_of_messageReceived h
  | connectionLost h => exact .inr ⟨rfl, h⟩

/-- The calls made by the firmware service and by the threads that put messages in its
and the other inbound buffers. -/
inductive Aside (s : State P) : Event → Effect → Prop
  | received (channel payload : Str) (listener : Listener) :
      Aside s (.inbound channel payload) (.received listener ⟨payload, channel⟩)
  | versionProvided (d version : Str) (rest : List FirmwareCommand)
      (h : s.firmwareQueue = .publishFirmwareVersion d :: rest) :
      Aside s .firmwareWorker (.firmwareVersionProvided d version)
  | version (d version : Str) (outcome : Outcome) (rest : List FirmwareCommand)
      (h : s.firmwareQueue = .publishFirmwareVersion d :: rest) :
      Aside s .firmwareWorker (.sent (.firmwareVersion d version) outcome)
  | status (e : Event) (d : Str) (status : FirmwareUpdateStatus) (outcome : Outcome) :
      Aside s e (.sent (.firmwareStatus d status) outcome)
  | install (d file : Str) : Aside s .firmwareWorker (.installCalled d file)
  | abort (d : Str) (result : Bool) : Aside s .firmwareWorker (.abortCalled d result)
  | calledBack (e : Event) (d : Str) (success : Bool) : Aside s e (.installCalledBack d success)
  | platformStatus (status : ConnectivityStatus) :
      Aside s .platformStatusWorker (.platformStatusHandled status)

/-- The calls made by one access of the worker. -/
inductive Accesses : Atom → Effect → Prop
  | disconnected : Accesses .serviceDisconnect .disconnectCalled
  | reconnected (result : Bool) : Accesses .serviceReconnect (.reconnectCalled result)
  | stored (request : SubdeviceUpdateRequest) :
      Accesses (.storeAssets request) (.assetsStored request)
  | slept (milliseconds : ℕ) : Accesses (.sleep milliseconds) (.slept milliseconds)
  | responded (handler : ℕ) (d : Str) (result : PlatformResult) :
      Accesses (.respond d result) (.registrationResponseHandled handler d result)

theorem runAtom_moves (cfg : Config) (a : Atom) (s : State P) :
    Moves cfg.env (Accesses a) s.data (runAtom cfg a s).data := by
  cases a with
  | serviceDisconnect => exact log_moves _ _ .disconnected trivial
  | serviceReconnect => exact log_moves _ _ (.reconnected _) trivial
  | sleep n => exact log_moves _ _ (.slept n) trivial
  | registerIfConnected device =>
    simp only [runAtom]
    split_ifs <;> exact .refl _ _
  | updateIfConnected request =>
    simp only [runAtom]
    split_ifs <;> exact .refl _ _
  | storeAssets request =>
    simp only [runAtom]
    split
    · exact .refl _ _
    · exact log_moves _ _ (.stored request) trivial
  | respond d result =>
    simp only [runAtom]
    split
    · rename_i handler _
      exact log_moves _ _ (.responded handler d result) trivial
    · exact .refl _ _
  | _ => exact .refl _ _

def Atom.enqueues : Atom → List Command
  | .enqueue command => [command]
  | _ => []

def Atom.enqueuesFirmware : Atom → List FirmwareCommand
  | .enqueueFirmware command => [command]
  | _ => []

/-- The accesses a check of the connection flag leads to. -/
def Atom.expands (connected : Bool) : Atom → List Atom
  | .registerIfConnected device =>
    if connected then [.enqueue (.registerDevice device), .serviceReconnect] else []
  | .updateIfConnected request =>
    if connected then [.enqueue (.updateDevice request), .storeAssets request] else []
  | _ => []

@[simp] theorem runAtom_queue (a : Atom) (s : State P) :
    (runAtom cfg a s).queue = s.queue ++ a.enqueues := by
  cases a <;> simp only [runAtom, Atom.enqueues, List.append_nil, State.log, addToCommandBuffer]
  all_goals split <;> rfl

@[simp] theorem runAtom_firmwareQueue (a : Atom) (s : State P) :
    (runAtom cfg a s).firmwareQueue = s.firmwareQueue ++ a.enqueuesFirmware := by
  cases a <;> simp only [runAtom, Atom.enqueuesFirmware, List.append_nil, State.log,
    addToCommandBuffer]
  all_goals split <;> rfl

@[simp] theorem runAtom_running (a : Atom) (s : State P) :
    (runAtom cfg a s).running = a.expands s.connected ++ s.running := by
  cases a <;> simp only [runAtom, Atom.expands, List.nil_append, State.log, addToCommandBuffer]
  all_goals split <;> rfl

@[simp] theorem runAtom_connected (a : Atom) (s : State P) :
    (runAtom cfg a s).connected =
      match a with
      | .setConnected value => value
      | _ => s.connected := by
  cases a <;> simp only [runAtom, State.log, addToCommandBuffer]
  all_goals split <;> rfl

/-- The worker and what it works on are as before. -/
structure SameWork (s t : State P) : Prop where
  devices : t.devices = s.devices
  connected : t.connected = s.connected
  running : t.running = s.running

inductive Stepped (cfg : Config) (s : State P) (e : Event) (t : State P) : Prop
  | requested (c : Command) (hc : Requested cfg s e c) (same : SameWork s t)
      (queue : t.queue = s.queue ++ [c]) (data : t.data = s.data)
      (firmwareQueue : t.firmwareQueue = s.firmwareQueue)
  | begun (c : Command) (queue : List Command) (he : e = .worker) (hr : s.running = [])
      (hq : s.queue = c :: queue) (ht : t = beginCommand cfg c queue s)
  | accessed (a : Atom) (rest : List Atom) (he : e = .worker) (hr : s.running = a :: rest)
      (ht : t = runAtom cfg a { s with running := rest })
  | lost (he : e = .connectionLost) (ht : t = step cfg s .connectionLost)
  | aside (he : e ≠ .connectionLost) (same : SameWork s t) (queue : t.queue = s.queue)
      (moves : Moves cfg.env (Aside s e) s.data t.data)

theorem SameWork.rfl (s : State P) : SameWork s s := ⟨.refl _, .refl _, .refl _⟩

theorem stepped_idle {s : State P} {e : Event} (he : e ≠ .connectionLost) : Stepped cfg s e s :=
  .aside he (.rfl s) rfl (.refl _ _)

theorem firmwareMoves_status {s : State P} {e : Event} (d : Str) (status : FirmwareUpdateStatus)
    (data : DataState P) :
    Moves cfg.env (Aside s e) data (FirmwareUpdateService.sendStatus cfg.env d status data) :=
  send_moves _ _ fun outcome => .status e d status outcome

theorem calledBack_moves (cfg : Config) {s : State P} {e : Event} (d : Str) (success : Bool)
    (data : DataState P) : Moves cfg.env (Aside s e) data
      (FirmwareUpdateService.calledBack cfg.env d success data).1 := by
  unfold FirmwareUpdateService.calledBack
  have hlog : Moves cfg.env (Aside s e) data _ := log_moves _ _ (.calledBack e d success) trivial
  dsimp only
  split_ifs
  · exact hlog.trans (firmwareMoves_status _ _ _)
  · exact hlog.trans (firmwareMoves_status _ _ _)

theorem install_moves {s : State P} (d file : Str) (data : DataState P) :
    Moves cfg.env (Aside s .firmwareWorker) data
      (FirmwareUpdateService.install cfg.env d file data).1 := by
  unfold FirmwareUpdateService.install
  have hlog : Moves cfg.env (Aside s .firmwareWorker) data
      ((FirmwareUpdateService.sendStatus cfg.env d .installation data).log
        (.installCalled d file)) :=
    (firmwareMoves_status _ _ _).trans (log_moves _ _ (.install d file) trivial)
  dsimp only
  split
  · exact hlog
  · exact hlog.trans (calledBack_moves _ _ _ _)

theorem runCommand_moves (cfg : Config) {s : State P} {command : FirmwareCommand}
    {rest : List FirmwareCommand} (h : s.firmwareQueue = command :: rest) (data : DataState P) :
    Moves cfg.env (Aside s .firmwareWorker) data
      (FirmwareUpdateService.runCommand cfg.env data command).1 := by
  cases command with
  | publishFirmwareVersion d =>
    have hlog : Moves cfg.env (Aside s .firmwareWorker) data _ := log_moves _ _
      (.versionProvided d (cfg.env.firmwareVersion data.trace d) rest h) trivial
    simp only [FirmwareUpdateService.runCommand, FirmwareUpdateService.runPublishFirmwareVersion]
    split_ifs
    · exact hlog
    · exact hlog.trans (send_moves _ _ fun outcome => .version d _ outcome rest h)
  | install command =>
    simp only [FirmwareUpdateService.runCommand, FirmwareUpdateService.handleFirmwareUpdateInstall]
    split
    · exact .refl _ _
    · split_ifs
      · exact firmwareMoves_status _ _ _
      · exact firmwareMoves_status _ _ _
      · exact install_moves _ _ _
  | abort command =>
    simp only [FirmwareUpdateService.runCommand, FirmwareUpdateService.handleFirmwareUpdateAbort]
    split
    · exact .refl _ _
    · rename_i d _
      have hlog : Moves cfg.env (Aside s .firmwareWorker) data _ := log_moves _ _
        (.abort d (cfg.env.aborts data.trace d)) trivial
      simp only [FirmwareUpdateService.abort]
      split_ifs
      · exact hlog.trans (firmwareMoves_status _ _ _)
      · exact hlog

theorem stepped_deliver {s : State P} {listener : Listener} {message : InboundMessage}
    {rest : List (Listener × InboundMessage)} (hi : s.inbox = (listener, message) :: rest) :
    Stepped cfg s .inboundWorker (deliver cfg listener message { s with inbox := rest }) := by
  have quiet : ∀ t : State P, SameWork s t → t.queue = s.queue → t.data = s.data →
      Stepped cfg s .inboundWorker t := by
    intro t hs hq hd
    exact .aside (by simp) hs hq (hd ▸ .refl _ _)
  cases listener with
  | dataService =>
    simp only [deliver]
    cases h : DataService.messageReceived cfg.dataProtocol message with
    | none => exact quiet _ ⟨rfl, rfl, rfl⟩ rfl rfl
    | some c => exact .requested c (.data message rest c hi h) ⟨rfl, rfl, rfl⟩ rfl rfl rfl
  | deviceStatusService =>
    simp only [deliver, DeviceStatusService.messageReceived]
    split_ifs
    · exact .requested _ (.status _) ⟨rfl, rfl, rfl⟩ rfl rfl rfl
    · exact quiet _ ⟨rfl, rfl, rfl⟩ rfl rfl
  | deviceRegistrationService =>
    simp only [deliver, DeviceRegistrationService.messageReceived]
    split_ifs
    · exact quiet _ ⟨rfl, rfl, rfl⟩ rfl rfl
    · cases cfg.registrationProtocol.makeSubdeviceRegistrationResponse message with
      | none => exact quiet _ ⟨rfl, rfl, rfl⟩ rfl rfl
      | some result => exact .requested _ (.registration _ result) ⟨rfl, rfl, rfl⟩ rfl rfl rfl
    · exact quiet _ ⟨rfl, rfl, rfl⟩ rfl rfl
  | firmwareUpdateService =>
    simp only [deliver]
    split <;> exact quiet _ ⟨rfl, rfl, rfl⟩ rfl rfl
  | platformStatusService =>
    simp only [deliver]
    split <;> exact quiet _ ⟨rfl, rfl, rfl⟩ rfl rfl

theorem stepped (cfg : Config) (s : State P) (e : Event) : Stepped cfg s e (step cfg s e) := by
  cases e with
  | api call =>
    simp only [step]
    cases h : call.command s.clock with
    | none => exact stepped_idle (by simp)
    | some c => exact .requested c (.api call c h) ⟨rfl, rfl, rfl⟩ rfl rfl rfl
  | worker =>
    simp only [step, workerStep]
    split
    · rename_i a rest hr
      exact .accessed a rest rfl hr rfl
    · split
      · exact stepped_idle (by simp)
      · rename_i hr _ c queue hq
        exact .begun c queue rfl hr hq rfl
  | connectionLost => exact .lost rfl rfl
  | connectionLostConnects =>
    simp only [step]
    split
    · exact stepped_idle (by simp)
    · rename_i n hn
      exact .requested _ (.connectionLost (by simp [hn])) ⟨rfl, rfl, rfl⟩ rfl rfl rfl
  | inbound channel payload =>
    simp only [step]
    split
    · exact stepped_idle (by simp)
    · rename_i listener _
      exact .aside (by simp) ⟨rfl, rfl, rfl⟩ rfl
        (log_moves _ _ (.received channel payload listener) trivial)
  | inboundWorker =>
    simp only [step]
    split
    · exact stepped_idle (by simp)
    · rename_i hi
      exact stepped_deliver hi
  | firmwareWorker =>
    simp only [step]
    split
    · exact stepped_idle (by simp)
    · rename_i hq
      exact .aside (by simp) ⟨rfl, rfl, rfl⟩ rfl (runCommand_moves cfg hq _)
  | installCallback d success =>
    exact .aside (by simp) ⟨rfl, rfl, rfl⟩ rfl (calledBack_moves _ _ _ _)
  | platformStatusWorker =>
    simp only [step]
    split
    · exact stepped_idle (by simp)
    · rename_i status _ _
      exact .aside (by simp) ⟨rfl, rfl, rfl⟩ rfl
        (log_moves _ _ (.platformStatus status) trivial)
  | tick n => exact .aside (by simp) ⟨rfl, rfl, rfl⟩ rfl (.refl _ _)

def installsOn : FirmwareCommand → Option Str
  | .install command => FirmwareUpdateService.deviceKeyOf command.deviceKeys
  | _ => none

theorem mem_calledBack {env : Environment} {d k : Str} {success : Bool} {data : DataState P}
    (h : .publishFirmwareVersion d ∈ (FirmwareUpdateService.calledBack env k success data).2) :
    d = k ∧ success = true := by
  cases success with
  | true => simpa [FirmwareUpdateService.calledBack, FirmwareUpdateService.installSucceeded] using h
  | false => simp [FirmwareUpdateService.calledBack, FirmwareUpdateService.installFailed] at h

theorem mem_runCommand {env : Environment} {d : Str} {c : FirmwareCommand} {data : DataState P}
    (h : .publishFirmwareVersion d ∈ (FirmwareUpdateService.runCommand env data c).2) :
    installsOn c = some d := by
  cases c with
  | publishFirmwareVersion => simp [FirmwareUpdateService.runCommand] at h
  | abort command =>
    simp only [FirmwareUpdateService.runCommand,
      FirmwareUpdateService.handleFirmwareUpdateAbort] at h
    split at h <;> simp at h
  | install command =>
    simp only [FirmwareUpdateService.runCommand, FirmwareUpdateService.handleFirmwareUpdateInstall,
      installsOn] at h ⊢
    split at h
    · simp at h
    · rename_i k hk
      rw [hk]
      split_ifs at h
      · simp at h
      · simp at h
      · simp only [FirmwareUpdateService.install] at h
        split at h
        · simp at h
        · rw [(mem_calledBack h).1]

/-- What an inbound message puts in the firmware service's buffer publishes no version. -/
theorem mem_deliver_firmwareQueue {s : State P} {d : Str} {listener : Listener}
    {message : InboundMessage}
    (h : .publishFirmwareVersion d ∈ (deliver cfg listener message s).firmwareQueue) :
    .publishFirmwareVersion d ∈ s.firmwareQueue := by
  cases listener with
  | firmwareUpdateService =>
    simp only [deliver, FirmwareUpdateService.messageReceived] at h
    split at h
    · exact h
    · rename_i command hc
      rcases List.mem_append.mp h with h | h
      · exact h
      · rw [← List.mem_singleton.mp h] at hc
        split at hc
        · cases hc
        · split at hc <;> cases hc
  | platformStatusService =>
    simp only [deliver] at h
    split at h <;> exact h
  | dataService =>
    simp only [deliver, enqueueAll] at h
    split at h <;> exact h
  | deviceStatusService =>
    simp only [deliver, enqueueAll] at h
    split at h <;> exact h
  | deviceRegistrationService =>
    simp only [deliver, enqueueAll] at h
    split at h <;> exact h

/-- A version request that waits after a step: it waited before, Wolk put it there, or an
install succeeded. -/
inductive VersionRequested (s : State P) (d : Str) : Event → Prop
  | waiting {e : Event} (h : .publishFirmwareVersion d ∈ s.firmwareQueue) : VersionRequested s d e
  | enqueued (rest : List Atom)
      (hr : s.running = .enqueueFirmware (.publishFirmwareVersion d) :: rest) :
      VersionRequested s d .worker
  | installed (c : FirmwareCommand) (queue : List FirmwareCommand)
      (hq : s.firmwareQueue = c :: queue) (h : installsOn c = some d) :
      VersionRequested s d .firmwareWorker
  | calledBack : VersionRequested s d (.installCallback d true)

theorem versionRequested {s : State P} {d : Str} {e : Event}
    (h : .publishFirmwareVersion d ∈ (step cfg s e).firmwareQueue) : VersionRequested s d e := by
  cases e with
  | api call =>
    simp only [step, enqueueAll] at h
    split at h <;> exact .waiting h
  | worker =>
    simp only [step, workerStep] at h
    split at h
    · rename_i a rest hr
      rw [runAtom_firmwareQueue, List.mem_append] at h
      rcases h with h | h
      · exact .waiting h
      · cases a with
        | enqueueFirmware command =>
          rw [← List.mem_singleton.mp h] at hr
          exact .enqueued rest hr
        | _ => simp [Atom.enqueuesFirmware] at h
    · split at h <;> exact .waiting h
  | inboundWorker =>
    simp only [step] at h
    split at h
    · exact .waiting h
    · have hold := mem_deliver_firmwareQueue h
      exact .waiting hold
  | firmwareWorker =>
    simp only [step] at h
    split at h
    · exact .waiting h
    · rename_i command queue hq
      rcases List.mem_append.mp h with h | h
      · apply VersionRequested.waiting
        rw [hq]
        exact List.mem_cons_of_mem _ h
      · exact .installed command queue hq (mem_runCommand h)
  | installCallback k success =>
    rcases List.mem_append.mp h with h | h
    · exact .waiting h
    · obtain ⟨rfl, rfl⟩ := mem_calledBack h
      exact .calledBack
  | connectionLostConnects | inbound | platformStatusWorker =>
    simp only [step] at h
    split at h <;> exact .waiting h
  | connectionLost | tick => exact .waiting h

theorem beginCommand_trace (cfg : Config) (c : Command) (queue : List Command) (s : State P) :
    ∃ u, (beginCommand cfg c queue s).trace = s.trace ++ [.began c s.devices] ++ u ∧
      ∀ e ∈ u, MayEmit s.devices c e :=
  (execute_moves cfg s.devices s.clock (s.data.log (.began c s.devices)) c).trace_eq

/-- The calls a step may make. -/
inductive Emits (s : State P) : Event → Effect → Prop
  | began (c : Command) (queue : List Command) (hr : s.running = []) (hq : s.queue = c :: queue) :
      Emits s .worker (.began c s.devices)
  | command (c : Command) (queue : List Command) (effect : Effect) (hr : s.running = [])
      (hq : s.queue = c :: queue) (h : MayEmit s.devices c effect) : Emits s .worker effect
  | access (a : Atom) (rest : List Atom) (effect : Effect) (hr : s.running = a :: rest)
      (h : Accesses a effect) : Emits s .worker effect
  | lost : Emits s .connectionLost .connectionLost
  | aside (e : Event) (effect : Effect) (h : Aside s e effect) : Emits s e effect

/-- A step makes only the calls listed for it. -/
theorem step_moves (s : State P) (e : Event) :
    Moves cfg.env (Emits s e) s.data (step cfg s e).data := by
  rcases stepped cfg s e with ⟨c, hc, hsame, hq, hd, -⟩ | ⟨c, queue, rfl, hr, hq, ht⟩ |
    ⟨a, rest, rfl, hr, ht⟩ | ⟨rfl, ht⟩ | ⟨-, -, -, hm⟩
  · exact hd ▸ .refl _ _
  · rw [ht]
    exact Moves.trans (log_moves _ _ (.began c queue hr hq) trivial)
      ((execute_moves _ _ _ _ _).mono fun e he => .command c queue e hr hq he)
  · rw [ht]
    have hm := runAtom_moves cfg a { s with running := rest }
    exact hm.mono fun e he => .access a rest e hr he
  · exact log_moves _ _ .lost trivial
  · exact hm.mono fun e' he => .aside e e' he

theorem step_trace (cfg : Config) (s : State P) (e : Event) :
    ∃ u, (step cfg s e).trace = s.trace ++ u ∧ ∀ effect ∈ u, Emits s e effect :=
  (step_moves s e).trace_eq

/-- What became of every message sent is what the environment made of it behind some calls. -/
def SentAsAnswered (env : Environment) (trace : Trace) : Prop :=
  ∀ message outcome, .sent message outcome ∈ trace →
    ∃ before, outcome = env.outcome before message

theorem sentAsAnswered_move {env : Environment} {L M : Ledger} {e : Effect}
    (h : SentAsAnswered env L.trace) (hm : Move env L e M) : SentAsAnswered env M.trace := by
  intro message outcome hmem
  rw [hm.trace_eq] at hmem
  rcases List.mem_append.mp hmem with hmem | hmem
  · exact h message outcome hmem
  · obtain rfl := List.mem_singleton.mp hmem
    cases hm with
    | other _ hu => exact ⟨_, hu⟩

theorem sentAsAnswered_reach (P : Persistence) (cfg : Config) (events : List Event) :
    SentAsAnswered cfg.env (reach cfg P events).trace :=
  invariant_of_step (I := fun s : State P => SentAsAnswered cfg.env s.trace)
    (fun s e => (step_moves s e).invariant fun _ _ _ hL _ hm => sentAsAnswered_move hL hm)
    (fun _ _ h => by cases h) events

/-- The message was sent, and handed to `publish` if it could be built. -/
def HandsOver (env : Environment) (message : OutboundMessage) (u : Trace) : Prop :=
  ∃ outcome, .sent message outcome ∈ u ∧
    ((∀ trace, env.makesMessage trace message = true) →
      ∃ accepted, (Effect.sent message outcome).handed = some (message, accepted))

theorem SentAsAnswered.handed {env : Environment} {trace : Trace} (h : SentAsAnswered env trace)
    {message : OutboundMessage} {outcome : Outcome} (hsent : .sent message outcome ∈ trace)
    (hmake : ∀ before, env.makesMessage before message = true) :
    ∃ accepted, (Effect.sent message outcome).handed = some (message, accepted) := by
  obtain ⟨before, rfl⟩ := h message outcome hsent
  cases haccepts : env.accepts before message with
  | true => exact ⟨true, by simp [Environment.outcome, hmake, haccepts, Effect.handed]⟩
  | false => exact ⟨false, by simp [Environment.outcome, hmake, haccepts, Effect.handed]⟩

theorem SentAsAnswered.handsOver {env : Environment} {trace u : Trace}
    (h : SentAsAnswered env trace) {message : OutboundMessage} {outcome : Outcome}
    (hsent : .sent message outcome ∈ u) (hu : u ⊆ trace) : HandsOver env message u :=
  ⟨outcome, hsent, h.handed (hu hsent)⟩

/-- A command as it started, with the registry it started in. -/
def start : Effect → Option (Command × Registry)
  | .began command devices => some (command, devices)
  | _ => none

def started (trace : Trace) : List (Command × Registry) := trace.filterMap start

def StartsNone (u : Trace) : Prop := ∀ e ∈ u, start e = none

theorem startsNone_of_mayEmit {c : Command} {u : Trace} (h : ∀ e ∈ u, MayEmit devices c e) :
    StartsNone u := by
  intro e he
  cases h e he <;> rfl

theorem startsNone_of_accesses {a : Atom} {u : Trace} (h : ∀ e ∈ u, Accesses a e) :
    StartsNone u := by
  intro e he
  cases h e he <;> rfl

theorem startsNone_of_aside {s : State P} {event : Event} {u : Trace}
    (h : ∀ e ∈ u, Aside s event e) : StartsNone u := by
  intro e he
  cases h e he <;> rfl

theorem StartsNone.began_notMem {u : Trace} (h : StartsNone u) (c : Command)
    (devices : Registry) : .began c devices ∉ u := by
  intro hmem
  have hstart := h _ hmem
  cases hstart

theorem started_startsNone {t u : Trace} (h : StartsNone u) : started (t ++ u) = started t := by
  rw [started, List.filterMap_append, List.filterMap_eq_nil_iff.mpr h, List.append_nil]
  rfl

theorem started_begun (cfg : Config) (c : Command) (queue : List Command) (s : State P) :
    started (beginCommand cfg c queue s).trace = started s.trace ++ [(c, s.devices)] := by
  obtain ⟨u, hu, hall⟩ := beginCommand_trace cfg c queue s
  rw [hu, started_startsNone (startsNone_of_mayEmit hall), started, List.filterMap_append]
  rfl

/-- In a step the worker starts one command, or none is started. -/
theorem step_starts (cfg : Config) (s : State P) (e : Event) :
    (∃ c queue u, e = .worker ∧ s.running = [] ∧ s.queue = c :: queue ∧
      (beginCommand cfg c queue s).trace = s.trace ++ .began c s.devices :: u ∧ StartsNone u ∧
      step cfg s e = beginCommand cfg c queue s) ∨
    ∃ u, (step cfg s e).trace = s.trace ++ u ∧ StartsNone u := by
  rcases stepped cfg s e with ⟨c, -, -, -, hd, -⟩ | ⟨c, queue, he, hr, hq, ht⟩ |
    ⟨a, rest, -, -, ht⟩ | ⟨rfl, ht⟩ | ⟨-, -, -, hm⟩
  · exact .inr ⟨[], by rw [State.trace, hd, List.append_nil]; rfl, by simp [StartsNone]⟩
  · obtain ⟨u, hu, hall⟩ := beginCommand_trace cfg c queue s
    refine .inl ⟨c, queue, u, he, hr, hq, ?_, startsNone_of_mayEmit hall, ht⟩
    rw [hu, List.append_assoc]
    rfl
  · obtain ⟨u, hu, hall⟩ := (runAtom_moves cfg a { s with running := rest }).trace_eq
    exact .inr ⟨u, by rw [ht]; exact hu, startsNone_of_accesses hall⟩
  · exact .inr ⟨[.connectionLost], rfl, by simp [StartsNone, start]⟩
  · obtain ⟨u, hu, hall⟩ := hm.trace_eq
    exact .inr ⟨u, hu, startsNone_of_aside hall⟩

/-- What holds of the calls behind a command as it starts, and stays true of more calls,
holds of the calls behind every start of a run. -/
theorem behind_starts {R : Trace → Command → Registry → Trace → Prop}
    (happend : ∀ before c devices after u, R before c devices after →
      R before c devices (after ++ u))
    (hbegun : ∀ (s : State P) c queue u, StartsNone u →
      (beginCommand cfg c queue s).trace = s.trace ++ .began c s.devices :: u →
      R s.trace c s.devices u) (events : List Event) :
    ∀ before c devices after,
      (reach cfg P events).trace = before ++ .began c devices :: after →
      R before c devices after := by
  refine invariant_of_step (I := fun s : State P => ∀ before c devices after,
    s.trace = before ++ .began c devices :: after → R before c devices after)
    (fun s e ih before c devices after hsplit => ?_) ?_ events
  · rcases step_starts cfg s e with ⟨c', queue, u, -, -, -, hu, hnone, ht⟩ | ⟨u, hu, hnone⟩
    · rw [ht, hu] at hsplit
      rcases split_append hsplit with ⟨after', rfl, hold⟩ | ⟨before', rfl, hnew⟩
      · exact happend _ _ _ _ _ (ih before c devices after' hold)
      · cases before' with
        | nil =>
          obtain ⟨hbegan, rfl⟩ := List.cons.inj hnew
          obtain ⟨rfl, rfl⟩ := Effect.began.inj hbegan
          rw [List.append_nil]
          exact hbegun s c' queue u hnone hu
        | cons x before' =>
          obtain ⟨-, rfl⟩ := List.cons.inj hnew
          exact absurd (List.mem_append_right _ List.mem_cons_self)
            (hnone.began_notMem c devices)
    · rw [hu] at hsplit
      rcases split_append hsplit with ⟨after', rfl, hold⟩ | ⟨before', -, rfl⟩
      · exact happend _ _ _ _ _ (ih before c devices after' hold)
      · exact absurd (List.mem_append_right _ List.mem_cons_self) (hnone.began_notMem c devices)
  · intro before c devices after h
    simp [State.trace, State.initial, DataState.initial] at h

end WolkGateway.Wolk
