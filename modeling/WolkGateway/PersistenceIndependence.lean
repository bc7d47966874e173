import WolkGateway.PublishingByDevice
import WolkGateway.WolkStepCases
import Mathlib.Data.List.Sort

/-!
# One run over two persistences

A persistence is known by what it holds; the order in which it lists its keys is its own.
Two that hold the same are followed through one run. If they list the same keys in the same
order, the runs make the same calls. If they do not, the calls made under any one key, and
everything else, are still the same, as long as the answers from outside do not depend on
what has been attempted under the keys.
-/

namespace WolkGateway.Wolk
open DeviceModel DataService DataLedger GuardedRuns
open KeyPublishing DataServicePublishing PublishingByDevice ComponentUpdates

/-- The environment answers as if one history were the other. -/
structure SameAnswers (env : Environment) (t t' : Trace) : Prop where
  makesMessage : ∀ message, env.makesMessage t message = env.makesMessage t' message
  accepts : ∀ message, env.accepts t message = env.accepts t' message
  connects : env.connects t = env.connects t'
  reconnects : env.reconnects t = env.reconnects t'
  actuatorStatus : ∀ p d r, env.actuatorStatus p t d r = env.actuatorStatus p t' d r
  configuration : ∀ p d, env.configuration p t d = env.configuration p t' d
  deviceStatus : ∀ p d, env.deviceStatus p t d = env.deviceStatus p t' d
  firmwareVersion : ∀ d, env.firmwareVersion t d = env.firmwareVersion t' d
  isFilePresent : ∀ file, env.isFilePresent t file = env.isFilePresent t' file
  installs : ∀ d file, env.installs t d file = env.installs t' d file
  aborts : ∀ d, env.aborts t d = env.aborts t' d

theorem SameAnswers.rfl (env : Environment) (t : Trace) : SameAnswers env t t := by
  constructor <;> intros <;> exact Eq.refl _

theorem SameAnswers.outcome {env : Environment} {t t' : Trace} (h : SameAnswers env t t')
    (message : OutboundMessage) : env.outcome t message = env.outcome t' message := by
  simp only [Environment.outcome, h.makesMessage, h.accepts]

theorem SameAnswers.attemptOutcome {env : Environment} {t t' : Trace} (h : SameAnswers env t t')
    (family : Family) (key : Str) (items : List Item) :
    attemptOutcome env t family key items = attemptOutcome env t' family key items := by
  simp only [DataLedger.attemptOutcome, h.outcome]

variable {ι : Type} {P Q : Persistence} {cfg : Config} {env : Environment}
  {H : Trace → Trace → Prop}

/-- Two persistences hold the same, and the histories are related. -/
structure Alike (H : Trace → Trace → Prop) (s : DataState P) (t : DataState Q) : Prop where
  contents : contentsOf s = contentsOf t
  traces : H s.trace t.trace

/-- What a relation of histories needs for two runs to keep it: it survives any call made in
both, it hides nothing from the environment, and publishing keeps it. -/
structure Kept (P Q : Persistence) (env : Environment) (H : Trace → Trace → Prop) : Prop where
  snoc : ∀ {t t'} (e : Effect), H t t' → H (t ++ [e]) (t' ++ [e])
  answers : ∀ {t t'}, H t t' → SameAnswers env t t'
  family : ∀ {s : DataState P} {t : DataState Q} (f : Family), Alike H s t →
    Alike H (publishFamily env f s) (publishFamily env f t)
  familyOf : ∀ {s : DataState P} {t : DataState Q} (f : Family) (d : Str), Alike H s t →
    Alike H (publishFamilyOf env f d s) (publishFamilyOf env f d t)

theorem contents_of_put {s s' : DataState P} {d r : Str} {item : Item}
    (h : Moves env (· = .added d r item) s s') (ht : s'.trace = s.trace ++ [.added d r item]) :
    contentsOf s' = setAt (contentsOf s) item.family (slotKey d r item)
      (putItem item.family (contentsOf s item.family (slotKey d r item)) item) := by
  obtain ⟨es, hpath, -⟩ := h
  have hes : es = [.added d r item] :=
    List.append_cancel_left ((path_trace_eq hpath).symm.trans ht)
  subst hes
  have hmove : ∀ {L M : Ledger}, Path (Move env) L [.added d r item] M → M.contents =
      setAt L.contents item.family (slotKey d r item)
        (putItem item.family (L.contents item.family (slotKey d r item)) item) := by
    intro L M hpath
    cases hpath with
    | cons hmove hnil =>
      cases hnil
      cases hmove with
      | add => rfl
      | other _ he => exact he.elim
  exact hmove hpath

namespace Alike

variable {s : DataState P} {t : DataState Q}

theorem log (hk : Kept P Q env H) (h : Alike H s t) (e : Effect) : Alike H (s.log e) (t.log e) :=
  ⟨h.contents, hk.snoc e h.traces⟩

theorem put (hk : Kept P Q env H) (h : Alike H s t) {s' : DataState P} {t' : DataState Q}
    {d r : Str} {item : Item} (hs : Moves env (· = .added d r item) s s')
    (ht : Moves env (· = .added d r item) t t') (hs' : s'.trace = s.trace ++ [.added d r item])
    (ht' : t'.trace = t.trace ++ [.added d r item]) : Alike H s' t' where
  contents := by rw [contents_of_put hs hs', contents_of_put ht ht', h.contents]
  traces := by
    rw [hs', ht']
    exact hk.snoc _ h.traces

theorem addSensorReading (hk : Kept P Q env H) (h : Alike H s t) (d r : Str) (values : List Str)
    (rtc : ℕ) : Alike H (DataService.addSensorReading d r values rtc s)
      (DataService.addSensorReading d r values rtc t) :=
  h.put hk (addSensorReading_moves d r values rtc s) (addSensorReading_moves d r values rtc t)
    rfl rfl

theorem addAlarm (hk : Kept P Q env H) (h : Alike H s t) (d r : Str) (active : Bool) (rtc : ℕ) :
    Alike H (DataService.addAlarm d r active rtc s) (DataService.addAlarm d r active rtc t) :=
  h.put hk (addAlarm_moves d r active rtc s) (addAlarm_moves d r active rtc t) rfl rfl

theorem addActuatorStatus (hk : Kept P Q env H) (h : Alike H s t) (d r value : Str)
    (state : ActuatorState) : Alike H (DataService.addActuatorStatus d r value state s)
      (DataService.addActuatorStatus d r value state t) :=
  h.put hk (addActuatorStatus_moves d r value state s) (addActuatorStatus_moves d r value state t)
    rfl rfl

theorem addConfiguration (hk : Kept P Q env H) (h : Alike H s t) (d : Str)
    (configuration : List ConfigurationItem) :
    Alike H (DataService.addConfiguration d configuration s)
      (DataService.addConfiguration d configuration t) :=
  h.put hk (addConfiguration_moves d configuration s) (addConfiguration_moves d configuration t)
    rfl rfl

theorem send (hk : Kept P Q env H) (h : Alike H s t) (message : OutboundMessage) :
    Alike H (s.send env message) (t.send env message) := by
  rw [DataState.send, DataState.send, (hk.answers h.traces).outcome]
  exact h.log hk _

theorem foldl {α : Type} {f : DataState P → α → DataState P} {g : DataState Q → α → DataState Q}
    (hfg : ∀ a (s : DataState P) (t : DataState Q), Alike H s t → Alike H (f s a) (g t a))
    (l : List α) (h : Alike H s t) : Alike H (l.foldl f s) (l.foldl g t) := by
  induction l generalizing s t with
  | nil => exact h
  | cons a l ih => exact ih (hfg a s t h)

theorem refreshActuatorStatus (hk : Kept P Q cfg.env H) (h : Alike H s t) (key reference : Str) :
    Alike H (Wolk.refreshActuatorStatus cfg key reference s)
      (Wolk.refreshActuatorStatus cfg key reference t) := by
  unfold Wolk.refreshActuatorStatus
  split
  · rename_i provider _
    rw [(hk.answers h.traces).actuatorStatus provider key reference]
    exact (h.log hk _).addActuatorStatus hk _ _ _ _
  · exact h.addActuatorStatus hk _ _ _ _

theorem refreshConfiguration (hk : Kept P Q cfg.env H) (h : Alike H s t) (key : Str) :
    Alike H (Wolk.refreshConfiguration cfg key s) (Wolk.refreshConfiguration cfg key t) := by
  unfold Wolk.refreshConfiguration
  split
  · rename_i provider _
    rw [(hk.answers h.traces).configuration provider key]
    exact (h.log hk _).addConfiguration hk _ _
  · exact h.addConfiguration hk _ _

theorem sendDeviceStatus (hk : Kept P Q cfg.env H) (h : Alike H s t)
    (message : DeviceStatus → OutboundMessage) (key : Str) :
    Alike H (Wolk.sendDeviceStatus cfg (fun status s => s.send cfg.env (message status)) key s)
      (Wolk.sendDeviceStatus cfg (fun status t => t.send cfg.env (message status)) key t) := by
  unfold Wolk.sendDeviceStatus
  split
  · rename_i provider _
    rw [(hk.answers h.traces).deviceStatus provider key]
    exact (h.log hk _).send hk _
  · exact h.send hk _

theorem devicesUpdated (hk : Kept P Q env H) (h : Alike H s t) (deviceKeys : List Str) :
    Alike H (DeviceStatusService.devicesUpdated env deviceKeys s)
      (DeviceStatusService.devicesUpdated env deviceKeys t) := by
  unfold DeviceStatusService.devicesUpdated
  rw [(hk.answers h.traces).makesMessage]
  split_ifs
  · exact h.log hk _
  · exact h.log hk _

theorem refreshDevice (hk : Kept P Q cfg.env H) (h : Alike H s t) (device : Device) :
    Alike H (Wolk.refreshDevice cfg device s) (Wolk.refreshDevice cfg device t) :=
  hk.family .actuatorStatuses
    (h.foldl (fun reference _ _ h => h.refreshActuatorStatus hk device.key reference) _)

theorem runAddSensorReading (hk : Kept P Q env H) (h : Alike H s t) (devices : Registry)
    (now : ℕ) (d r : Str) (values : List Str) (rtc : ℕ) :
    Alike H (Wolk.runAddSensorReading devices now d r values rtc s)
      (Wolk.runAddSensorReading devices now d r values rtc t) := by
  unfold Wolk.runAddSensorReading
  split_ifs
  · exact h
  · exact h
  all_goals exact h.addSensorReading hk _ _ _ _

theorem runAddAlarm (hk : Kept P Q env H) (h : Alike H s t) (devices : Registry) (d r : Str)
    (active : Bool) (rtc : ℕ) :
    Alike H (Wolk.runAddAlarm devices d r active rtc s)
      (Wolk.runAddAlarm devices d r active rtc t) := by
  unfold Wolk.runAddAlarm
  split_ifs
  · exact h
  · exact h
  · exact h.addAlarm hk _ _ _ _

theorem runAddDeviceStatus (hk : Kept P Q cfg.env H) (h : Alike H s t) (devices : Registry)
    (d : Str) (status : DeviceStatus) :
    Alike H (Wolk.runAddDeviceStatus cfg devices d status s)
      (Wolk.runAddDeviceStatus cfg devices d status t) := by
  unfold Wolk.runAddDeviceStatus
  split_ifs
  · exact h
  · exact h.send hk _

theorem runPublish (hk : Kept P Q cfg.env H) (h : Alike H s t) :
    Alike H (Wolk.runPublish cfg s) (Wolk.runPublish cfg t) :=
  hk.family .sensorReadings (hk.family .alarms (hk.family .configurations
    (hk.family .actuatorStatuses h)))

theorem runPublishDevice (hk : Kept P Q cfg.env H) (h : Alike H s t) (devices : Registry)
    (d : Str) :
    Alike H (Wolk.runPublishDevice cfg devices d s) (Wolk.runPublishDevice cfg devices d t) := by
  unfold Wolk.runPublishDevice
  split_ifs
  · exact h
  · exact hk.familyOf .sensorReadings d (hk.familyOf .alarms d (hk.familyOf .configurations d
      (hk.familyOf .actuatorStatuses d h)))

theorem runActuatorSet (hk : Kept P Q cfg.env H) (h : Alike H s t) (devices : Registry)
    (key r value : Str) :
    Alike H (Wolk.runActuatorSet cfg devices key r value s)
      (Wolk.runActuatorSet cfg devices key r value t) := by
  unfold Wolk.runActuatorSet
  split_ifs
  · exact h
  · exact h
  · refine hk.family .actuatorStatuses (refreshActuatorStatus hk ?_ key r)
    split
    · exact h.log hk _
    · exact h

theorem runActuatorGet (hk : Kept P Q cfg.env H) (h : Alike H s t) (devices : Registry)
    (key r : Str) :
    Alike H (Wolk.runActuatorGet cfg devices key r s)
      (Wolk.runActuatorGet cfg devices key r t) := by
  unfold Wolk.runActuatorGet
  split_ifs
  · exact h.foldl (fun kvp _ _ h => h.refreshDevice hk kvp.2) _
  · exact h
  · exact h
  · exact hk.family .actuatorStatuses (h.refreshActuatorStatus hk key r)

theorem runDeviceStatusRequest (hk : Kept P Q cfg.env H) (h : Alike H s t) (devices : Registry)
    (key : Str) :
    Alike H (Wolk.runDeviceStatusRequest cfg devices key s)
      (Wolk.runDeviceStatusRequest cfg devices key t) := by
  unfold Wolk.runDeviceStatusRequest
  split_ifs
  · exact h
  · exact h
  · exact h.sendDeviceStatus hk (.statusResponse key) key

theorem runConfigurationSet (hk : Kept P Q cfg.env H) (h : Alike H s t) (devices : Registry)
    (key : Str) (configuration : List ConfigurationItem) :
    Alike H (Wolk.runConfigurationSet cfg devices key configuration s)
      (Wolk.runConfigurationSet cfg devices key configuration t) := by
  unfold Wolk.runConfigurationSet
  split_ifs
  · exact h
  · exact h
  · refine hk.family .configurations (refreshConfiguration hk ?_ key)
    split
    · exact h.log hk _
    · exact h

theorem runConfigurationGet (hk : Kept P Q cfg.env H) (h : Alike H s t) (devices : Registry)
    (key : Str) :
    Alike H (Wolk.runConfigurationGet cfg devices key s)
      (Wolk.runConfigurationGet cfg devices key t) := by
  unfold Wolk.runConfigurationGet
  split_ifs
  · exact h
  · exact hk.family .configurations (h.refreshConfiguration hk key)

end Alike

structure SameExecuted (H : Trace → Trace → Prop) (r : Executed P) (r' : Executed Q) : Prop where
  data : Alike H r.data r'.data
  devices : r.devices = r'.devices
  rest : r.rest = r'.rest

theorem execute_alike (hk : Kept P Q cfg.env H) (devices : Registry) (now : ℕ) {s : DataState P}
    {t : DataState Q} (h : Alike H s t) (c : Command) :
    SameExecuted H (execute cfg devices now s c) (execute cfg devices now t c) := by
  cases c with
  | addSensorReading d r values rtc =>
    exact ⟨h.runAddSensorReading hk devices now d r values rtc, rfl, rfl⟩
  | addAlarm d r active rtc => exact ⟨h.runAddAlarm hk devices d r active rtc, rfl, rfl⟩
  | publishActuatorStatus d r value =>
    exact ⟨hk.familyOf .actuatorStatuses d (h.addActuatorStatus hk _ _ _ _), rfl, rfl⟩
  | publishConfiguration d configurations =>
    exact ⟨hk.family .configurations (h.addConfiguration hk _ _), rfl, rfl⟩
  | addDeviceStatus d status => exact ⟨h.runAddDeviceStatus hk devices d status, rfl, rfl⟩
  | connect publishRightAway =>
    simp only [execute, (hk.answers h.traces).connects]
    exact ⟨h.log hk _, rfl, rfl⟩
  | publish => exact ⟨h.runPublish hk, rfl, rfl⟩
  | publishDevice d => exact ⟨h.runPublishDevice hk devices d, rfl, rfl⟩
  | addDevice device =>
    simp only [execute]
    split_ifs
    · exact ⟨h, rfl, rfl⟩
    · exact ⟨(h.log hk _).devicesUpdated hk _, rfl, rfl⟩
  | addAssetsToDevice request =>
    simp only [execute]
    split
    · exact ⟨h, rfl, rfl⟩
    · split_ifs <;> exact ⟨h, rfl, rfl⟩
  | removeDevice d =>
    simp only [execute]
    split_ifs
    · exact ⟨h.log hk _, rfl, rfl⟩
    · exact ⟨h, rfl, rfl⟩
  | handleActuatorSetCommand key r value =>
    exact ⟨h.runActuatorSet hk devices key r value, rfl, rfl⟩
  | handleActuatorGetCommand key r => exact ⟨h.runActuatorGet hk devices key r, rfl, rfl⟩
  | handleDeviceStatusRequest key => exact ⟨h.runDeviceStatusRequest hk devices key, rfl, rfl⟩
  | handleConfigurationSetCommand key configuration =>
    exact ⟨h.runConfigurationSet hk devices key configuration, rfl, rfl⟩
  | handleConfigurationGetCommand key =>
    exact ⟨h.runConfigurationGet hk devices key, rfl, rfl⟩
  | registerDevice | updateDevice | publishDeviceStatus => exact ⟨h.send hk _, rfl, rfl⟩
  | registerDevices =>
    exact ⟨h.foldl (fun kvp _ _ h => h.send hk (.registrationRequest kvp.2)) _, rfl, rfl⟩
  | publishDeviceStatusOf device =>
    exact ⟨h.sendDeviceStatus hk (.statusUpdate device.key) device.key, rfl, rfl⟩
  | handleRegistrationResponse | handleUpdateResponse =>
    simp only [execute]
    split_ifs <;> exact ⟨h, rfl, rfl⟩
  | disconnect | publishFirmwareVersion | publishFirmwareVersions | publishDeviceStatuses =>
    exact ⟨h, rfl, rfl⟩

def SameResult (H : Trace → Trace → Prop) (r : FirmwareUpdateService.Result P)
    (r' : FirmwareUpdateService.Result Q) : Prop := Alike H r.1 r'.1 ∧ r.2 = r'.2

section Firmware

open FirmwareUpdateService

variable {s : DataState P} {t : DataState Q}

theorem calledBack_alike (hk : Kept P Q env H) (h : Alike H s t) (d : Str) (success : Bool) :
    SameResult H (calledBack env d success s) (calledBack env d success t) := by
  unfold calledBack
  cases success with
  | true => exact ⟨(h.log hk _).send hk _, rfl⟩
  | false => exact ⟨(h.log hk _).send hk _, rfl⟩

theorem install_alike (hk : Kept P Q env H) (h : Alike H s t) (d file : Str) :
    SameResult H (install env d file s) (install env d file t) := by
  have hcalled : Alike H ((sendStatus env d .installation s).log (.installCalled d file))
      ((sendStatus env d .installation t).log (.installCalled d file)) := (h.send hk _).log hk _
  unfold install
  simp only [(hk.answers hcalled.traces).installs]
  split
  · exact ⟨hcalled, rfl⟩
  · exact calledBack_alike hk hcalled d _

theorem abort_alike (hk : Kept P Q env H) (h : Alike H s t) (d : Str) :
    Alike H (abort env d s) (abort env d t) := by
  simp only [abort, (hk.answers h.traces).aborts]
  split_ifs
  · exact (h.log hk _).send hk _
  · exact h.log hk _

theorem runPublishFirmwareVersion_alike (hk : Kept P Q env H) (h : Alike H s t) (d : Str) :
    Alike H (runPublishFirmwareVersion env d s) (runPublishFirmwareVersion env d t) := by
  simp only [runPublishFirmwareVersion, (hk.answers h.traces).firmwareVersion]
  split_ifs
  · exact h.log hk _
  · exact (h.log hk _).send hk _

theorem runCommand_alike (hk : Kept P Q env H) (h : Alike H s t) (command : FirmwareCommand) :
    SameResult H (runCommand env s command) (runCommand env t command) := by
  cases command with
  | publishFirmwareVersion d => exact ⟨runPublishFirmwareVersion_alike hk h d, rfl⟩
  | install command =>
    simp only [runCommand, handleFirmwareUpdateInstall, (hk.answers h.traces).isFilePresent]
    split
    · exact ⟨h, rfl⟩
    · split_ifs
      · exact ⟨h.send hk _, rfl⟩
      · exact ⟨h.send hk _, rfl⟩
      · exact install_alike hk h _ _
  | abort command =>
    simp only [runCommand, handleFirmwareUpdateAbort]
    split
    · exact ⟨h, rfl⟩
    · exact ⟨abort_alike hk h _, rfl⟩

end Firmware

structure SameBut (H : Trace → Trace → Prop) (s : State P) (t : State Q) : Prop where
  data : Alike H s.data t.data
  devices : s.devices = t.devices
  connected : s.connected = t.connected
  running : s.running = t.running
  queue : s.queue = t.queue
  lostHandlers : s.lostHandlers = t.lostHandlers
  firmwareQueue : s.firmwareQueue = t.firmwareQueue
  inbox : s.inbox = t.inbox
  platformQueue : s.platformQueue = t.platformQueue
  clock : s.clock = t.clock

theorem runAtom_same (hk : Kept P Q cfg.env H) (a : Atom) {s : State P} {t : State Q}
    (h : SameBut H s t) : SameBut H (runAtom cfg a s) (runAtom cfg a t) := by
  obtain ⟨data, devices, connected, running, queue, lost, firmware, inbox, platform, clock⟩ := s
  obtain ⟨data', devices', connected', running', queue', lost', firmware', inbox', platform',
    clock'⟩ := t
  obtain ⟨h, rfl, rfl, rfl, rfl, rfl, rfl, rfl, rfl, rfl⟩ := h
  have hlog : ∀ e, Alike H (data.log e) (data'.log e) := fun e => h.log hk e
  cases a with
  | setConnected | enqueue | enqueueFirmware =>
    exact ⟨h, rfl, rfl, rfl, rfl, rfl, rfl, rfl, rfl, rfl⟩
  | serviceDisconnect | sleep => exact ⟨hlog _, rfl, rfl, rfl, rfl, rfl, rfl, rfl, rfl, rfl⟩
  | serviceReconnect =>
    simp only [runAtom, State.trace, (hk.answers h.traces).reconnects]
    exact ⟨hlog _, rfl, rfl, rfl, rfl, rfl, rfl, rfl, rfl, rfl⟩
  | registerIfConnected | updateIfConnected =>
    simp only [runAtom]
    split_ifs <;> exact ⟨h, rfl, rfl, rfl, rfl, rfl, rfl, rfl, rfl, rfl⟩
  | storeAssets request =>
    simp only [runAtom]
    cases devices[request.deviceKey]? with
    | none => exact ⟨h, rfl, rfl, rfl, rfl, rfl, rfl, rfl, rfl, rfl⟩
    | some device => exact ⟨hlog _, rfl, rfl, rfl, rfl, rfl, rfl, rfl, rfl, rfl⟩
  | respond d result =>
    simp only [runAtom]
    split
    · exact ⟨hlog _, rfl, rfl, rfl, rfl, rfl, rfl, rfl, rfl, rfl⟩
    · exact ⟨h, rfl, rfl, rfl, rfl, rfl, rfl, rfl, rfl, rfl⟩

theorem enqueueAll_same (c : Option Command) {s : State P} {t : State Q} (h : SameBut H s t) :
    SameBut H (enqueueAll c s) (enqueueAll c t) := by
  cases c with
  | none => exact h
  | some c => exact { h with queue := by simp [enqueueAll, addToCommandBuffer, h.queue] }

theorem deliver_same (cfg : Config) (listener : Listener) (message : InboundMessage)
    {s : State P} {t : State Q} (h : SameBut H s t) :
    SameBut H (deliver cfg listener message s) (deliver cfg listener message t) := by
  cases listener with
  | dataService | deviceStatusService | deviceRegistrationService => exact enqueueAll_same _ h
  | firmwareUpdateService =>
    simp only [deliver]
    split
    · exact h
    · exact { h with firmwareQueue := by simp [h.firmwareQueue] }
  | platformStatusService =>
    simp only [deliver]
    split
    · exact h
    · exact { h with platformQueue := by simp [h.platformQueue] }

theorem beginCommand_same (hk : Kept P Q cfg.env H) (c : Command) (queue : List Command)
    {s : State P} {t : State Q} (h : SameBut H s t) :
    SameBut H (beginCommand cfg c queue s) (beginCommand cfg c queue t) := by
  have hbegan : Alike H (s.data.log (.began c s.devices)) (t.data.log (.began c s.devices)) :=
    h.data.log hk _
  have hexecuted := execute_alike hk s.devices s.clock hbegan c
  simp only [beginCommand]
  rw [← h.devices, ← h.clock]
  exact { h with
    data := hexecuted.data, devices := hexecuted.devices, running := hexecuted.rest
    queue := rfl, clock := rfl }

/-- One step keeps two runs over two persistences together. -/
theorem step_same (hk : Kept P Q cfg.env H) {s : State P} {t : State Q} (h : SameBut H s t)
    (e : Event) : SameBut H (step cfg s e) (step cfg t e) := by
  cases e with
  | api call =>
    simp only [step, h.clock]
    exact enqueueAll_same _ h
  | worker =>
    simp only [step, workerStep, h.running, h.queue]
    split
    · exact runAtom_same hk _ { h with running := rfl, queue := rfl }
    · split
      · exact h
      · exact beginCommand_same hk _ _ h
  | connectionLost =>
    exact { h with
      data := h.data.log hk _, connected := rfl
      lostHandlers := by simp [step, State.log, h.lostHandlers] }
  | connectionLostConnects =>
    simp only [step, h.lostHandlers]
    split
    · exact h
    · exact enqueueAll_same (some _) { h with lostHandlers := rfl }
  | inbound channel payload =>
    simp only [step]
    split
    · exact h
    · exact { h with data := h.data.log hk _, inbox := by simp [h.inbox] }
  | inboundWorker =>
    simp only [step, h.inbox]
    split
    · exact h
    · exact deliver_same _ _ _ { h with inbox := rfl }
  | firmwareWorker =>
    simp only [step, h.firmwareQueue]
    split
    · exact h
    · rename_i command queue _
      obtain ⟨hdata, hmore⟩ := runCommand_alike hk h.data command
      exact { h with data := hdata, firmwareQueue := congrArg (queue ++ ·) hmore }
  | installCallback d success =>
    obtain ⟨hdata, hmore⟩ := calledBack_alike hk h.data d success
    exact { h with data := hdata, firmwareQueue := congrArg₂ (· ++ ·) h.firmwareQueue hmore }
  | platformStatusWorker =>
    simp only [step, h.platformQueue]
    split
    · exact h
    · exact { h with data := h.data.log hk _, platformQueue := rfl }
  | tick n => exact { h with clock := congrArg (· + n) h.clock }

/-- So does a whole run. -/
theorem reach_same (hk : Kept P Q cfg.env H) (hempty : H [] []) (events : List Event) :
    SameBut H (reach cfg P events) (reach cfg Q events) := by
  have hinitial : SameBut H (State.initial P) (State.initial Q) := by
    refine ⟨⟨?_, hempty⟩, rfl, rfl, rfl, rfl, rfl, rfl, rfl, rfl, rfl⟩
    funext f k
    exact (contentsOf_initial f k).trans (contentsOf_initial f k).symm
  unfold reach
  generalize State.initial P = s at hinitial
  generalize State.initial Q = t at hinitial
  induction events generalizing s t with
  | nil => exact hinitial
  | cons e events ih => exact ih _ _ (step_same hk hinitial e)

def isAttempt : Effect → Bool
  | .attempted .. => true
  | _ => false

def unattempted (t : Trace) : Trace := t.filter fun e => !isAttempt e

/-- The history as it looks from one key: without the attempts at the others. -/
def seenAt (family : Family) (key : Str) (t : Trace) : Trace :=
  t.filter fun e => !isAttempt e || isAttemptAt family key e

/-- The attempts at different keys may come in different orders. -/
def SameSeen (t t' : Trace) : Prop := ∀ family key, seenAt family key t = seenAt family key t'

/-- What has been attempted makes no difference to the answers. -/
def ForgetsAttempts (env : Environment) : Prop :=
  ∀ t t', unattempted t = unattempted t' → SameAnswers env t t'

@[simp] theorem seenAt_append (family : Family) (key : Str) (t u : Trace) :
    seenAt family key (t ++ u) = seenAt family key t ++ seenAt family key u :=
  List.filter_append ..

@[simp] theorem unattempted_append (t u : Trace) :
    unattempted (t ++ u) = unattempted t ++ unattempted u :=
  List.filter_append ..

theorem unattempted_seenAt (family : Family) (key : Str) (t : Trace) :
    unattempted (seenAt family key t) = unattempted t := by
  rw [unattempted, seenAt, List.filter_filter, unattempted]
  congr 1
  funext e
  cases isAttempt e <;> rfl

/-- The attempts at one key's items are the same behind histories with the same answers. -/
theorem publishPending_behind (h : ForgetsAttempts env) {family : Family} {key : Str}
    {t t' : Trace} (htt' : unattempted t = unattempted t') (items : List Item) :
    ∃ es left, publishPending env family key t items = (t ++ es, left) ∧
      publishPending env family key t' items = (t' ++ es, left) := by
  induction t, items using publishPending_induction env family key generalizing t' with
  | nil t => exact ⟨[], [], by simp [publishPending_nil], by simp [publishPending_nil]⟩
  | accepted t items hi ha ih =>
    have ha' := ((h t t' htt').attemptOutcome family key _).symm.trans ha
    have hnext := @ih (t' ++ [Effect.attempted family key (deviceOf family key)
      (items.take PUBLISH_BATCH_ITEMS_COUNT) .accepted]) (by simp [htt'])
    obtain ⟨es, left, hes, hes'⟩ := hnext
    rw [publishPending_accepted t hi ha, publishPending_accepted t' hi ha', hes, hes',
      List.append_assoc, List.append_assoc]
    exact ⟨_, left, rfl, rfl⟩
  | stopped t items outcome hi hne ho =>
    have ho' := ((h t t' htt').attemptOutcome family key _).symm.trans ho
    rw [publishPending_of_ne_accepted t hi hne ho, publishPending_of_ne_accepted t' hi hne ho']
    exact ⟨_, _, rfl, rfl⟩

def viewAt (s : DataState P) (k : Family × Str) : Trace × List Item :=
  (seenAt k.1 k.2 s.trace, contentsOf s k.1 k.2)

def publishSeen (env : Environment) (k : Family × Str) (v : Trace × List Item) :
    Trace × List Item :=
  publishPending env k.1 k.2 v.1 v.2

/-- Attempts at one key are seen from there, and from no other. -/
theorem seenAt_attempts {family : Family} {key : Str} {es : Trace}
    (h : ∀ e ∈ es, ∃ batch outcome,
      e = .attempted family key (deviceOf family key) batch outcome) (f : Family) (k : Str) :
    seenAt f k es = if f = family ∧ k = key then es else [] := by
  split_ifs with hk
  · obtain ⟨rfl, rfl⟩ := hk
    refine List.filter_eq_self.mpr fun e he => ?_
    obtain ⟨batch, outcome, rfl⟩ := h e he
    simp [isAttempt, isAttemptAt]
  · refine List.filter_eq_nil_iff.mpr fun e he => ?_
    obtain ⟨batch, outcome, rfl⟩ := h e he
    simp only [isAttempt, isAttemptAt, Bool.not_true, Bool.false_or, Bool.and_eq_true,
      decide_eq_true_eq]
    exact fun hkey => hk ⟨hkey.1.symm, hkey.2.symm⟩

/-- Publishing one key changes its own view, and no other. -/
theorem publishKey_seen (h : ForgetsAttempts env) :
    ActsOn (viewAt (P := P)) id (publishSeen env) fun s k => publishKey env k.1 k.2 s := by
  rintro s ⟨family, key⟩ ⟨f, k⟩
  have hl := publishKey_refines env family key s
  obtain ⟨es, hes, hall⟩ := publishPending_attempts env family key s.trace (contentsOf s family key)
  have htrace : (publishKey env family key s).trace = s.trace ++ es :=
    (congrArg Ledger.trace hl).trans hes
  have hseen := seenAt_attempts hall f k
  simp only [id_eq, viewAt, publishSeen, htrace, seenAt_append, hseen, Prod.mk.injEq]
  split_ifs with hk
  · obtain ⟨rfl, rfl⟩ := hk
    have hcontents : contentsOf (publishKey env f k s) f k =
        (publishPending env f k s.trace (contentsOf s f k)).2 :=
      calc contentsOf (publishKey env f k s) f k
          = (attemptKey env f k (ledgerOf s)).contents f k := by rw [← hl]; rfl
        _ = (publishPending env f k s.trace (contentsOf s f k)).2 := attemptKey_here (ledgerOf s)
    obtain ⟨es', left, hs, hv⟩ := @publishPending_behind env h f k _ _
      (unattempted_seenAt f k s.trace).symm (contentsOf s f k)
    rw [hs] at hes hcontents
    rw [hv, hcontents, List.append_cancel_left hes]
  · rw [List.append_nil, publishKey_elsewhere env family s hk]

/-- A loop over keys, as it is seen from any key. -/
theorem viewAt_foldl (h : ForgetsAttempts env) {family : Family} {keys : List Str}
    (hnd : keys.Nodup) (s : DataState P) (f : Family) (k : Str) :
    viewAt (keys.foldl (fun s key => publishKey env family key s) s) (f, k) =
      if f = family ∧ k ∈ keys then publishSeen env (f, k) (viewAt s (f, k))
      else viewAt s (f, k) := by
  have hinj : Function.Injective fun key : Str => (family, key) := fun _ _ h => (Prod.mk.inj h).2
  have hloop := (publishKey_seen (P := P) h).foldl (hnd.map hinj) s (f, k)
  rw [List.foldl_map] at hloop
  refine hloop.trans ?_
  congr 1
  simp [eq_comm, and_comm]

/-- Loops over the same keys, in any two orders, keep two runs together. -/
theorem foldl_sameSeen (h : ForgetsAttempts env) {family : Family} {keys keys' : List Str}
    (hnd : keys.Nodup) (hnd' : keys'.Nodup) (hkeys : ∀ k, k ∈ keys ↔ k ∈ keys')
    {s : DataState P} {t : DataState Q} (hst : Alike SameSeen s t) :
    Alike SameSeen (keys.foldl (fun s key => publishKey env family key s) s)
      (keys'.foldl (fun t key => publishKey env family key t) t) := by
  have hview : ∀ f k, viewAt (keys.foldl (fun s key => publishKey env family key s) s) (f, k) =
      viewAt (keys'.foldl (fun t key => publishKey env family key t) t) (f, k) := by
    intro f k
    have hsame : viewAt s (f, k) = viewAt t (f, k) := by
      rw [viewAt, viewAt, hst.traces, hst.contents]
    rw [viewAt_foldl h hnd, viewAt_foldl h hnd', hsame]
    simp only [hkeys]
  refine ⟨funext fun f => funext fun k => ?_, fun f k => ?_⟩
  · exact congrArg Prod.snd (hview f k)
  · exact congrArg Prod.fst (hview f k)

theorem mem_keysOf_iff {s : DataState P} {t : DataState Q} (h : contentsOf s = contentsOf t)
    (family : Family) (key : Str) : key ∈ keysOf family s ↔ key ∈ keysOf family t := by
  rw [mem_keysOf, mem_keysOf, h]

/-- The order in which keys are listed is not seen from any key. -/
theorem kept_sameSeen (h : ForgetsAttempts env) : Kept P Q env SameSeen where
  snoc e ht f k := by rw [seenAt_append, seenAt_append, ht]
  answers {t t'} ht := by
    refine h t t' ?_
    rw [← unattempted_seenAt .alarms [] t, ht, unattempted_seenAt]
  family {s t} f hst := by
    rw [publishFamily_eq, publishFamily_eq]
    exact foldl_sameSeen h (keysOf_nodup f s) (keysOf_nodup f t) (mem_keysOf_iff hst.contents f) hst
  familyOf {s t} f d hst := by
    by_cases hf : f = .configurations
    · subst hf
      have hloop : Alike SameSeen ([d].foldl (fun s key => publishKey env .configurations key s) s)
          ([d].foldl (fun t key => publishKey env .configurations key t) t) :=
        foldl_sameSeen h (List.nodup_singleton d) (List.nodup_singleton d) (fun _ => .rfl) hst
      exact hloop
    · rw [publishFamilyOf_eq env hf, publishFamilyOf_eq env hf]
      refine foldl_sameSeen h ((keysOf_nodup f s).filter _) ((keysOf_nodup f t).filter _) ?_ hst
      intro k
      rw [List.mem_filter, List.mem_filter, mem_keysOf_iff hst.contents]

/-- The persistence behind a run cannot be told from any one key. Whatever the events, two
persistences that list their keys in orders of their own leave the module in the same state,
hold the same, and have seen the same calls under each key, among all the others. -/
theorem key_order_unseen (P Q : Persistence) (cfg : Config) (h : ForgetsAttempts cfg.env)
    (events : List Event) : SameBut SameSeen (reach cfg P events) (reach cfg Q events) :=
  reach_same (kept_sameSeen h) (fun _ _ => rfl) events

/-- The same store, listing its keys in another order. -/
def relistedFifo (F : KeyedStores.KeyedFifo Str ι) (order : List Str → List Str)
    (h : ∀ l, (order l).Perm l) : KeyedStores.KeyedFifo Str ι :=
  { F with
    keys := fun s => order (F.keys s)
    keys_nodup := fun s => (h _).nodup_iff.mpr (F.keys_nodup s)
    mem_keys := fun s k => (h _).mem_iff.trans (F.mem_keys s k) }

def relistedSlot (F : KeyedStores.KeyedSlot Str ι) (order : List Str → List Str)
    (h : ∀ l, (order l).Perm l) : KeyedStores.KeyedSlot Str ι :=
  { F with
    keys := fun s => order (F.keys s)
    keys_nodup := fun s => (h _).nodup_iff.mpr (F.keys_nodup s)
    mem_keys := fun s k => (h _).mem_iff.trans (F.mem_keys s k) }

def inMemoryListed (order : List Str → List Str) (h : ∀ l, (order l).Perm l) : Persistence where
  sensorReadings := relistedFifo (.inMemory _ _) order h
  alarms := relistedFifo (.inMemory _ _) order h
  actuatorStatuses := relistedSlot (.inMemory _ _) order h
  configurations := relistedSlot (.inMemory _ _) order h

/-- Statuses of two devices are offered one by one, then together, and always refused. -/
def twoKeysPending : List Event :=
  [Event.api (.publishActuatorStatusValue ['a'] ['r'] ['1']),
    .api (.publishActuatorStatusValue ['b'] ['r'] ['2']), .api .publish] ++
    List.replicate 3 Event.worker

/-- The two runs are not the same call by call. -/
example :
    (reach (.bare { Environment.obliging with accepts := fun _ _ => false }) .inMemory
      twoKeysPending).trace ≠
      (reach (.bare { Environment.obliging with accepts := fun _ _ => false })
        (inMemoryListed List.reverse List.reverse_perm) twoKeysPending).trace := by
  decide +kernel

theorem key_order_unseen_reversed :
    SameBut SameSeen
      (reach (.bare { Environment.obliging with accepts := fun _ _ => false }) .inMemory
        twoKeysPending)
      (reach (.bare { Environment.obliging with accepts := fun _ _ => false })
        (inMemoryListed List.reverse List.reverse_perm) twoKeysPending) :=
  key_order_unseen .inMemory (inMemoryListed List.reverse List.reverse_perm) _
    (fun _ _ _ => by constructor <;> intros <;> rfl) twoKeysPending

/-- Persistence lists its keys in the given order. -/
def ListsBy (r : Str → Str → Prop) (P : Persistence) : Prop :=
  ∀ family (s : DataState P), (keysOf family s).Pairwise r

theorem keysOf_eq {r : Str → Str → Prop} [Std.Antisymm r] (hP : ListsBy r P) (hQ : ListsBy r Q)
    {s : DataState P} {t : DataState Q} (h : contentsOf s = contentsOf t) (family : Family) :
    keysOf family s = keysOf family t := by
  have hperm : (keysOf family s).Perm (keysOf family t) :=
    (List.perm_ext_iff_of_nodup (keysOf_nodup family s) (keysOf_nodup family t)).mpr
      (mem_keysOf_iff h family)
  exact hperm.eq_of_pairwise' (hP family s) (hQ family t)

theorem publishKey_same (env : Environment) (family : Family) (key : Str) {s : DataState P}
    {t : DataState Q} (h : Alike Eq s t) :
    Alike Eq (publishKey env family key s) (publishKey env family key t) := by
  have hledger : ledgerOf s = ledgerOf t := congrArg₂ Ledger.mk h.contents h.traces
  have hpublished : ledgerOf (publishKey env family key s) =
      ledgerOf (publishKey env family key t) := by
    rw [publishKey_refines, publishKey_refines, hledger]
  exact ⟨congrArg Ledger.contents hpublished, congrArg Ledger.trace hpublished⟩

theorem kept_eq {r : Str → Str → Prop} [Std.Antisymm r] (hP : ListsBy r P) (hQ : ListsBy r Q)
    (env : Environment) : Kept P Q env Eq where
  snoc e ht := congrArg (· ++ [e]) ht
  answers ht := ht ▸ .rfl env _
  family {s t} f hst := by
    rw [publishFamily_eq, publishFamily_eq, keysOf_eq hP hQ hst.contents]
    exact hst.foldl (fun key _ _ h => publishKey_same env f key h) _
  familyOf {s t} f d hst := by
    by_cases hf : f = .configurations
    · subst hf
      exact publishKey_same env .configurations d hst
    · rw [publishFamilyOf_eq env hf, publishFamilyOf_eq env hf, keysOf_eq hP hQ hst.contents]
      exact hst.foldl (fun key _ _ h => publishKey_same env f key h) _

/-- The order in which keys are listed is all that a persistence decides. Two that list their
keys by one order make the same calls in every run, whatever the answers from outside. -/
theorem key_order_decides (P Q : Persistence) (cfg : Config) {r : Str → Str → Prop}
    [Std.Antisymm r] (hP : ListsBy r P) (hQ : ListsBy r Q) (events : List Event) :
    SameBut Eq (reach cfg P events) (reach cfg Q events) :=
  reach_same (kept_eq hP hQ cfg.env) rfl events

def Ascending (a b : Str) : Prop := (compare a b).isLE = true

instance : DecidableRel Ascending :=
  fun a b => inferInstanceAs (Decidable ((compare a b).isLE = true))

instance : Std.Antisymm Ascending where
  antisymm _ _ hab hba := Std.LawfulEqCmp.eq_of_compare (Std.OrientedCmp.isLE_antisymm hab hba)

instance : Std.Total Ascending where
  total a b := by
    have hswap : compare a b = (compare b a).swap := Std.OrientedCmp.eq_swap
    unfold Ascending
    rw [hswap]
    cases compare b a <;> simp

instance : IsTrans Str Ascending where
  trans _ _ _ hab hbc := Std.TransCmp.isLE_trans hab hbc

/-- Whatever order a persistence keeps its keys in, it can list them in this one. -/
def inMemoryAscending (order : List Str → List Str) (h : ∀ l, (order l).Perm l) : Persistence :=
  inMemoryListed (fun l => (order l).insertionSort Ascending)
    fun l => (List.perm_insertionSort Ascending (order l)).trans (h l)

theorem listsBy_ascending (order : List Str → List Str) (h : ∀ l, (order l).Perm l) :
    ListsBy Ascending (inMemoryAscending order h) := by
  intro family s
  cases family <;> exact List.pairwise_insertionSort Ascending _

theorem key_order_decides_reversed :
    SameBut Eq
      (reach (.bare { Environment.obliging with accepts := fun _ _ => false })
        (inMemoryAscending id .refl) twoKeysPending)
      (reach (.bare { Environment.obliging with accepts := fun _ _ => false })
        (inMemoryAscending List.reverse List.reverse_perm) twoKeysPending) :=
  key_order_decides _ _ _ (listsBy_ascending id .refl)
    (listsBy_ascending List.reverse List.reverse_perm) twoKeysPending

end WolkGateway.Wolk
