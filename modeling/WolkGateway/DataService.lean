import WolkGateway.CommandsAndEffects
import WolkGateway.KeyedStores
import WolkGateway.DelimitedPairs

/-!
# The data service

`DataService` puts readings, alarms, statuses and configurations into persistence and
publishes what persistence holds, key by key. Sensor readings and alarms run through the
same code over a first-in first-out list, in batches; actuator statuses and configurations
through the same code over a single value.
-/

namespace WolkGateway.DataService
open DeviceModel KeyedStores

/-- The `Persistence` interface: what each of its four kinds of data is kept in. -/
structure Persistence where
  sensorReadings : KeyedFifo Str SensorReading
  alarms : KeyedFifo Str Alarm
  actuatorStatuses : KeyedSlot Str ActuatorStatus
  configurations : KeyedSlot Str (List ConfigurationItem)

def Persistence.inMemory : Persistence where
  sensorReadings := .inMemory _ _
  alarms := .inMemory _ _
  actuatorStatuses := .inMemory _ _
  configurations := .inMemory _ _

/-- What the persistence object holds, and the calls made so far. -/
structure DataState (P : Persistence) where
  sensorReadings : P.sensorReadings.State
  alarms : P.alarms.State
  actuatorStatuses : P.actuatorStatuses.State
  configurations : P.configurations.State
  trace : Trace

def DataState.initial (P : Persistence) : DataState P :=
  ⟨P.sensorReadings.empty, P.alarms.empty, P.actuatorStatuses.empty, P.configurations.empty, []⟩

def DataState.log {P : Persistence} (s : DataState P) (e : Effect) : DataState P :=
  { s with trace := s.trace ++ [e] }

def PERSISTENCE_KEY_DELIMITER : Char := '+'

def PUBLISH_BATCH_ITEMS_COUNT : ℕ := 50

def makePersistenceKey (deviceKey reference : Str) : Str :=
  DelimitedPairs.join PERSISTENCE_KEY_DELIMITER deviceKey reference

def parsePersistenceKey (key : Str) : Str × Str :=
  (DelimitedPairs.split PERSISTENCE_KEY_DELIMITER key).getD ([], [])

def findMatchingPersistanceKeys (deviceKey : Str) (persistanceKeys : List Str) : List Str :=
  persistanceKeys.filter fun key => (parsePersistenceKey key).1 = deviceKey

section ForPersistanceKey

variable {ι : Type}

/-- The body shared by `publishSensorReadingsForPersistanceKey` and
`publishAlarmsForPersistanceKey`. The recursion ends because a batch that was fetched
nonempty leaves a shorter list. -/
def publishBatches (F : KeyedFifo Str ι) (family : Family) (item : ι → Item) (env : Environment)
    (persistanceKey : Str) (s : F.State) (trace : Trace) : F.State × Trace :=
  let items := F.get s persistanceKey PUBLISH_BATCH_ITEMS_COUNT
  if h : items = [] then (s, trace)
  else
    let pair := parsePersistenceKey persistanceKey
    let attempted := fun outcome =>
      trace ++ [.attempted family persistanceKey pair.1 (items.map item) outcome]
    let removed := F.remove s persistanceKey PUBLISH_BATCH_ITEMS_COUNT
    if pair.1.isEmpty || pair.2.isEmpty then (removed, attempted .unparsable)
    else
      let outboundMessage := OutboundMessage.data family pair.1 (items.map item)
      if !env.makesMessage trace outboundMessage then (removed, attempted .unbuildable)
      else if env.accepts trace outboundMessage then
        publishBatches F family item env persistanceKey removed (attempted .accepted)
      else (s, attempted .rejected)
termination_by (F.contents s persistanceKey).length
decreasing_by exact F.length_remove_lt s persistanceKey _ h

/-- The end shared by `publishActuatorStatusesForPersistanceKey` and
`publishConfigurationForPersistanceKey`: the fetched value is sent for the device. -/
def publishValue (F : KeyedSlot Str ι) (family : Family) (item : ι → Item) (env : Environment)
    (persistanceKey deviceKey : Str) (value : ι) (s : F.State) (trace : Trace) :
    F.State × Trace :=
  let attempted := fun outcome =>
    trace ++ [.attempted family persistanceKey deviceKey [item value] outcome]
  let outboundMessage := OutboundMessage.data family deviceKey [item value]
  if !env.makesMessage trace outboundMessage then
    (F.remove s persistanceKey, attempted .unbuildable)
  else if env.accepts trace outboundMessage then
    (F.remove s persistanceKey, attempted .accepted)
  else (s, attempted .rejected)

end ForPersistanceKey

variable {P : Persistence} (env : Environment)

def addSensorReading (deviceKey reference : Str) (values : List Str) (rtc : ℕ) (s : DataState P) :
    DataState P :=
  let sensorReading : SensorReading := ⟨values, reference, rtc⟩
  { s.log (.added deviceKey reference (.sensorReading sensorReading)) with
    sensorReadings := P.sensorReadings.put s.sensorReadings
      (makePersistenceKey deviceKey reference) sensorReading }

def addAlarm (deviceKey reference : Str) (active : Bool) (rtc : ℕ) (s : DataState P) :
    DataState P :=
  let alarm : Alarm := ⟨active, reference, rtc⟩
  { s.log (.added deviceKey reference (.alarm alarm)) with
    alarms := P.alarms.put s.alarms (makePersistenceKey deviceKey reference) alarm }

def addActuatorStatus (deviceKey reference value : Str) (state : ActuatorState)
    (s : DataState P) : DataState P :=
  let actuatorStatusWithRef : ActuatorStatus := ⟨value, reference, state⟩
  { s.log (.added deviceKey reference (.actuatorStatus actuatorStatusWithRef)) with
    actuatorStatuses := P.actuatorStatuses.put s.actuatorStatuses
      (makePersistenceKey deviceKey reference) actuatorStatusWithRef }

def addConfiguration (deviceKey : Str) (configuration : List ConfigurationItem)
    (s : DataState P) : DataState P :=
  { s.log (.added deviceKey [] (.configuration configuration)) with
    configurations := P.configurations.put s.configurations deviceKey configuration }

def publishSensorReadingsForPersistanceKey (persistanceKey : Str) (s : DataState P) :
    DataState P :=
  let r := publishBatches P.sensorReadings .sensorReadings .sensorReading env persistanceKey
    s.sensorReadings s.trace
  { s with sensorReadings := r.1, trace := r.2 }

def publishSensorReadings (s : DataState P) : DataState P :=
  (P.sensorReadings.keys s.sensorReadings).foldl
    (fun s key => publishSensorReadingsForPersistanceKey env key s) s

def publishSensorReadingsOf (deviceKey : Str) (s : DataState P) : DataState P :=
  (findMatchingPersistanceKeys deviceKey (P.sensorReadings.keys s.sensorReadings)).foldl
    (fun s key => publishSensorReadingsForPersistanceKey env key s) s

def publishAlarmsForPersistanceKey (persistanceKey : Str) (s : DataState P) : DataState P :=
  let r := publishBatches P.alarms .alarms .alarm env persistanceKey s.alarms s.trace
  { s with alarms := r.1, trace := r.2 }

def publishAlarms (s : DataState P) : DataState P :=
  (P.alarms.keys s.alarms).foldl (fun s key => publishAlarmsForPersistanceKey env key s) s

def publishAlarmsOf (deviceKey : Str) (s : DataState P) : DataState P :=
  (findMatchingPersistanceKeys deviceKey (P.alarms.keys s.alarms)).foldl
    (fun s key => publishAlarmsForPersistanceKey env key s) s

def publishActuatorStatusesForPersistanceKey (persistanceKey : Str) (s : DataState P) :
    DataState P :=
  match P.actuatorStatuses.get s.actuatorStatuses persistanceKey with
  | none => s
  | some actuatorStatus =>
    let pair := parsePersistenceKey persistanceKey
    if pair.1.isEmpty || pair.2.isEmpty then
      { s.log (.attempted .actuatorStatuses persistanceKey pair.1
          [.actuatorStatus actuatorStatus] .unparsable) with
        actuatorStatuses := P.actuatorStatuses.remove s.actuatorStatuses persistanceKey }
    else
      let r := publishValue P.actuatorStatuses .actuatorStatuses .actuatorStatus env
        persistanceKey pair.1 actuatorStatus s.actuatorStatuses s.trace
      { s with actuatorStatuses := r.1, trace := r.2 }

def publishActuatorStatuses (s : DataState P) : DataState P :=
  (P.actuatorStatuses.keys s.actuatorStatuses).foldl
    (fun s key => publishActuatorStatusesForPersistanceKey env key s) s

def publishActuatorStatusesOf (deviceKey : Str) (s : DataState P) : DataState P :=
  (findMatchingPersistanceKeys deviceKey (P.actuatorStatuses.keys s.actuatorStatuses)).foldl
    (fun s key => publishActuatorStatusesForPersistanceKey env key s) s

/-- Configurations are kept under the device key itself, which is not parsed. -/
def publishConfigurationForPersistanceKey (persistanceKey : Str) (s : DataState P) :
    DataState P :=
  match P.configurations.get s.configurations persistanceKey with
  | none => s
  | some configuration =>
    let r := publishValue P.configurations .configurations .configuration env
      persistanceKey persistanceKey configuration s.configurations s.trace
    { s with configurations := r.1, trace := r.2 }

def publishConfiguration (s : DataState P) : DataState P :=
  (P.configurations.keys s.configurations).foldl
    (fun s key => publishConfigurationForPersistanceKey env key s) s

def publishConfigurationOf (deviceKey : Str) (s : DataState P) : DataState P :=
  publishConfigurationForPersistanceKey env deviceKey s

/-- The `DataProtocol` functions `messageReceived` asks. -/
structure DataProtocol where
  extractDeviceKeyFromChannel : Str → Str
  isActuatorGetMessage : InboundMessage → Bool
  isActuatorSetMessage : InboundMessage → Bool
  isConfigurationGetMessage : InboundMessage → Bool
  isConfigurationSetMessage : InboundMessage → Bool
  makeActuatorGetCommand : InboundMessage → Option Str
  makeActuatorSetCommand : InboundMessage → Option (Str × Str)
  makeConfigurationSetCommand : InboundMessage → Option (List ConfigurationItem)

/-- The command that the handler wired to the message's kind puts in Wolk's buffer. -/
def messageReceived (protocol : DataProtocol) (message : InboundMessage) : Option Command :=
  let deviceKey := protocol.extractDeviceKeyFromChannel message.channel
  if protocol.isActuatorGetMessage message then
    match protocol.makeActuatorGetCommand message with
    | none => none
    | some reference => some (.handleActuatorGetCommand deviceKey reference)
  else if deviceKey.isEmpty then none
  else if protocol.isActuatorSetMessage message then
    match protocol.makeActuatorSetCommand message with
    | none => none
    | some (reference, value) => some (.handleActuatorSetCommand deviceKey reference value)
  else if protocol.isConfigurationGetMessage message then
    some (.handleConfigurationGetCommand deviceKey)
  else if protocol.isConfigurationSetMessage message then
    match protocol.makeConfigurationSetCommand message with
    | none => none
    | some values => some (.handleConfigurationSetCommand deviceKey values)
  else none

inductive Received : Command → Prop
  | actuatorGet (key reference : Str) : Received (.handleActuatorGetCommand key reference)
  | actuatorSet (key reference value : Str) :
      Received (.handleActuatorSetCommand key reference value)
  | configurationGet (key : Str) : Received (.handleConfigurationGetCommand key)
  | configurationSet (key : Str) (configuration : List ConfigurationItem) :
      Received (.handleConfigurationSetCommand key configuration)

theorem received_of_messageReceived {protocol : DataProtocol} {message : InboundMessage}
    {c : Command} (h : messageReceived protocol message = some c) : Received c := by
  simp only [messageReceived] at h
  split_ifs at h
  · split at h
    · cases h
    · exact Option.some.inj h ▸ .actuatorGet _ _
  · split at h
    · cases h
    · exact Option.some.inj h ▸ .actuatorSet _ _ _
  · exact Option.some.inj h ▸ .configurationGet _
  · split at h
    · cases h
    · exact Option.some.inj h ▸ .configurationSet _ _

/-- The key splits into two parts that are both nonempty. -/
def Parses (key : Str) : Prop := (parsePersistenceKey key).1 ≠ [] ∧ (parsePersistenceKey key).2 ≠ []

instance (key : Str) : Decidable (Parses key) := inferInstanceAs (Decidable (_ ∧ _))

theorem isEmpty_or_isEmpty_iff (key : Str) :
    ((parsePersistenceKey key).1.isEmpty || (parsePersistenceKey key).2.isEmpty) = true ↔
      ¬ Parses key := by
  simp [Parses, List.isEmpty_iff]
  tauto

theorem delimiter_not_mem_parsePersistenceKey (key : Str) :
    PERSISTENCE_KEY_DELIMITER ∉ (parsePersistenceKey key).1 := by
  rw [parsePersistenceKey]
  cases h : DelimitedPairs.split PERSISTENCE_KEY_DELIMITER key with
  | none => simp
  | some pair => exact DelimitedPairs.not_mem_of_split h

theorem parsePersistenceKey_makePersistenceKey {deviceKey : Str} (reference : Str)
    (h : PERSISTENCE_KEY_DELIMITER ∉ deviceKey) :
    parsePersistenceKey (makePersistenceKey deviceKey reference) = (deviceKey, reference) := by
  rw [parsePersistenceKey, makePersistenceKey, DelimitedPairs.split_join _ h, Option.getD_some]

end WolkGateway.DataService
