import Mathlib.Data.List.Basic
import Std.Data.ExtTreeMap

/-!
# Devices, templates and the data they produce

The records the module exchanges with the platform. The core library's template classes
are only looked up by reference and compared for equality here, so everything in them
besides the reference is one `details` word.
-/

namespace WolkGateway

/-- `std::string`. -/
abbrev Str := List Char

namespace DeviceModel

inductive AssetKind | configuration | sensor | alarm | actuator deriving DecidableEq

/-- A template of one kind of asset; two kinds never mix. -/
structure AssetTemplate (kind : AssetKind) where
  reference : Str
  details : Str
  deriving DecidableEq

abbrev ConfigurationTemplate := AssetTemplate .configuration
abbrev SensorTemplate := AssetTemplate .sensor
abbrev AlarmTemplate := AssetTemplate .alarm
abbrev ActuatorTemplate := AssetTemplate .actuator

variable {kind : AssetKind}

def templateWithReference (ts : List (AssetTemplate kind)) (reference : Str) :
    Option (AssetTemplate kind) := ts.find? fun t => t.reference = reference

def hasTemplateWithReference (ts : List (AssetTemplate kind)) (reference : Str) : Bool :=
  (templateWithReference ts reference).isSome

structure DeviceTemplate where
  configurations : List ConfigurationTemplate
  sensors : List SensorTemplate
  alarms : List AlarmTemplate
  actuators : List ActuatorTemplate
  deriving DecidableEq

/-- `Device`, the core library's `DetailedDevice`. -/
structure Device where
  name : Str
  key : Str
  template : DeviceTemplate
  deriving DecidableEq

def Device.getActuatorReferences (device : Device) : List Str :=
  device.template.actuators.map AssetTemplate.reference

/-- The assets handed to `addAssetsToDevice`, and the request sent for them. -/
structure SubdeviceUpdateRequest where
  deviceKey : Str
  updateDefaultSemantics : Bool
  configurations : List ConfigurationTemplate
  sensors : List SensorTemplate
  alarms : List AlarmTemplate
  actuators : List ActuatorTemplate
  deriving DecidableEq

structure SensorReading where
  values : List Str
  reference : Str
  rtc : ℕ
  deriving DecidableEq

structure Alarm where
  active : Bool
  reference : Str
  rtc : ℕ
  deriving DecidableEq

/-- `ActuatorStatus::State`; the states the module never names are `other`. -/
inductive ActuatorState | ready | error | other (code : ℕ) deriving DecidableEq

/-- What a status provider answers. -/
structure ProvidedStatus where
  value : Str
  state : ActuatorState
  deriving DecidableEq

structure ActuatorStatus where
  value : Str
  reference : Str
  state : ActuatorState
  deriving DecidableEq

structure ConfigurationItem where
  values : List Str
  reference : Str
  deriving DecidableEq

/-- `DeviceStatus::Status`; the states the module never names are `other`. -/
inductive DeviceStatus | connected | offline | other (code : ℕ) deriving DecidableEq

/-- `PlatformResult::Code`; only `ok` is ever told apart. -/
inductive PlatformResult | ok | other (code : ℕ) deriving DecidableEq

abbrev Registry := Std.ExtTreeMap Str Device compare

def deviceExists (devices : Registry) (deviceKey : Str) : Bool := devices.contains deviceKey

def getDeviceKeys (devices : Registry) : List Str := devices.keys

def sensorDefinedForDevice (devices : Registry) (deviceKey reference : Str) : Bool :=
  match devices[deviceKey]? with
  | none => false
  | some device => hasTemplateWithReference device.template.sensors reference

def alarmDefinedForDevice (devices : Registry) (deviceKey reference : Str) : Bool :=
  match devices[deviceKey]? with
  | none => false
  | some device => hasTemplateWithReference device.template.alarms reference

def getActuatorReferences (devices : Registry) (deviceKey : Str) : List Str :=
  match devices[deviceKey]? with
  | none => []
  | some device => device.getActuatorReferences

def actuatorDefinedForDevice (devices : Registry) (deviceKey reference : Str) : Bool :=
  match devices[deviceKey]? with
  | none => false
  | some device => device.getActuatorReferences.contains reference

def configurationItemDefinedForDevice (devices : Registry) (deviceKey reference : Str) : Bool :=
  match devices[deviceKey]? with
  | none => false
  | some device => hasTemplateWithReference device.template.configurations reference

/-- One of the four loops of `validateAssetsToUpdate`: no passed template differs from the
stored one with its reference. -/
def conflictFree (stored passed : List (AssetTemplate kind)) : Bool :=
  passed.all fun t => match templateWithReference stored t.reference with
    | none => true
    | some existing => existing = t

def validateAssetsToUpdate (device : Device) (request : SubdeviceUpdateRequest) : Bool :=
  conflictFree device.template.configurations request.configurations &&
  conflictFree device.template.sensors request.sensors &&
  conflictFree device.template.alarms request.alarms &&
  conflictFree device.template.actuators request.actuators

/-- One of the four loops of `storeAssetsToDevice`: references already present are skipped. -/
def addMissing (stored passed : List (AssetTemplate kind)) : List (AssetTemplate kind) :=
  passed.foldl
    (fun ts t => if hasTemplateWithReference ts t.reference then ts else ts ++ [t]) stored

def storeAssetsToDevice (device : Device) (request : SubdeviceUpdateRequest) : Device :=
  { device with template := {
      configurations := addMissing device.template.configurations request.configurations
      sensors := addMissing device.template.sensors request.sensors
      alarms := addMissing device.template.alarms request.alarms
      actuators := addMissing device.template.actuators request.actuators } }

@[simp] theorem storeAssetsToDevice_key (device : Device) (request : SubdeviceUpdateRequest) :
    (storeAssetsToDevice device request).key = device.key := rfl

@[simp] theorem deviceExists_iff (devices : Registry) (deviceKey : Str) :
    deviceExists devices deviceKey = true ↔ deviceKey ∈ devices :=
  Std.ExtTreeMap.contains_iff_mem

@[simp] theorem deviceExists_eq_false_iff (devices : Registry) (deviceKey : Str) :
    deviceExists devices deviceKey = false ↔ deviceKey ∉ devices := by
  rw [← Bool.not_eq_true, deviceExists_iff]

theorem mem_getDeviceKeys (devices : Registry) (deviceKey : Str) :
    deviceKey ∈ getDeviceKeys devices ↔ deviceKey ∈ devices := Std.ExtTreeMap.mem_keys

theorem mem_of_actuatorDefined {devices : Registry} {deviceKey reference : Str}
    (h : actuatorDefinedForDevice devices deviceKey reference = true) : deviceKey ∈ devices := by
  by_contra hk
  simp [actuatorDefinedForDevice, Std.ExtTreeMap.getElem?_eq_none hk] at h

end DeviceModel

end WolkGateway
