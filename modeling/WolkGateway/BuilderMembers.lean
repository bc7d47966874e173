import WolkGateway.WolkBuilder

/-!
# The builder as an object

The members of a `WolkBuilder`, what each setter writes, and what `build` takes out of the
builder: the persistence and the platform status listener are moved into the Wolk, all the
rest is copied.
-/

namespace WolkGateway.Wolk
open DeviceModel DataService

/-- The argument of a setter that takes a lambda or an object; either can be null. -/
inductive Overload
  | lambda (f : Option ℕ)
  | object (o : Option ℕ)
  deriving DecidableEq

inductive Form
  | lambda (id : ℕ)
  | object (id : ℕ)
  deriving DecidableEq

def Form.overload : Form → Overload
  | .lambda id => .lambda (some id)
  | .object id => .object (some id)

def Form.id : Form → ℕ
  | .lambda id | .object id => id

def Form.isLambda : Form → Bool
  | .lambda _ => true
  | .object _ => false

namespace Callback

/-- The body shared by the setters with two overloads: the form that is given is kept, the
other is cleared. -/
def set (c : Callback) : Overload → Callback
  | .lambda f => { c with lambda := f, object := none }
  | .object o => { c with object := o, lambda := none }

def used (c : Callback) : Option Form :=
  match c.object with
  | some id => some (.object id)
  | none => c.lambda.map .lambda

/-- What is left when the form that is called has been moved out; a `std::function` is empty
then. -/
def moveOut (c : Callback) : Callback :=
  match c.object with
  | some _ => { c with object := none }
  | none => { c with lambda := none }

def holding : Option Form → Callback
  | none => ⟨none, none⟩
  | some (.lambda id) => ⟨none, some id⟩
  | some (.object id) => ⟨some id, none⟩

theorem selected_eq (c : Callback) : c.selected = c.used.map Form.id := by
  obtain ⟨object, lambda⟩ := c
  cases object <;> cases lambda <;> rfl

@[simp] theorem set_overload (c : Callback) (form : Form) :
    c.set form.overload = holding (some form) := by
  cases form <;> rfl

@[simp] theorem used_holding (form : Option Form) : (holding form).used = form := by
  obtain _ | _ | _ := form <;> rfl

@[simp] theorem unset_holding (form : Option Form) : (holding form).unset = form.isNone := by
  obtain _ | _ | _ := form <;> rfl

@[simp] theorem moveOut_holding (form : Option Form) : (holding form).moveOut = holding none := by
  obtain _ | _ | _ := form <;> rfl

theorem holding_exclusive (form : Option Form) :
    (holding form).object = none ∨ (holding form).lambda = none := by
  obtain _ | _ | _ := form
  · exact .inl rfl
  · exact .inl rfl
  · exact .inr rfl

end Callback

namespace WolkBuilder

def MESSAGE_BUS_HOST : Str := "tcp://localhost:1883".toList

structure Members where
  /-- `m_host`. -/
  uri : Str
  callbacks : Callbacks
  /-- `m_persistence`, null once it has been moved out. -/
  persistence : Option Persistence
  firmwareInstaller : Option ℕ
  firmwareVersionProvider : Option ℕ
  /-- `m_platformStatusListener` and `m_platformStatusCallback`. -/
  platformStatus : Callback

structure Built where
  config : Config
  persistence : Option Persistence
  uri : Str
  /-- What `m_firmwareUpdateService` is given, if it is set. -/
  firmwareUpdate : Option (ℕ × Option ℕ)
  /-- What `m_platformStatusService` is given, if it is set. -/
  platformStatus : Option Form

namespace Members

def initial : Members where
  uri := MESSAGE_BUS_HOST
  callbacks := ⟨⟨none, none⟩, ⟨none, none⟩, ⟨none, none⟩, ⟨none, none⟩, ⟨none, none⟩, none⟩
  persistence := some .inMemory
  firmwareInstaller := none
  firmwareVersionProvider := none
  platformStatus := ⟨none, none⟩

variable (m : Members)

def host (host : Str) : Members := { m with uri := host }

def actuationHandler (handler : Overload) : Members :=
  { m with callbacks.actuationHandler := m.callbacks.actuationHandler.set handler }

def actuatorStatusProvider (provider : Overload) : Members :=
  { m with callbacks.actuatorStatusProvider := m.callbacks.actuatorStatusProvider.set provider }

def configurationHandler (handler : Overload) : Members :=
  { m with callbacks.configurationHandler := m.callbacks.configurationHandler.set handler }

def configurationProvider (provider : Overload) : Members :=
  { m with callbacks.configurationProvider := m.callbacks.configurationProvider.set provider }

def deviceStatusProvider (provider : Overload) : Members :=
  { m with callbacks.deviceStatusProvider := m.callbacks.deviceStatusProvider.set provider }

def withPersistence (persistence : Option Persistence) : Members :=
  { m with persistence := persistence }

def withFirmwareUpdate (installer provider : Option ℕ) : Members :=
  { m with firmwareInstaller := installer, firmwareVersionProvider := provider }

def withRegistrationResponseHandler (handler : Option ℕ) : Members :=
  { m with callbacks.registrationResponseHandler := handler }

def withPlatformStatusListener (listener : Overload) : Members :=
  { m with platformStatus := m.platformStatus.set listener }

def checked : WolkBuilder :=
  ⟨m.callbacks, m.firmwareInstaller.isSome, m.firmwareVersionProvider.isSome,
    m.platformStatus.object.isSome, m.platformStatus.lambda.isSome⟩

/-- `build`, with the members as it leaves them. A persistence that is null goes into the
Wolk like any other: nothing checks it before `DataService` is given a reference to it. -/
def build (core : CoreLibrary) (env : Environment) : Except String Built × Members :=
  match m.checked.build core env with
  | .error text => (.error text, m)
  | .ok config =>
    (.ok
      { config := config
        persistence := m.persistence
        uri := m.uri
        firmwareUpdate := m.firmwareInstaller.map (·, m.firmwareVersionProvider)
        platformStatus := m.platformStatus.used },
     { m with persistence := none, platformStatus := m.platformStatus.moveOut })

end Members

end WolkBuilder

/-- A call of a setter, with an argument that is not null, or of `build`. -/
inductive BuilderCall
  | host (host : Str)
  | actuationHandler (handler : Form)
  | actuatorStatusProvider (provider : Form)
  | configurationHandler (handler : Form)
  | configurationProvider (provider : Form)
  | deviceStatusProvider (provider : Form)
  | withPersistence (persistence : Persistence)
  | withFirmwareUpdate (installer provider : ℕ)
  | withRegistrationResponseHandler (handler : ℕ)
  | withPlatformStatusListener (listener : Form)
  | build

def WolkBuilder.Members.perform (core : CoreLibrary) (env : Environment) (m : Members) :
    BuilderCall → Members
  | .host host => m.host host
  | .actuationHandler handler => m.actuationHandler handler.overload
  | .actuatorStatusProvider provider => m.actuatorStatusProvider provider.overload
  | .configurationHandler handler => m.configurationHandler handler.overload
  | .configurationProvider provider => m.configurationProvider provider.overload
  | .deviceStatusProvider provider => m.deviceStatusProvider provider.overload
  | .withPersistence persistence => m.withPersistence (some persistence)
  | .withFirmwareUpdate installer provider => m.withFirmwareUpdate (some installer) (some provider)
  | .withRegistrationResponseHandler handler => m.withRegistrationResponseHandler (some handler)
  | .withPlatformStatusListener listener => m.withPlatformStatusListener listener.overload
  | .build => (m.build core env).2

end WolkGateway.Wolk
