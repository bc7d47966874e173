import WolkGateway.WolkCommands

/-!
# Building a Wolk

`WolkBuilder::build` refuses an incomplete set of callbacks, and registers the services it
creates with the inbound handler.
-/

namespace WolkGateway.Wolk
open DeviceModel DataService

/-- What the builder was given. An installer, a provider or a listener is set or not. -/
structure WolkBuilder where
  callbacks : Callbacks
  firmwareInstaller : Bool
  firmwareVersionProvider : Bool
  platformStatusListener : Bool
  platformStatusCallback : Bool

/-- The protocols of the core library, each with its inbound channels. -/
structure CoreLibrary where
  dataProtocol : DataProtocol
  statusProtocol : DeviceStatusService.StatusProtocol
  registrationProtocol : DeviceRegistrationService.RegistrationProtocol
  firmwareUpdateProtocol : FirmwareUpdateService.FirmwareProtocol
  dataChannels : List Str
  statusChannels : List Str
  registrationChannels : List Str
  firmwareUpdateChannels : List Str
  mqttTopicMatch : Str → Str → Bool

def CoreLibrary.getInboundChannels (core : CoreLibrary) : Listener → List Str
  | .firmwareUpdateService => core.firmwareUpdateChannels
  | .platformStatusService => [PlatformStatusService.PLATFORM_STATUS_CHANNEL]
  | .dataService => core.dataChannels
  | .deviceStatusService => core.statusChannels
  | .deviceRegistrationService => core.registrationChannels

def Callback.unset (c : Callback) : Bool := c.lambda.isNone && c.object.isNone

/-- One of the two is set and the other is not. -/
def unpaired (handler provider : Option ℕ) : Bool :=
  handler.isNone && provider.isSome || handler.isSome && provider.isNone

namespace WolkBuilder

/-- The listeners, in the order in which they are added. -/
def listeners (builder : WolkBuilder) : List Listener :=
  (if builder.firmwareInstaller then [.firmwareUpdateService] else []) ++
  (if builder.platformStatusListener || builder.platformStatusCallback
    then [.platformStatusService] else []) ++
  [.dataService, .deviceStatusService, .deviceRegistrationService]

/-- A failed check throws a `std::logic_error` with the text. -/
def build (builder : WolkBuilder) (core : CoreLibrary) (env : Environment) :
    Except String Config :=
  let callbacks := builder.callbacks
  if callbacks.actuationHandler.unset then .error "Actuation handler not set."
  else if callbacks.actuatorStatusProvider.unset then .error "Actuator status provider not set."
  else if callbacks.deviceStatusProvider.unset then .error "Device status provider not set."
  else if unpaired callbacks.configurationHandler.lambda callbacks.configurationProvider.lambda then
    .error "Both ConfigurationProvider and ConfigurationHandler must be set."
  else if unpaired callbacks.configurationHandler.object callbacks.configurationProvider.object then
    .error "Both ConfigurationProvider and ConfigurationHandler must be set."
  else if builder.firmwareInstaller != builder.firmwareVersionProvider then
    .error "Both FirmwareInstaller and FirmwareVersionProvider must be set."
  else .ok
    { env := env
      callbacks := callbacks
      dataProtocol := core.dataProtocol
      statusProtocol := core.statusProtocol
      registrationProtocol := core.registrationProtocol
      firmwareUpdateProtocol := core.firmwareUpdateProtocol
      hasFirmwareUpdateService := builder.firmwareInstaller
      inboundMessageHandler := builder.listeners.foldl (fun handler listener =>
        handler.addListener listener (core.getInboundChannels listener)) .empty
      mqttTopicMatch := core.mqttTopicMatch }

end WolkBuilder

/-- The callbacks of a built Wolk: only the two for configurations may be missing, and then
both are. -/
structure Wired (callbacks : Callbacks) : Prop where
  actuationHandler : callbacks.actuationHandler.selected.isSome
  actuatorStatusProvider : callbacks.actuatorStatusProvider.selected.isSome
  deviceStatusProvider : callbacks.deviceStatusProvider.selected.isSome
  configuration : callbacks.configurationHandler.selected.isSome =
    callbacks.configurationProvider.selected.isSome

@[simp] theorem selected_isSome (c : Callback) : c.selected.isSome = !c.unset := by
  obtain ⟨object, lambda⟩ := c
  cases object <;> cases lambda <;> rfl

theorem unpaired_eq_false {handler provider : Option ℕ} :
    unpaired handler provider = false ↔ handler.isSome = provider.isSome := by
  cases handler <;> cases provider <;> simp [unpaired]

theorem wired_of_build {builder : WolkBuilder} {core : CoreLibrary} {env : Environment}
    {cfg : Config} (h : builder.build core env = .ok cfg) : Wired cfg.callbacks := by
  simp only [WolkBuilder.build] at h
  split_ifs at h with h1 h2 h3 h4 h5 h6
  rw [← Except.ok.inj h]
  constructor
  · simpa using h1
  · simpa using h2
  · simpa using h3
  · rw [Bool.not_eq_true, unpaired_eq_false] at h4 h5
    simp only [selected_isSome, Callback.unset, ← Option.not_isSome, h4, h5]

def WolkBuilder.bare : WolkBuilder :=
  ⟨⟨⟨none, some 1⟩, ⟨none, some 2⟩, ⟨none, some 3⟩, ⟨none, none⟩, ⟨none, none⟩, none⟩,
    false, false, false, false⟩

def CoreLibrary.silent : CoreLibrary where
  dataProtocol := ⟨fun _ => [], fun _ => false, fun _ => false, fun _ => false, fun _ => false,
    fun _ => none, fun _ => none, fun _ => none⟩
  statusProtocol := ⟨fun _ => [], fun _ => false⟩
  registrationProtocol := ⟨fun _ => [], fun _ => false, fun _ => none⟩
  firmwareUpdateProtocol := ⟨fun _ => none, fun _ => none⟩
  dataChannels := []
  statusChannels := []
  registrationChannels := []
  firmwareUpdateChannels := []
  mqttTopicMatch pattern channel := pattern = channel

def Config.bare (env : Environment) : Config where
  env := env
  callbacks := WolkBuilder.bare.callbacks
  dataProtocol := CoreLibrary.silent.dataProtocol
  statusProtocol := CoreLibrary.silent.statusProtocol
  registrationProtocol := CoreLibrary.silent.registrationProtocol
  firmwareUpdateProtocol := CoreLibrary.silent.firmwareUpdateProtocol
  hasFirmwareUpdateService := false
  inboundMessageHandler := .empty
  mqttTopicMatch := CoreLibrary.silent.mqttTopicMatch

example (env : Environment) :
    WolkBuilder.bare.build CoreLibrary.silent env = .ok (.bare env) := rfl

end WolkGateway.Wolk
