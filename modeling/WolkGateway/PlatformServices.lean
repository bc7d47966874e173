import WolkGateway.DataService

/-!
# The device status, registration and platform status services

Each service turns an inbound message into at most one command for Wolk's buffer, through
the handler `WolkBuilder::build` wires to it, and sends the messages it is asked to send.
-/

namespace WolkGateway
open DeviceModel DataService

variable {P : Persistence}

/-- `makeMessage` and `publish`, for the messages that do not go through persistence. -/
def DataService.DataState.send (env : Environment) (message : OutboundMessage) (s : DataState P) :
    DataState P :=
  s.log (.sent message (env.outcome s.trace message))

namespace DeviceStatusService

structure StatusProtocol where
  extractDeviceKeyFromChannel : Str → Str
  isStatusRequestMessage : InboundMessage → Bool

def messageReceived (protocol : StatusProtocol) (message : InboundMessage) : Option Command :=
  let deviceKey := protocol.extractDeviceKeyFromChannel message.channel
  if protocol.isStatusRequestMessage message then some (.handleDeviceStatusRequest deviceKey)
  else none

variable (env : Environment)

def publishDeviceStatusResponse (deviceKey : Str) (status : DeviceStatus) (s : DataState P) :
    DataState P := s.send env (.statusResponse deviceKey status)

def publishDeviceStatusUpdate (deviceKey : Str) (status : DeviceStatus) (s : DataState P) :
    DataState P := s.send env (.statusUpdate deviceKey status)

def devicesUpdated (deviceKeys : List Str) (s : DataState P) : DataState P :=
  if !env.makesMessage s.trace (.lastWill deviceKeys) then
    s.log (.sent (.lastWill deviceKeys) .unbuildable)
  else s.log (.setUncontrolledDisconnectMessage deviceKeys)

end DeviceStatusService

namespace DeviceRegistrationService

structure RegistrationProtocol where
  extractDeviceKeyFromChannel : Str → Str
  isSubdeviceRegistrationResponse : InboundMessage → Bool
  makeSubdeviceRegistrationResponse : InboundMessage → Option PlatformResult

def messageReceived (protocol : RegistrationProtocol) (message : InboundMessage) :
    Option Command :=
  let deviceKey := protocol.extractDeviceKeyFromChannel message.channel
  if deviceKey.isEmpty then none
  else if protocol.isSubdeviceRegistrationResponse message then
    match protocol.makeSubdeviceRegistrationResponse message with
    | none => none
    | some result => some (.handleRegistrationResponse deviceKey result)
  else none

variable (env : Environment)

def publishRegistrationRequest (device : Device) (s : DataState P) : DataState P :=
  s.send env (.registrationRequest device)

def publishUpdateRequest (request : SubdeviceUpdateRequest) (s : DataState P) : DataState P :=
  s.send env (.updateRequest request)

end DeviceRegistrationService

namespace PlatformStatusService

def PLATFORM_STATUS_CHANNEL : Str := "p2d/connection_status".toList

def fromString (value : Str) : ConnectivityStatus :=
  let upperCase := value.map Char.toUpper
  if upperCase = "CONNECTED".toList then .connected
  else if upperCase = "OFFLINE".toList then .offline
  else .none

def parsePlatformStatusMessage (message : InboundMessage) : Option ConnectivityStatus :=
  if message.channel ≠ PLATFORM_STATUS_CHANNEL then none
  else match fromString message.content with
    | .none => none
    | status => some status

/-- The status handed to the listener, through the service's own command buffer. -/
def messageReceived (message : InboundMessage) : Option ConnectivityStatus :=
  parsePlatformStatusMessage message

end PlatformStatusService

end WolkGateway
