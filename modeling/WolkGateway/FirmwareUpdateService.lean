import WolkGateway.PlatformServices

/-!
# The firmware update service

Its commands run on a buffer of their own, beside Wolk's. Running one yields the calls it
makes and the commands it puts behind the others.
-/

namespace WolkGateway.FirmwareUpdateService
open DeviceModel DataService

variable {P : Persistence}

structure FirmwareProtocol where
  makeFirmwareUpdateInstall : InboundMessage → Option FirmwareUpdateInstall
  makeFirmwareUpdateAbort : InboundMessage → Option FirmwareUpdateAbort

def messageReceived (protocol : FirmwareProtocol) (message : InboundMessage) :
    Option FirmwareCommand :=
  match protocol.makeFirmwareUpdateInstall message with
  | some installCommand => some (.install installCommand)
  | none =>
    match protocol.makeFirmwareUpdateAbort message with
    | some abortCommand => some (.abort abortCommand)
    | none => none

variable (env : Environment)

def sendStatus (deviceKey : Str) (status : FirmwareUpdateStatus) (s : DataState P) :
    DataState P := s.send env (.firmwareStatus deviceKey status)

/-- The state after a command, and what it put in the service's buffer. -/
abbrev Result (P : Persistence) := DataState P × List FirmwareCommand

def installSucceeded (deviceKey : Str) (s : DataState P) : Result P :=
  (sendStatus env deviceKey .completed s, [.publishFirmwareVersion deviceKey])

def installFailed (deviceKey : Str) (s : DataState P) : Result P :=
  (sendStatus env deviceKey .installationFailed s, [])

/-- A callback of the installer, whenever it comes. -/
def calledBack (deviceKey : Str) (success : Bool) (s : DataState P) : Result P :=
  let s := s.log (.installCalledBack deviceKey success)
  if success then installSucceeded env deviceKey s else installFailed env deviceKey s

def install (deviceKey firmwareFilePath : Str) (s : DataState P) : Result P :=
  let s := (sendStatus env deviceKey .installation s).log
    (.installCalled deviceKey firmwareFilePath)
  match env.installs s.trace deviceKey firmwareFilePath with
  | none => (s, [])
  | some success => calledBack env deviceKey success s

def abort (deviceKey : Str) (s : DataState P) : DataState P :=
  let aborted := env.aborts s.trace deviceKey
  let s := s.log (.abortCalled deviceKey aborted)
  if aborted then sendStatus env deviceKey .aborted s else s

/-- The one nonempty device key a command may name. -/
def deviceKeyOf (deviceKeys : List Str) : Option Str :=
  match deviceKeys with
  | [deviceKey] => if deviceKey.isEmpty then none else some deviceKey
  | _ => none

def handleFirmwareUpdateInstall (command : FirmwareUpdateInstall) (s : DataState P) : Result P :=
  match deviceKeyOf command.deviceKeys with
  | none => (s, [])
  | some deviceKey =>
    if command.fileName.isEmpty then (sendStatus env deviceKey .fileSystemError s, [])
    else if !env.isFilePresent s.trace command.fileName then
      (sendStatus env deviceKey .fileSystemError s, [])
    else install env deviceKey command.fileName s

def handleFirmwareUpdateAbort (command : FirmwareUpdateAbort) (s : DataState P) : Result P :=
  match deviceKeyOf command.deviceKeys with
  | none => (s, [])
  | some deviceKey => (abort env deviceKey s, [])

def runPublishFirmwareVersion (deviceKey : Str) (s : DataState P) : DataState P :=
  let firmwareVersion := env.firmwareVersion s.trace deviceKey
  let s := s.log (.firmwareVersionProvided deviceKey firmwareVersion)
  if firmwareVersion.isEmpty then s
  else s.send env (.firmwareVersion deviceKey firmwareVersion)

def runCommand (s : DataState P) : FirmwareCommand → Result P
  | .publishFirmwareVersion deviceKey => (runPublishFirmwareVersion env deviceKey s, [])
  | .install command => handleFirmwareUpdateInstall env command s
  | .abort command => handleFirmwareUpdateAbort env command s

end WolkGateway.FirmwareUpdateService
