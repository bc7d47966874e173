import WolkGateway.DataServiceConservation
import WolkGateway.DataServiceLatestValue
import WolkGateway.DataServicePublishing
import WolkGateway.PublishingByDevice
import WolkGateway.BroadcastGets
import WolkGateway.RegistrationCoverage
import WolkGateway.LastWill
import WolkGateway.RegistryDeterminism
import WolkGateway.AssetUpdates
import WolkGateway.RegistryStability
import WolkGateway.InboundRouting
import WolkGateway.WorkerProgress
import WolkGateway.DisconnectFinality
import WolkGateway.EntryPointGates
import WolkGateway.InboundCommandSafety
import WolkGateway.DataAttribution
import WolkGateway.DeclaredNames
import WolkGateway.RegistrationPrecedesData
import WolkGateway.RegistrationResponses
import WolkGateway.FirmwareStatusStream
import WolkGateway.RemovedDevices
import WolkGateway.BacklogDrain
import WolkGateway.DefaultTimestamps
import WolkGateway.BuilderHistories
import WolkGateway.Recovery
import WolkGateway.InboundReplies
import WolkGateway.ReadingDelivery
import WolkGateway.ObservedState
import WolkGateway.PersistenceIndependence
import WolkGateway.ProvidedReports
import WolkGateway.PlatformCopy
import WolkGateway.ConnectRefresh
