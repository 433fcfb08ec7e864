import DroneEngage.EventRuns
import DroneEngage.OrderedMaps
import DroneEngage.IndexedLists
import DroneEngage.ForgetfulGates
import DroneEngage.InterruptedCalls
import DroneEngage.KeyedTransducers
import DroneEngage.LatestEvents
import DroneEngage.LeastSquares
import DroneEngage.StreamExtraction
import DroneEngage.IntegerText
import DroneEngage.CommentGrammar
import DroneEngage.Sha256Standard
import DroneEngage.MessageChunks
import DroneEngage.ChunkProtocol
import DroneEngage.DatagramClients
import DroneEngage.DatagramSizes
import DroneEngage.ModuleTransport
import DroneEngage.ChunkReassembly
import DroneEngage.UdpChunkRoundTrip
import DroneEngage.UnixChunkRoundTrip
import DroneEngage.UnixDatagramLoss
import DroneEngage.JsonValues
import DroneEngage.JsonObjects
import DroneEngage.CommentRemoval
import DroneEngage.CommentLaws
import DroneEngage.DoubleArithmetic
import DroneEngage.JsonReread
import DroneEngage.JsonText
import DroneEngage.DumpedText
import DroneEngage.ConfigFile
import DroneEngage.JsonErrors
import DroneEngage.ErrorLines
import DroneEngage.ConfigRoundTrip
import DroneEngage.DeepMerge
import DroneEngage.MergeLaw
import DroneEngage.ConfigStore
import DroneEngage.ConfigPublication
import DroneEngage.ConfigAtomicity
import DroneEngage.ConfigOverlay
import DroneEngage.LocalConfigFile
import DroneEngage.LocalConfigReload
import DroneEngage.CpuMonitor
import DroneEngage.CpuUsage
import DroneEngage.CpuThresholds
import DroneEngage.DoubleQuotients
import DroneEngage.MessageParser
import DroneEngage.CpuHysteresis
import DroneEngage.ProcSelfStat
import DroneEngage.CpuAggregator
import DroneEngage.CpuReporting
import DroneEngage.UnitCpuHistory
import DroneEngage.UnitCpuState
import DroneEngage.ReportingBoards
import DroneEngage.FifoLinks
import DroneEngage.CpuAgreement
import DroneEngage.CpuDetail
import DroneEngage.RunningMaxima
import DroneEngage.CpuWarning
import DroneEngage.ModuleHealth
import DroneEngage.TrackAssignment
import DroneEngage.AssignmentDuality
import DroneEngage.AssignmentPotentials
import DroneEngage.OptimalAssignment
import DroneEngage.TrackManager
import DroneEngage.ObservationWire
import DroneEngage.ObservationRoundTrip
import DroneEngage.ObservationParsing
import DroneEngage.TrackSteps
import DroneEngage.GatedMatchings
import DroneEngage.OptimalAssociation
import DroneEngage.PublishedOrder
import DroneEngage.TrackHistory
import DroneEngage.TrackIdentity
import DroneEngage.TrackLifecycle
import DroneEngage.TrackRestriction
import DroneEngage.TrackRenaming
import DroneEngage.TrackClasses
import DroneEngage.CapabilitySchema
import DroneEngage.CapabilityAdverts
import DroneEngage.CapabilityLookup
import DroneEngage.CapabilityTotality
import DroneEngage.CapabilityInvoke
import DroneEngage.CapabilityInvokeSteps
import DroneEngage.AcceptedAdverts
import DroneEngage.CapabilityInflight
import DroneEngage.CapabilityIdempotency
import DroneEngage.BoundedQueues
import DroneEngage.ReplayCache
import DroneEngage.CapabilityRecheck
import DroneEngage.CapabilityNormalForm
import DroneEngage.CapabilityNesting
import DroneEngage.CapabilityDepth
import DroneEngage.CapabilityValidatedCalls
import DroneEngage.CameraRegistry
import DroneEngage.RegistryLoading
import DroneEngage.EntryRoundTrip
import DroneEngage.RegistryReplacement
import DroneEngage.RegistryUpdates
import DroneEngage.GeoProjection
import DroneEngage.GeoProjectorCore
import DroneEngage.GeoSightings
import DroneEngage.GeoRegistry
import DroneEngage.GeoFailClosed
import DroneEngage.GeoFrameTime
import DroneEngage.GeoAdvert
import DroneEngage.GeoThrottle
import DroneEngage.ThrottleIsolation
import DroneEngage.Rotations
import DroneEngage.GeoGeometry
import DroneEngage.MacAddresses
import DroneEngage.Sha256
import DroneEngage.Sha256Padding
import DroneEngage.ModuleRegistration
import DroneEngage.ModulePublication
import DroneEngage.ModuleIdMessage
import DroneEngage.EventNonces
import DroneEngage.Mutexes
import DroneEngage.ClientLifecycle
import DroneEngage.ClientShutdown
import DroneEngage.StopReturns
import DroneEngage.BusMessages
import DroneEngage.ConfigWatch
import DroneEngage.ConfigConvergence
import DroneEngage.SecantSlopes
import DroneEngage.LeakDetection
import DroneEngage.ProcStat
import DroneEngage.LocalSettings
import DroneEngage.SettingsRestart
import DroneEngage.EventPatterns
import DroneEngage.RemoteConfig
import DroneEngage.RemoteSettings
import DroneEngage.PerceptionPipeline
import DroneEngage.CommandLine
import DroneEngage.CommandLineWords
import DroneEngage.CpuSummary
import DroneEngage.ProcStatus
