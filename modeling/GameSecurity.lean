import GameSecurity.Runs
import GameSecurity.RelayRoom
import GameSecurity.RelaySession
import GameSecurity.RelayLifecycle
import GameSecurity.Occupancy
import GameSecurity.RelayViewers
import GameSecurity.RelayProducers
import GameSecurity.RelayShutdown
import GameSecurity.LatestSlot
import GameSecurity.RelayDelivery
import GameSecurity.RelayFreshness
import GameSecurity.RelayAccounting
import GameSecurity.FiniteTable
import GameSecurity.RelayAuth
import GameSecurity.RelaySessionStore
import GameSecurity.RelayConfig
import GameSecurity.RelayCredentials
import GameSecurity.TokenBucket
import GameSecurity.RelayLimiter
import GameSecurity.JsonText
import GameSecurity.RelayProtocol
import GameSecurity.RelayPublishRate
import GameSecurity.RadarProtocol
import GameSecurity.RadarStream
import GameSecurity.RadarReconnect
import GameSecurity.SlotLedger
import GameSecurity.TeleportMailbox
import GameSecurity.TeleportSafety
import GameSecurity.TeleportOutcome
import GameSecurity.FlyMovement
import GameSecurity.FlyUnload
import GameSecurity.PositionSeqlock
import GameSecurity.IntervalScan
import GameSecurity.MemoryScan
import GameSecurity.MaximalRuns
import GameSecurity.RadarPlayerSample
import GameSecurity.FixedMapRadar
import GameSecurity.Hysteresis
import GameSecurity.FloorHysteresis
import GameSecurity.WebRadarFloor
import GameSecurity.RadarFloors
import GameSecurity.PortableExecutable
import GameSecurity.PatternScanner
import GameSecurity.LinkedWalk
import GameSecurity.AsciiText
import GameSecurity.PatternParser
import GameSecurity.RuntimeConfig
import GameSecurity.SchemaHash
import GameSecurity.MemoryFilter
import GameSecurity.PortableExports
import GameSecurity.LayoutFile
import GameSecurity.SortedMap
import GameSecurity.DumperOutput
import GameSecurity.JsonPrint
import GameSecurity.OutputJson
import GameSecurity.HeaderNames
import GameSecurity.CppTokens
import GameSecurity.HeaderComments
import GameSecurity.WebHost
import GameSecurity.WebOrigin
import GameSecurity.RelayOrigin
import GameSecurity.BombMarker
import GameSecurity.Binary64
import GameSecurity.NearestRank
import GameSecurity.PerformanceMetrics
import GameSecurity.CppLiterals
import GameSecurity.CatalogStrings
import GameSecurity.Recency
import GameSecurity.OwnedHandles
import GameSecurity.RadarTextures
import GameSecurity.ByteMemory
import GameSecurity.LinkedChain
import GameSecurity.SchemaBindings
import GameSecurity.SchemaScopes
import GameSecurity.TargetProcess
import GameSecurity.OffsetSignatures
import GameSecurity.InterfaceLists
import GameSecurity.DumperAnalysis
import GameSecurity.RelayAccess
import GameSecurity.RelayAnswer
import GameSecurity.RelayGate
import GameSecurity.LexicalPath
import GameSecurity.RelayStatic
import GameSecurity.RelayPipeline
import GameSecurity.SnapshotReplay
import GameSecurity.Asking
import GameSecurity.GameMemory
import GameSecurity.EntityCache
import GameSecurity.RadarSampler
import GameSecurity.RadarObservation
import GameSecurity.RadarEras
import GameSecurity.RadarSnapshots
import GameSecurity.RadarRuns
import GameSecurity.RadarDisplay
import GameSecurity.RelayClients
import GameSecurity.UrlParams
import GameSecurity.PageAddress
