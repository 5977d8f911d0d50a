import OfflineProtocol.KeyedTable
import OfflineProtocol.EventTrace
import OfflineProtocol.Message
import OfflineProtocol.RelaySeen
import OfflineProtocol.RelaySeenRuns
import OfflineProtocol.TokenBudget
import OfflineProtocol.MeshTypes
import OfflineProtocol.RelayGovernor
import OfflineProtocol.RelayLimits
import OfflineProtocol.CustodyStore
import OfflineProtocol.CustodyAccounting
import OfflineProtocol.CustodyEviction
import OfflineProtocol.CustodyFairness
import OfflineProtocol.MeshEngine
import OfflineProtocol.GovernorFrame
import OfflineProtocol.MeshTrace
import OfflineProtocol.MeshRefinement
import OfflineProtocol.AdmitRefinement
import OfflineProtocol.CustodyRefinement
import OfflineProtocol.FileWindow
import OfflineProtocol.FlushRefinement
import OfflineProtocol.MarkedForwards
import OfflineProtocol.MeshCoherence
import OfflineProtocol.MeshSuppression
import OfflineProtocol.MeshRoutes
import OfflineProtocol.CustodyHolds
import OfflineProtocol.PendingQueue
import OfflineProtocol.PendingRemoval
import OfflineProtocol.PendingMirror
import OfflineProtocol.SubscriptionTypes
import OfflineProtocol.ProviderTopic
import OfflineProtocol.SubscriptionProvider
import OfflineProtocol.ProviderTable
import OfflineProtocol.ProviderCalls
import OfflineProtocol.ProviderAnswers
import OfflineProtocol.SubscriptionTable
import OfflineProtocol.SubscriptionConsumer
import OfflineProtocol.ConsumerTracks
import OfflineProtocol.ConsumerOrder
import OfflineProtocol.Interruption
import OfflineProtocol.LeafStore
import OfflineProtocol.LeafDevice
import OfflineProtocol.LeafRuns
import OfflineProtocol.LeafSeals
import OfflineProtocol.LeafResets
import OfflineProtocol.LeafErasure
import OfflineProtocol.LeafMarkers
import OfflineProtocol.LeafAnswers
import OfflineProtocol.PreSessionQueue
import OfflineProtocol.PreSessionFlush
import OfflineProtocol.PreSessionConservation
import OfflineProtocol.SendEngine
import OfflineProtocol.SendFrames
import OfflineProtocol.SendSettled
import OfflineProtocol.SendWindow
import OfflineProtocol.ByteFraming
import OfflineProtocol.AddressText
import OfflineProtocol.SignedPayloads
import OfflineProtocol.SessionStore
import OfflineProtocol.SessionDevice
import OfflineProtocol.SessionSteady
import OfflineProtocol.SessionOutcomes
import OfflineProtocol.SessionCoherence
import OfflineProtocol.SessionMarks
import OfflineProtocol.CausalPool
import OfflineProtocol.FaultySchedule
import OfflineProtocol.DataEngine
import OfflineProtocol.DataOffers
import OfflineProtocol.DataStore
import OfflineProtocol.DataRecords
import OfflineProtocol.DataIsolation
import OfflineProtocol.DataAround
import OfflineProtocol.DataDurability
import OfflineProtocol.DataCrashes
import OfflineProtocol.DataSync
import OfflineProtocol.DataAnnounced
import OfflineProtocol.DataSyncAround
import OfflineProtocol.DataAnnounceRuns
import OfflineProtocol.MeshServices
import OfflineProtocol.DiscoveryPaths
import OfflineProtocol.KeyPackagePool
import OfflineProtocol.KeyPackageScan
import OfflineProtocol.KeyPackageHandOut
import OfflineProtocol.KeyPackageRuns
import OfflineProtocol.InitKeys
import OfflineProtocol.GroupRatchet
import OfflineProtocol.StateAdoption
import OfflineProtocol.AdoptedState
import OfflineProtocol.NostrPadding
import OfflineProtocol.NostrWatermark
import OfflineProtocol.StreamFraming
import OfflineProtocol.AirtimeCeiling
import OfflineProtocol.IdleForwarding
import OfflineProtocol.FragmentAttribution
import OfflineProtocol.WireCodec
import OfflineProtocol.ConsumerBounds
import OfflineProtocol.LamportOrder
import OfflineProtocol.SealedEnvelope
import OfflineProtocol.LeaveElection
import OfflineProtocol.ForwardLedger
import OfflineProtocol.FragmentBounds
