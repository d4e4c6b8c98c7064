import Plasmoid.Lib.Table
import Plasmoid.Lib.LockCommit
import Plasmoid.Lib.Machine
import Plasmoid.Lib.Tasks
import Plasmoid.Lib.Spread
import Plasmoid.ExitPropagation
import Plasmoid.Signals
import Plasmoid.Evolution
import Plasmoid.PeerNode
import Plasmoid.TwoNodes
import Plasmoid.Party
import Plasmoid.FiresOnce
import Plasmoid.NeverSilent
import Plasmoid.NodeLife
import Plasmoid.Calls
import Plasmoid.Sections
import Plasmoid.NameOwnership
import Plasmoid.GlobalNames
import Plasmoid.GlobalClaims
import Plasmoid.ClaimFailures
import Plasmoid.Cluster
import Plasmoid.Partitions
import Plasmoid.LossReports
import Plasmoid.LossFlood
import Plasmoid.ReportsFlood
import Plasmoid.DisconnectCascade
import Plasmoid.NameSync
import Plasmoid.SyncConvergence
import Plasmoid.CallEnvelope
import Plasmoid.GenServer
import Plasmoid.Connectivity
import Plasmoid.FullMesh
import Plasmoid.NameCluster
import Plasmoid.ReleasedNames
import Plasmoid.NameSpread
import Plasmoid.AgreedOwner
import Plasmoid.ClusterCalls
import Plasmoid.Mesh
import Plasmoid.AnnouncementsDieOut
import Plasmoid.SupervisorPlans
import Plasmoid.Spawning
import Plasmoid.PatienceDeadlines
import Plasmoid.ChildInstances
import Plasmoid.RestartWindow
import Plasmoid.SubtreeDrain
import Plasmoid.DynamicLoop
import Plasmoid.HostCalls
import Plasmoid.PeerCalls
import Plasmoid.RemoteHalves
import Plasmoid.RecordedHalves
import Plasmoid.NamedLinks
import Plasmoid.Demonitor
import Plasmoid.Lib.Framing
import Plasmoid.Frames
import Plasmoid.PeerStreams
import Plasmoid.StreamOrder
import Plasmoid.OutOfTurn
import Plasmoid.PidStrings
import Plasmoid.Lib.Window
import Plasmoid.LocalAnswers
import Plasmoid.LocalCalls
import Plasmoid.LinkSymmetry
import Plasmoid.MonitorTables
import Plasmoid.Withdrawals
import Plasmoid.SpawnLink
import Plasmoid.LossRound
import Plasmoid.Lib.Broadcast
import Plasmoid.RootWatch
import Plasmoid.NameRaces
import Plasmoid.FanOut
import Plasmoid.PolicyAgreement
import Plasmoid.Lib.Lanes
import Plasmoid.Mailboxes
import Plasmoid.Lib.Notify
import Plasmoid.Wakeups
import Plasmoid.ReceiveBudget
import Plasmoid.FrameCuts
import Plasmoid.EnvelopeTraps
import Plasmoid.CastBytes
import Plasmoid.Lib.Overwrites
import Plasmoid.AddressBook
import Plasmoid.Lib.SelfDelimiting
import Plasmoid.SyncLimits
import Plasmoid.ExchangeRuns
import Plasmoid.DeathsPublished
import Plasmoid.StreamHoldings
import Plasmoid.Lib.Tally
import Plasmoid.Deliveries
import Plasmoid.DeliveryBalance
import Plasmoid.DeliveryOrder
import Plasmoid.ScatteredDeath
import Plasmoid.LostNodeDeaths
import Plasmoid.SpawnCalls
import Plasmoid.SpawnAccounts
import Plasmoid.RingBenchmark
import Plasmoid.RingRuns
import Plasmoid.StartArguments
