import Jaco.ReplicaDetails
import Jaco.SelfUpgrade
import Jaco.NetworkOrder
import Jaco.ManifestBounds
import Jaco.LoopFilters
import Jaco.LogLines
import Jaco.LocalAnswers
import Jaco.DnsForwarder
import Jaco.CredentialKeys
import Jaco.LockReadback
import Jaco.LockExclusion
import Jaco.RollingUpdates
import Jaco.RollbackManifest
import Jaco.TokenRuns
import Jaco.Revisions
import Jaco.JoinTokens
import Jaco.WatchRuns
import Jaco.AuditWatermark
import Jaco.SilentPasses
import Jaco.BrokerView
import Jaco.SubnetRuns
import Jaco.LateObservations
import Jaco.NodeRemoval
import Jaco.DrainSafety
import Jaco.StageHistory
import Jaco.Reloader
import Jaco.StagedIngress
import Jaco.PinnedRuns
import Jaco.FirewallStatus
import Jaco.DnsAnswers
import Jaco.DnsListeners
import Jaco.MeshRoutes
import Jaco.SubnetPurge
import Jaco.DeploymentDelete
import Jaco.ReplaceSets
import Jaco.IpamHistories
import Jaco.DrainRecords
import Jaco.PackBalance
import Jaco.ImageChanges
import Jaco.RebalanceChoices
import Jaco.Residence
import Jaco.RunningStreaks
import Jaco.FollowerReloads
import Jaco.ListingSegments
import Jaco.ManifestPaths
import Jaco.RouteAgreement
