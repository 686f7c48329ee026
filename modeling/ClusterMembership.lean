import ClusterMembership.EventBus
import ClusterMembership.Lock.Strand
import ClusterMembership.Node.Validation
import ClusterMembership.Session.Step
import ClusterMembership.Proofs.Durability
import ClusterMembership.Proofs.Restart
import ClusterMembership.Proofs.CommandLedger
import ClusterMembership.Proofs.Exclusion
import ClusterMembership.Proofs.Health
import ClusterMembership.Proofs.Authority
import ClusterMembership.Proofs.Serial
import ClusterMembership.Proofs.TopologyHistory
import ClusterMembership.Proofs.StrictDurability
import ClusterMembership.Proofs.Interleaving
import ClusterMembership.Proofs.Starting
import ClusterMembership.Proofs.Rollback
import ClusterMembership.Proofs.StaleRows
import ClusterMembership.Proofs.Outdated
import ClusterMembership.Proofs.ObserverCommands
import ClusterMembership.Proofs.EventReplay
import ClusterMembership.Proofs.Departure
import ClusterMembership.Proofs.TableAgreement
import ClusterMembership.Proofs.PagingAmidWrites
import ClusterMembership.Proofs.ReadBack
import ClusterMembership.Proofs.Overtaking
import ClusterMembership.Proofs.Snapshots
import ClusterMembership.Proofs.Descriptors
import ClusterMembership.Proofs.EscapedTasks
import ClusterMembership.Proofs.Commuting
import ClusterMembership.Proofs.Subscriptions
import ClusterMembership.Proofs.TopologyAdmission
import ClusterMembership.Proofs.FailedWrite
import ClusterMembership.Proofs.RegistryFrame
import ClusterMembership.Proofs.InterruptedLoad
import ClusterMembership.Proofs.HeartbeatReply
import ClusterMembership.Proofs.OfferedDetails
import ClusterMembership.Proofs.HealthGains
import ClusterMembership.Proofs.PageSizes
import ClusterMembership.Proofs.RepeatedRegistration
import ClusterMembership.Proofs.StoredContents
import ClusterMembership.Proofs.ScopeLeaves
import ClusterMembership.Proofs.ConfigurationChecks
import ClusterMembership.Proofs.HostNameGrammar
import ClusterMembership.Proofs.PortRules
import ClusterMembership.Proofs.Listing
import ClusterMembership.Proofs.DurationGrammar
import ClusterMembership.Proofs.LogThreshold
import ClusterMembership.Proofs.QueueCounters
