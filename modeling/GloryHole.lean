import GloryHole.Api.Proofs.DohTypes
import GloryHole.Api.Proofs.EngineAgreement
import GloryHole.Api.Proofs.EnvPassword
import GloryHole.Api.Proofs.ForwardedFor
import GloryHole.Api.Proofs.Gate
import GloryHole.Api.Proofs.GroupAgreement
import GloryHole.Api.Proofs.ReEnabling
import GloryHole.Api.Proofs.RecordIds
import GloryHole.Api.Proofs.Reloadable
import GloryHole.Api.Proofs.SerialEdits
import GloryHole.Api.Proofs.ZoneEdits
import GloryHole.Blocklist.Proofs.Attribution
import GloryHole.Blocklist.Proofs.LongestMatch
import GloryHole.Blocklist.Proofs.Refresh
import GloryHole.Boot.LocalImport
import GloryHole.Boot.Proofs.AllowedClients
import GloryHole.Boot.Proofs.EntryMeaning
import GloryHole.Boot.Proofs.EnvSecrets
import GloryHole.Boot.Proofs.Forwarding
import GloryHole.Boot.Proofs.NoLoss
import GloryHole.Boot.Proofs.Recursion
import GloryHole.Boot.Proofs.SavedSections
import GloryHole.Cache.Proofs.Agreement
import GloryHole.Cache.Proofs.Expiry
import GloryHole.Cache.Proofs.Keys
import GloryHole.Cache.Proofs.Lifetimes
import GloryHole.Cache.Proofs.Refreshing
import GloryHole.Config.Proofs.Convergence
import GloryHole.Dns.Proofs.Ageing
import GloryHole.Dns.Proofs.BlockingOff
import GloryHole.Dns.Proofs.CacheFree
import GloryHole.Dns.Proofs.Challenges
import GloryHole.Dns.Proofs.Edns
import GloryHole.Dns.Proofs.EndToEnd
import GloryHole.Dns.Proofs.Isolation
import GloryHole.Dns.Proofs.Replays
import GloryHole.Dns.Proofs.Snapshot
import GloryHole.Forwarder.Proofs.Attempts
import GloryHole.Forwarder.Proofs.BreakerRefinement
import GloryHole.Forwarder.Proofs.FailFast
import GloryHole.Forwarder.Proofs.HalfOpenSlots
import GloryHole.LocalRecords.Proofs.ApiReload
import GloryHole.LocalRecords.Proofs.HotReload
import GloryHole.LocalRecords.Proofs.Wildcards
import GloryHole.Policy.HelperCaches
import GloryHole.Policy.Proofs.LabelMatching
import GloryHole.Policy.RuleSlices
import GloryHole.Storage.Proofs.Flushing
import GloryHole.Storage.Proofs.Retention
import GloryHole.Storage.Proofs.Sends
import GloryHole.Storage.Proofs.Statistics
import GloryHole.Storage.Traces
import GloryHole.Unbound.Proofs.Injection
