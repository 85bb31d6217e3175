import MaRuntime.Library.Runs
import MaRuntime.Library.KeyedMap
import MaRuntime.Library.Yaml
import MaRuntime.Library.Parsing
import MaRuntime.Library.ContentStore
import MaRuntime.Library.WriteBack
import MaRuntime.Library.Reconcile
import MaRuntime.Library.References
import MaRuntime.Library.Chains
import MaRuntime.Library.Timestamps
import MaRuntime.Library.FirstOccurrences
import MaRuntime.Library.Mailbox
import MaRuntime.Scheduler.Registry
import MaRuntime.Scheduler.LatestWins
import MaRuntime.Scheduler.Standing
import MaRuntime.Acl.CheckFull
import MaRuntime.Acl.Grants
import MaRuntime.Acl.Laws
import MaRuntime.Daemon.Config
import MaRuntime.Daemon.Claim
import MaRuntime.Manifest.Documents
import MaRuntime.Manifest.Writer
import MaRuntime.Manifest.Serialisable
import MaRuntime.Manifest.Head
import MaRuntime.Manifest.SharedHead
import MaRuntime.Manifest.DurableHead
import MaRuntime.Plugin.Worker
import MaRuntime.Plugin.LastQueued
import MaRuntime.Plugin.Bookkeeping
import MaRuntime.Plugin.Isolation
import MaRuntime.Plugin.Requests
import MaRuntime.Plugin.Savers
import MaRuntime.Plugin.LastState
import MaRuntime.Plugin.Attended
import MaRuntime.Plugin.Acknowledged
import MaRuntime.Plugin.Reload
import MaRuntime.Plugin.Load
import MaRuntime.Plugin.Callers
import MaRuntime.Kinds.Tree
import MaRuntime.Kinds.FiniteMap
import MaRuntime.Kinds.Extends
import MaRuntime.Kinds.Resolvable
import MaRuntime.Kinds.Encoding
import MaRuntime.Kinds.Fold
import MaRuntime.Kinds.Registry
import MaRuntime.Kinds.Dependents
import MaRuntime.Kinds.Reloads
import MaRuntime.Kinds.Newest
import MaRuntime.Crud.EntityField
import MaRuntime.Crud.Agreement
import MaRuntime.Dispatch.Delivery
import MaRuntime.Dispatch.Entities
import MaRuntime.Dispatch.SideEffects
import MaRuntime.Dispatch.Independence
import MaRuntime.Dispatch.Creation
import MaRuntime.Dispatch.Deletion
import MaRuntime.Dispatch.Tree
import MaRuntime.Dispatch.Genesis
import MaRuntime.Crud.Parentless
import MaRuntime.Crud.Names
import MaRuntime.Crud.Requests
import MaRuntime.Crud.Sequences
import MaRuntime.Scheduler.Request
import MaRuntime.Scheduler.Keys
import MaRuntime.Scheduler.Durations
import MaRuntime.Scheduler.Delays
import MaRuntime.Scheduler.Content
import MaRuntime.Scheduler.Registrant
import MaRuntime.Scheduler.Acceptance
import MaRuntime.Daemon.Access
import MaRuntime.Daemon.Lockout
import MaRuntime.Daemon.Unclaimed
import MaRuntime.Daemon.OwnerList
import MaRuntime.Daemon.Revocation
import MaRuntime.Daemon.FirstClaim
import MaRuntime.Daemon.Protected
import MaRuntime.Daemon.Mirror
import MaRuntime.Crud.Settings
import MaRuntime.Crud.Management
import MaRuntime.Crud.Footprint
import MaRuntime.Crud.Confined
import MaRuntime.Crud.Authority
import MaRuntime.Did.DocumentCache
import MaRuntime.Did.RefreshWorker
import MaRuntime.Boot.Restarts
import MaRuntime.Bootstrap.Export
import MaRuntime.Bootstrap.Lossless
import MaRuntime.Library.Clock
import MaRuntime.Library.Escalation
import MaRuntime.Library.Paths
import MaRuntime.Outbox.Backoff
import MaRuntime.Outbox.Overflow
import MaRuntime.Manifest.Pins
import MaRuntime.Did.ResolveRace
import MaRuntime.Outbox.Connections
import MaRuntime.Ipfs.Keys
import MaRuntime.Ipfs.Identities
import MaRuntime.Ipfs.Gate
import MaRuntime.Dispatch.Outbound
import MaRuntime.Dispatch.Replies
import MaRuntime.Scheduler.Jobs
import MaRuntime.Status.Gateway
