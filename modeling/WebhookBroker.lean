import WebhookBroker.Dispatcher.LaneFairness
import WebhookBroker.Dispatcher.LaneWake
import WebhookBroker.Dispatcher.LaneGauges
import WebhookBroker.Dispatcher.LaneHeld
import WebhookBroker.Broker.LockOwner
import WebhookBroker.Broker.JobStates
import WebhookBroker.Broker.DeadCount
import WebhookBroker.Broker.DrainPages
import WebhookBroker.Broker.PruneStable
import WebhookBroker.Prune.Director
import WebhookBroker.Scheduler.CreatedOnce
import WebhookBroker.Scheduler.Progress
import WebhookBroker.Broker.PageLoops
import WebhookBroker.Broker.JobLookup
import WebhookBroker.Storage.MemoryCache
import WebhookBroker.Storage.CacheTransparent
import WebhookBroker.Controllers.ConditionalUpdate
import WebhookBroker.Dlq.Accounting
import WebhookBroker.Dlq.ExactlyOnce
import WebhookBroker.Dispatcher.CallConsumer
import WebhookBroker.Dispatcher.RecoveryPasses
import WebhookBroker.Storage.DispatchObjects
import WebhookBroker.Dispatcher.PauseChecks
import WebhookBroker.Dispatcher.StopReleases
import WebhookBroker.Dispatcher.Durations
import WebhookBroker.Broker.Attempts
import WebhookBroker.Controllers.Signature
import WebhookBroker.App.InitRuns
import WebhookBroker.Controllers.PageLinks
import WebhookBroker.Controllers.Links
import WebhookBroker.Storage.ChunkedQueries
import WebhookBroker.Broker.DrainRoundRobin
import WebhookBroker.Parking.Handoff
