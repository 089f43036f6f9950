import Rustee.Ai.StreamSettlement
import Rustee.Ai.ToolAudit
import Rustee.AiBatch.Artifacts
import Rustee.AiEval.Linearizable
import Rustee.AiWeb.Frames
import Rustee.Auth.PrincipalStorage
import Rustee.Auth.Session
import Rustee.Config.Builder
import Rustee.Core.PathParameters
import Rustee.Cron.Governor
import Rustee.Cron.NextOccurrence
import Rustee.Cron.Occurrences
import Rustee.Jobs.ProviderRetry
import Rustee.Jobs.RetrySchedule
import Rustee.Kafka.RetryChain
import Rustee.Mcp.EventGrammar
import Rustee.McpOAuth.ChallengeReading
import Rustee.McpOAuth.GateRegistry
import Rustee.McpOAuth.Revocation
import Rustee.McpOAuth.SecretCipher
import Rustee.Mongo.Fencing
import Rustee.Mongo.Isolation
import Rustee.Oidc.CacheDiscipline
import Rustee.Oidc.Introspection
import Rustee.OpenAi.ByteQueue
import Rustee.OpenAi.Embeddings
import Rustee.OpenAi.FrameLimit
import Rustee.OpenApi.Document
import Rustee.Outbox.AtLeastOnce
import Rustee.Outbox.Inbox
import Rustee.Outbox.RoundTrip
import Rustee.Redis.StorageKeys
import Rustee.RedisJobs.Budget
import Rustee.RedisJobs.Promotion
import Rustee.Router.Dispatch
import Rustee.Router.Reachable
import Rustee.Static.Containment
import Rustee.Static.Delivery
import Rustee.Static.Encoding
import Rustee.TrustedProxy.AntiSpoofing
