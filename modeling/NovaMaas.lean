import NovaMaas.Billing.Outcome
import NovaMaas.Billing.CostTelescope
import NovaMaas.Auth.SessionRotation
import NovaMaas.Auth.UserFence
import NovaMaas.Quota.NoOversell
import NovaMaas.Quota.BatchConservation
import NovaMaas.Task.SystemLease
import NovaMaas.Convert.ClaudePlaces
import NovaMaas.Convert.ResponsesCoherent
import NovaMaas.Convert.ToolArguments
import NovaMaas.Convert.AnswerRoundTrip
import NovaMaas.Convert.ClaudeAnswerStream
import NovaMaas.Convert.ClaudeConversation
import NovaMaas.Convert.GeminiStream
import NovaMaas.Billing.ExprCacheRuns
import NovaMaas.Convert.RequestRoundTrip
import NovaMaas.Convert.ChatToClaudeAgain
import NovaMaas.Convert.GeminiToChatKept
import NovaMaas.Webhook.DeliveryLease
import NovaMaas.Routing.MultiKeyStatus
import NovaMaas.Pricing.TierPrices
import NovaMaas.Pricing.RuleRoundTrip
import NovaMaas.Auth.SmsBudgets
import NovaMaas.Webhook.TaskVersions
import NovaMaas.Wallet.ManualCompletion
import NovaMaas.Wallet.TopUpOnce
import NovaMaas.Assets.ChannelRate
import NovaMaas.Assets.LeaderLease
import NovaMaas.Archive.SnapshotOrder
import NovaMaas.Auth.FlowOnce
import NovaMaas.Auth.TwoFactorLock
import NovaMaas.Billing.UsageBound
import NovaMaas.Billing.CostLayers
import NovaMaas.Billing.EffectiveSums
import NovaMaas.Override.WildcardExact
import NovaMaas.Relay.ModelMapping
import NovaMaas.Relay.AdvancedPath
import NovaMaas.Charge.AuditAgrees
import NovaMaas.RateLimit.TokenBucket
import NovaMaas.RateLimit.WindowLaw
import NovaMaas.Relay.StreamScanner
import NovaMaas.Routing.RetryEnds
import NovaMaas.Routing.WeightedShares
