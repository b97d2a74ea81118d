import FirecrawlGateway.Lib.Base64Url
import FirecrawlGateway.Lib.BoundedLru
import FirecrawlGateway.Lib.EventMachine
import FirecrawlGateway.Lib.GuardedLog
import FirecrawlGateway.Lib.IncidentLog
import FirecrawlGateway.Lib.IpAddress
import FirecrawlGateway.Lib.JsMap
import FirecrawlGateway.Lib.JsonEquality
import FirecrawlGateway.Lib.JsonOccurrence
import FirecrawlGateway.Lib.JsonReader
import FirecrawlGateway.Lib.JsonRoundTrip
import FirecrawlGateway.Lib.JsonText
import FirecrawlGateway.Lib.JsonValue
import FirecrawlGateway.Lib.Minima
import FirecrawlGateway.Lib.NumberRoundTrip
import FirecrawlGateway.Lib.NumberText
import FirecrawlGateway.Lib.ReadThrough
import FirecrawlGateway.Lib.RedisStructures
import FirecrawlGateway.Lib.SealedCell
import FirecrawlGateway.Lib.Utf8Text
import FirecrawlGateway.Lib.WriteHistory
import FirecrawlGateway.Common.Crypto
import FirecrawlGateway.Common.RateLimitCounter
import FirecrawlGateway.Common.RateLimitCounterLedger
import FirecrawlGateway.Common.RateLimitCounterSteps
import FirecrawlGateway.Common.RateLimitCounterTheorems
import FirecrawlGateway.Common.RateLimitHitCounts
import FirecrawlGateway.Common.RateLimitIdleFlush
import FirecrawlGateway.Common.RateLimitIdleFlushTheorems
import FirecrawlGateway.Common.RateLimitDrain
import FirecrawlGateway.Common.RateLimitDrainTheorems
import FirecrawlGateway.Common.Utils
import FirecrawlGateway.Common.UtilsTheorems
import FirecrawlGateway.Common.PrivateAddresses
import FirecrawlGateway.Common.HostNames
import FirecrawlGateway.Credits.CreditsUsedScanner
import FirecrawlGateway.Credits.CreditsUsedScannerTheorems
import FirecrawlGateway.Credits.CreditsUsedJson
import FirecrawlGateway.Credits.CreditsUsedJsonTheorems
import FirecrawlGateway.Credits.CreditLedger
import FirecrawlGateway.Credits.CreditLedgerScripts
import FirecrawlGateway.Credits.CreditLedgerInvariant
import FirecrawlGateway.Credits.CreditLedgerTheorems
import FirecrawlGateway.Credits.CreditLedgerFields
import FirecrawlGateway.Credits.CreditRefreshTheorems
import FirecrawlGateway.Credits.CreditRouting
import FirecrawlGateway.Credits.CreditRoutingTheorems
import FirecrawlGateway.Credits.CreditRoutingService
import FirecrawlGateway.Admin.Credits
import FirecrawlGateway.Credits.KeySelection
import FirecrawlGateway.Proxy.CircuitBreaker
import FirecrawlGateway.Proxy.CircuitBreakerTheorems
import FirecrawlGateway.Proxy.CircuitBreakerTrips
import FirecrawlGateway.Proxy.CloudResponse
import FirecrawlGateway.Proxy.CloudKeyRuns
import FirecrawlGateway.Proxy.CloudKeyRunsTheorems
import FirecrawlGateway.Proxy.Policy
import FirecrawlGateway.Proxy.PolicyTheorems
import FirecrawlGateway.Proxy.ProxyService
import FirecrawlGateway.Proxy.ProxyServiceRules
import FirecrawlGateway.Proxy.ProxyServiceTheorems
import FirecrawlGateway.Proxy.RoutingTheorems
import FirecrawlGateway.Proxy.RunInvariants
import FirecrawlGateway.Proxy.ReserveTheorems
import FirecrawlGateway.Proxy.ResponseCache
import FirecrawlGateway.Proxy.RequestHandling
import FirecrawlGateway.Proxy.ContentTypeTheorems
import FirecrawlGateway.Proxy.AuditTheorems
import FirecrawlGateway.Proxy.ResponseCacheRuns
import FirecrawlGateway.Proxy.CacheKeyTheorems
import FirecrawlGateway.Proxy.ResponseCacheTheorems
import FirecrawlGateway.Proxy.ResponseCacheSwitch
import FirecrawlGateway.Proxy.ResponseCacheLru
import FirecrawlGateway.Proxy.CacheKeyIdentity
import FirecrawlGateway.Proxy.CredentialTheorems
import FirecrawlGateway.Settings.CloudKeys
import FirecrawlGateway.Settings.RuntimeSettings
import FirecrawlGateway.Settings.SettingsService
import FirecrawlGateway.Settings.SettingsServiceTheorems
import FirecrawlGateway.Settings.CloudKeySetting
import FirecrawlGateway.Settings.SettingsController
import FirecrawlGateway.Settings.KeyMigrations
import FirecrawlGateway.ApiKeys.ApiKeysService
import FirecrawlGateway.ApiKeys.ApiKeysServiceTheorems
import FirecrawlGateway.Alerts.AlertService
import FirecrawlGateway.Alerts.AlertServiceTheorems
import FirecrawlGateway.Settings.SettingsControllerTheorems
import FirecrawlGateway.Settings.KeyMigrationsTheorems
import FirecrawlGateway.Auth.SessionService
import FirecrawlGateway.Auth.SessionServiceTheorems
import FirecrawlGateway.Lib.DoubleArithmetic
import FirecrawlGateway.Cron.CronService
import FirecrawlGateway.Cron.CronServiceTheorems
import FirecrawlGateway.Cron.InactivitySweep
import FirecrawlGateway.Cron.InactivitySweepTheorems
import FirecrawlGateway.Lib.SqlLike
import FirecrawlGateway.Lib.AsciiText
import FirecrawlGateway.Audit.AuditStats
import FirecrawlGateway.Audit.AuditStatsTheorems
import FirecrawlGateway.Common.SharedRateLimits
import FirecrawlGateway.Common.RateLimitSections
import FirecrawlGateway.Common.SharedRateLimitsLedger
import FirecrawlGateway.Common.RateLimitTurns
import FirecrawlGateway.Common.SharedRateLimitsTheorems
import FirecrawlGateway.Common.SharedRateLimitsWindow
import FirecrawlGateway.Common.SharedRateLimitsOvershoot
import FirecrawlGateway.Lib.UtcCalendar
import FirecrawlGateway.ApiKeys.Quotas
import FirecrawlGateway.ApiKeys.QuotasTheorems
import FirecrawlGateway.Lib.TopRows
import FirecrawlGateway.Lib.FixedFields
import FirecrawlGateway.Lib.IsoText
import FirecrawlGateway.Audit.AuditService
import FirecrawlGateway.Audit.AuditServiceTheorems
import FirecrawlGateway.Audit.Dashboard
import FirecrawlGateway.Audit.DashboardTheorems
import FirecrawlGateway.ApiKeys.KeyTouches
import FirecrawlGateway.ApiKeys.KeyTouchesTheorems
import FirecrawlGateway.Lib.SlidingWindow
import FirecrawlGateway.Metrics.MetricsService
import FirecrawlGateway.Metrics.MetricsServiceTheorems
import FirecrawlGateway.Lib.FormUrlencoded
import FirecrawlGateway.Lib.RoundedMeans
import FirecrawlGateway.Audit.StatsRequest
import FirecrawlGateway.Audit.StatsRequestTheorems
import FirecrawlGateway.Audit.Cards
import FirecrawlGateway.Audit.CardsTheorems
import FirecrawlGateway.ApiKeys.ApiKeysController
import FirecrawlGateway.ApiKeys.ApiKeysControllerTheorems
import FirecrawlGateway.Proxy.BalanceRefreshes
