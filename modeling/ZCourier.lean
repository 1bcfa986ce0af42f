import ZCourier.Downlink.PolicyResolution
import ZCourier.Downlink.RetryWindow
import ZCourier.Downlink.Capacity
import ZCourier.Downlink.Provenance
import ZCourier.Downlink.Sequential
import ZCourier.Downlink.Leases
import ZCourier.Downlink.TerminalFields
import ZCourier.Downlink.Listing
import ZCourier.Downlink.Postgres.FairClaim
import ZCourier.Downlink.Postgres.Retention
import ZCourier.Downlink.Postgres.RoundTrip
import ZCourier.Server.SessionIndexes
import ZCourier.Server.ClusterRoutes
import ZCourier.Server.QuotaAgreement
import ZCourier.Server.RateLimit
import ZCourier.Server.ClaimedClient
import ZCourier.Server.Addressee
import ZCourier.Server.RejectedBind
import ZCourier.Config.HotReload
import ZCourier.Config.QuotaRate
import ZCourier.Config.EnvExpansion
import ZCourier.Php.ExactIntegers
import ZCourier.Php.Streams
import ZCourier.Php.DownlinkOrder
import ZCourier.Signing.Signer
import ZCourier.Server.AdminSessions
import ZCourier.Server.AdminAudit
import ZCourier.Auth.CachedVerifier
import ZCourier.Auth.JwtVerifier
import ZCourier.Adapter.HttpForwarder
import ZCourier.Adapter.NsqForwarder
