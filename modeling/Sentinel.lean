import Sentinel.TokenBucketLaw
import Sentinel.SlidingWindowLaw
import Sentinel.HalfOpenSlots
import Sentinel.HalfOpenVerdict
import Sentinel.TenantFairness
import Sentinel.BreakerAccounting
import Sentinel.FailFast
import Sentinel.PathFidelity
import Sentinel.SlidingWindowExpiry
import Sentinel.RetryAfter
import Sentinel.TokenBucketExpiry
import Sentinel.ForwardedHeaders
import Sentinel.RetryDiscipline
import Sentinel.SharedDeadline
import Sentinel.Health
import Sentinel.Streaks
import Sentinel.HealthyRouting
import Sentinel.Draining
import Sentinel.HealthRounds
import Sentinel.Segments
import Sentinel.Requests
import Sentinel.StageGating
import Sentinel.Operations
import Sentinel.TripCondition
import Sentinel.Observation
import Sentinel.Registries
import Sentinel.RoundRobin
import Sentinel.MetricLabels
import Sentinel.QueryFidelity
import Sentinel.ResponseIntegrity
import Sentinel.Representation
import Sentinel.RouteMatching
import Sentinel.TokenBucketRange
import Sentinel.SlidingWindowWait
import Sentinel.TokenBucketWait
import Sentinel.CurrentInstances
import Sentinel.OwnChecks
import Sentinel.SharedCounters
import Sentinel.Bootstrap
import Sentinel.Redaction
import Sentinel.GateProgress
import Sentinel.GatedPipeline
import Sentinel.Recovery
import Sentinel.ServiceIsolation
import Sentinel.Wedge
import Sentinel.Quota
import Sentinel.Metrics
import Sentinel.Provenance
import Sentinel.Hysteresis
import Sentinel.PipelineProgress
import Sentinel.DispatchedPipeline
import Sentinel.Outage
import Sentinel.HealthyGateway
