import FraudPlatform.Framework.Run
import FraudPlatform.Framework.Fallible
import FraudPlatform.Framework.Remote
import FraudPlatform.Framework.Streak
import FraudPlatform.Framework.Table
import FraudPlatform.Framework.Binary64
import FraudPlatform.Framework.Exact
import FraudPlatform.Framework.Json
import FraudPlatform.Http
import FraudPlatform.Tables
import FraudPlatform.Router.Routing
import FraudPlatform.Router.Admin
import FraudPlatform.Serving.Runner
import FraudPlatform.Serving.Score
import FraudPlatform.Serving.HotSwap
import FraudPlatform.Registry.Roster
import FraudPlatform.Registry.Models
import FraudPlatform.Registry.Register
import FraudPlatform.Canary.History
import FraudPlatform.Canary.Evaluator
import FraudPlatform.Canary.EvaluatorProof
import FraudPlatform.Canary.Metrics
import FraudPlatform.Canary.Apply
import FraudPlatform.Canary.Promotion
import FraudPlatform.Canary.Retirement
import FraudPlatform.Canary.Loop
import FraudPlatform.Canary.Soundness
import FraudPlatform.Canary.Retry
import FraudPlatform.Canary.Recording
import FraudPlatform.Canary.Traffic
import FraudPlatform.Framework.Channel
import FraudPlatform.Framework.Inbox
import FraudPlatform.Framework.Slots
import FraudPlatform.Serving.Store
import FraudPlatform.Serving.StoreProof
import FraudPlatform.Serving.Lifecycle
import FraudPlatform.Serving.LifecycleProof
import FraudPlatform.Serving.Shutdown
import FraudPlatform.Serving.ShutdownProof
import FraudPlatform.Router.Dispatcher
import FraudPlatform.Router.DispatcherProof
import FraudPlatform.Router.HandleScore
import FraudPlatform.Framework.Limit
import FraudPlatform.Labels.Simulator
import FraudPlatform.Labels.Starvation
import FraudPlatform.Labels.Soundness
import FraudPlatform.Labels.Schedule
import FraudPlatform.Framework.Replay
import FraudPlatform.Framework.PyInt
import FraudPlatform.Framework.Md5
import FraudPlatform.Framework.Datetime
import FraudPlatform.Framework.Numpy
import FraudPlatform.Framework.Reals
import FraudPlatform.Drift.Detectors
import FraudPlatform.Drift.Runner
import FraudPlatform.Drift.Silenced
import FraudPlatform.Shadow.Comparator
import FraudPlatform.Monitoring.Restart
import FraudPlatform.Framework.Decimal
import FraudPlatform.Router.Startup
import FraudPlatform.Canary.PriorOutcomes
import FraudPlatform.Serving.Reload
import FraudPlatform.Labels.Count
import FraudPlatform.Features.Schema
import FraudPlatform.Features.Contract
import FraudPlatform.Migrations.Apply
import FraudPlatform.Framework.RealArrays
import FraudPlatform.Framework.RealBins
import FraudPlatform.Drift.Psi
import FraudPlatform.Drift.Blind
import FraudPlatform.Framework.Ieee
import FraudPlatform.Framework.Ranking
import FraudPlatform.Features.Encoding
import FraudPlatform.Framework.DoubleRounding
import FraudPlatform.Framework.Dict
import FraudPlatform.Framework.JsonScan
import FraudPlatform.Framework.JsonDump
import FraudPlatform.Features.Client
import FraudPlatform.Router.Split
import FraudPlatform.Serving.Chunks
import FraudPlatform.Framework.JsonStruct
import FraudPlatform.Serving.Handler
import FraudPlatform.Training.Splits
import FraudPlatform.Training.Evaluate
import FraudPlatform.Framework.RealMoments
import FraudPlatform.Shadow.Consistency
import FraudPlatform.Framework.FloatFloor
import FraudPlatform.Training.Baselines
import FraudPlatform.Framework.Divergence
import FraudPlatform.Drift.Hashes
import FraudPlatform.Drift.Js
import FraudPlatform.Drift.Weights
import FraudPlatform.Drift.Missing
import FraudPlatform.Drift.Healthy
import FraudPlatform.Router.Gauge
import FraudPlatform.Framework.Dataflow
import FraudPlatform.Framework.Journal
import FraudPlatform.Router.HandleScoreProof
import FraudPlatform.Router.Accounting
import FraudPlatform.Serving.Persist
import FraudPlatform.Training.ExportOnnx
import FraudPlatform.Training.OperatingPoints
import FraudPlatform.Monitoring.Journal
import FraudPlatform.Labels.Drain
import FraudPlatform.Framework.JsonStream
import FraudPlatform.Framework.JsonWire
import FraudPlatform.Wire
import FraudPlatform.Router.Upstream
import FraudPlatform.Canary.Wire
import FraudPlatform.Framework.Overwrite
import FraudPlatform.Features.Load
import FraudPlatform.Serving.SchemaGuard
import FraudPlatform.Canary.Audit
import FraudPlatform.Canary.Liveness
import FraudPlatform.Training.TemporalSplit
import FraudPlatform.Lineage
import FraudPlatform.Router.Shutdown
