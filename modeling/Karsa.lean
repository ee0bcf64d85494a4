import Karsa.Foundations.ControlFlow
import Karsa.Foundations.Runs
import Karsa.Foundations.Decimal
import Karsa.Foundations.Text
import Karsa.Execution.Bybit.Symbols
import Karsa.Execution.Bybit.AccountReads
import Karsa.Execution.Router.Flatten
import Karsa.Execution.Bybit.Orders
import Karsa.Execution.Router.Entry
import Karsa.Execution.Router.Exposure
import Karsa.Core.PositionRecord
import Karsa.Execution.Manager.Identity
import Karsa.Execution.Manager.State
import Karsa.Execution.Manager.Reconcile
import Karsa.Execution.Manager.ForceClose
import Karsa.Execution.Manager.StopRules
import Karsa.Execution.Manager.ExitRules
import Karsa.Execution.Manager.Carried
import Karsa.Execution.Manager.Cycle
import Karsa.Execution.Manager.Frame
import Karsa.Execution.Manager.ProtectiveStops
import Karsa.Foundations.Traces
import Karsa.Foundations.WeightedMeans
import Karsa.Execution.Manager.BreakevenLock
import Karsa.Execution.Manager.Removal
import Karsa.Execution.Manager.ScaleSchedule
import Karsa.Execution.Manager.Ledger
import Karsa.Consumer.LiveSignal
import Karsa.Consumer.Tracking
import Karsa.Execution.Bybit.Paging
import Karsa.Foundations.Dicts
import Karsa.Watchdog.SystemWatchdog
import Karsa.Core.RecordUpdates
import Karsa.Consumer.Admission
import Karsa.Alpha.Analyst
import Karsa.Consumer.AnalystGate
import Karsa.Bot.EmergencyHalt
import Karsa.DataEngine.EquityMonitor
import Karsa.Execution.ClosingRoutines
import Karsa.Startup.StoreSync
import Karsa.Execution.Manager.OrphanSync
import Karsa.Consumer.ExitBooking
import Karsa.Core.Reconciler.ClosedPnl
import Karsa.Core.Reconciler.StaleTrades
import Karsa.Startup.StateReconciliation
import Karsa.Execution.PositionLifecycle
import Karsa.Risk.ExposureLimits
import Karsa.Risk.LossBreakers
import Karsa.Risk.PortfolioChecks
import Karsa.Risk.FailClosed
import Karsa.Consumer.SizeReductions
import Karsa.Consumer.RealisedPnl
import Karsa.Core.Reconciler.Fills
import Karsa.Core.Reconciler.Convergence
import Karsa.Risk.CircuitBreaker
import Karsa.Risk.DrawdownVelocity
import Karsa.Execution.Router.ExitFills
import Karsa.Foundations.Json
import Karsa.Foundations.NumberTexts
import Karsa.Foundations.JsonText
import Karsa.Alpha.Answers
import Karsa.Core.Session
import Karsa.Alpha.OutageBreaker
import Karsa.Consumer.Slots
import Karsa.Commander.ShadowFeedback
import Karsa.Execution.Router.EntryStops
import Karsa.Execution.Router.StopLoss
import Karsa.Execution.Router.FeeAware
import Karsa.Execution.Router.RegimeAware
import Karsa.Execution.Router.StopProtection
import Karsa.Consumer.MarketFeed
import Karsa.Execution.Manager.RegimeShift
import Karsa.Execution.Manager.OrphanRegime
import Karsa.Foundations.Symmetries
import Karsa.Execution.Manager.Mirror
import Karsa.Execution.Shadow.Monitor
import Karsa.Execution.Shadow.StopHits
import Karsa.Execution.Shadow.RMultiples
import Karsa.Execution.Shadow.LimitOrders
import Karsa.Core.ShadowStores
import Karsa.Foundations.Isolation
import Karsa.Core.ShadowIsolation
import Karsa.Core.OrphanCleanup
import Karsa.Data.TrueRange
import Karsa.Foundations.Loops
import Karsa.Risk.DynamicRiskGate
import Karsa.Backtest.Engine
import Karsa.Backtest.Termination
import Karsa.Backtest.ExitPrices
import Karsa.Backtest.LookAhead
import Karsa.Foundations.Accrual
import Karsa.Backtest.Accounting
import Karsa.Risk.KellySizer
import Karsa.Risk.SizingPipeline
import Karsa.Alpha.SectorFilter
import Karsa.Consumer.SignalBuilder
import Karsa.Consumer.SizingCeilings
import Karsa.Consumer.DecisionEngine
import Karsa.Consumer.RegimeHysteresis
import Karsa.Consumer.SignalBrackets
import Karsa.Consumer.Rejections
import Karsa.Risk.PortfolioAllocator
import Karsa.Consumer.ExpectedValue
import Karsa.Consumer.EloRatings
import Karsa.DataEngine.CandleWire
import Karsa.Foundations.SortedSets
import Karsa.Alpha.TradeMemory
import Karsa.Alpha.RegimeKeys
import Karsa.Alpha.AdxAgreement
import Karsa.Alpha.RsiAgreement
import Karsa.Execution.TrapManager
import Karsa.Foundations.AverageCost
import Karsa.Core.StateLedger
import Karsa.Foundations.LiveSeries
import Karsa.DataEngine.CandlePolls
import Karsa.DataEngine.CandleTable
import Karsa.Foundations.Quotas
import Karsa.Data.UniverseScorer
import Karsa.Backtest.BulkJobs
import Karsa.Foundations.Drawdowns
import Karsa.Research.Promotion
import Karsa.Execution.Router.StopBudget
import Karsa.Execution.Router.IcebergSlices
import Karsa.Alpha.PositionJudge
import Karsa.Execution.CheckpointExits
import Karsa.Execution.LifecycleStops
import Karsa.Execution.Manager.LimitExit
import Karsa.Execution.Manager.SniperExits
import Karsa.Foundations.Peaks
import Karsa.Execution.Manager.MomentumDecay
import Karsa.Execution.Shadow.LossCap
import Karsa.Execution.Shadow.PeakPrices
import Karsa.Execution.Shadow.FundingFees
import Karsa.Foundations.FirstOfKey
import Karsa.Core.Reconciler.Backfill
import Karsa.Core.Reconciler.ExitMatching
import Karsa.Core.Reconciler.FillMatching
import Karsa.Backtest.WalkForward
import Karsa.Foundations.Depths
import Karsa.Analytics.Performance
import Karsa.DataEngine.CandleDownload
import Karsa.Data.Normalizer
import Karsa.Data.BadTicks
import Karsa.Foundations.TruncatedQueries
import Karsa.Backtest.CandleLoading
import Karsa.Foundations.Streaks
import Karsa.Alpha.CarrySignal
import Karsa.Alpha.Signals
import Karsa.Alpha.VolumeProfile
import Karsa.Foundations.Windows
import Karsa.Foundations.Sightings
import Karsa.Data.SpoofDetection
import Karsa.Foundations.Leases
import Karsa.Data.MarketDataIngestor
import Karsa.Foundations.Verdicts
import Karsa.Watchdog.HealthMonitor
import Karsa.Foundations.Nesting
import Karsa.Bot.MessageSplitting
import Karsa.Foundations.Memo
import Karsa.Core.FeatureStore
import Karsa.Foundations.NearestPairs
import Karsa.Analytics.Reconciliation
import Karsa.Core.Telemetry
import Karsa.Data.OhlcvFetcher
import Karsa.Alpha.LeadLagBuffer
import Karsa.Alpha.MicroScalper
import Karsa.Foundations.Percentiles
import Karsa.Backtest.MonteCarlo
